import Riaps.Coordination.Deadlines

/-!
# Notifications

The thread tells its component of every change of the membership list (`MJD`,
`MLT`) and of the leader (`LEL`, `LEX`). A component that only takes these
notifications in has a `View` of the group. `View.take` is partial: a member
that joins must not be on the list, one that leaves must be on it, and a leader
that exits must be the one there is. `notices_replay` says that the
notifications of every run can be taken in, and that the view they give is the
thread's own list and leader.
-/

namespace Riaps.Coordination

open Riaps.Foundation

universe u

variable {Id : Type u}

/-- What a component knows of its group from the notifications. -/
@[ext] structure View (Id : Type u) where
  members : List Id
  leader : Option Id

namespace View

variable [DecidableEq Id]

/-- Take in what the thread sent: `none` if it is a notification out of place. -/
def take (v : View Id) : Sent Id → Option (View Id)
  | .comp (.mjd id) => if id ∈ v.members then none else some { v with members := v.members ++ [id] }
  | .comp (.mlt id) => if id ∈ v.members then some { v with members := v.members.filter (· ≠ id) } else none
  | .comp (.lel id) => some { v with leader := some id }
  | .comp (.lex id) => if v.leader = some id then some { v with leader := none } else none
  | _ => some v

/-- Take in all that the thread sent, in order. -/
def replay (v : View Id) (l : List (Sent Id)) : Option (View Id) := l.foldlM take v

@[simp] theorem replay_nil (v : View Id) : v.replay [] = some v := rfl

@[simp] theorem replay_cons (v : View Id) (x : Sent Id) (l : List (Sent Id)) :
    v.replay (x :: l) = (v.take x).bind fun w => w.replay l := rfl

@[simp] theorem replay_append (v : View Id) (l k : List (Sent Id)) :
    v.replay (l ++ k) = (v.replay l).bind fun w => w.replay k := List.foldlM_append

@[simp] theorem take_pub (v : View Id) (st : MemberState) (m : GroupMsg Id) : v.take (.pub st m) = some v := rfl

theorem take_of_isAside (v : View Id) {x : Sent Id} (h : x.isAside) : v.take x = some v := by
  cases x with
  | comp m =>
    cases m with
    | mjd | mlt | lel | lex => cases h
    | _ => rfl
  | _ => rfl

theorem replay_of_isAside (v : View Id) {l : List (Sent Id)} (h : ∀ x ∈ l, x.isAside) : v.replay l = some v := by
  induction l with
  | nil => rfl
  | cons x l ih =>
    rw [List.forall_mem_cons] at h
    rw [replay_cons, take_of_isAside v h.1]
    exact ih h.2

end View

/-- The thread's own list and leader. -/
def GroupThread.view (s : GroupThread Id) : View Id := ⟨s.peers.keys, s.leader⟩

variable [DecidableEq Id]

/-- From `s` to `s'` the component was told of all that changed. -/
structure Told (s s' : GroupThread Id) : Prop where
  sent : ∃ l, s'.sent = s.sent ++ l ∧ s.view.replay l = some s'.view
  counted : s.Counted → s'.Counted

namespace Told

theorem refl (s : GroupThread Id) : Told s s := ⟨⟨[], by simp, rfl⟩, id⟩

theorem trans {s t r : GroupThread Id} (h₁ : Told s t) (h₂ : Told t r) : Told s r := by
  obtain ⟨l, hl, hv⟩ := h₁.sent
  obtain ⟨k, hk, hw⟩ := h₂.sent
  refine ⟨⟨l ++ k, by rw [hk, hl, List.append_assoc], ?_⟩, fun h => h₂.counted (h₁.counted h)⟩
  rw [View.replay_append, hv]
  exact hw

end Told

/-- There is nothing to tell of an operation that concerns something else. -/
theorem Aside.told {s s' : GroupThread Id} (h : Aside s s') : Told s s' := by
  obtain ⟨l, hl, ha⟩ := h.sent
  have hview : s'.view = s.view :=
    View.ext (by rw [GroupThread.view, GroupThread.view, h.peers]) (congrArg Seat.leader h.seat)
  refine ⟨⟨l, hl, ?_⟩, fun hc => ?_⟩
  · rw [hview]
    exact s.view.replay_of_isAside ha
  · rw [GroupThread.Counted, h.numPeers, h.peers]
    exact hc

/-- What the notifications of a call come to. An exception may leave the handler between the
notification and the change of the leader; such a thread has ended. -/
structure Tells (s s' : GroupThread Id) : Prop where
  sent : ∃ l v, s'.sent = s.sent ++ l ∧ s.view.replay l = some v ∧ v.members = s'.peers.keys ∧
    (s'.exc = none → v.leader = s'.leader)
  counted : s.Counted → s'.Counted

theorem Told.tells {s s' : GroupThread Id} (h : Told s s') : Tells s s' := by
  obtain ⟨l, hl, hv⟩ := h.sent
  exact ⟨⟨l, s'.view, hl, hv, rfl, fun _ => rfl⟩, h.counted⟩

theorem Told.then_tells {s t r : GroupThread Id} (h : Told s t) (ht : Tells t r) : Tells s r := by
  obtain ⟨l, hl, hv⟩ := h.sent
  obtain ⟨k, v, hk, hw, hmem, hlead⟩ := ht.sent
  refine ⟨⟨l ++ k, v, by rw [hk, hl, List.append_assoc], ?_, hmem, hlead⟩, fun hc => ht.counted (h.counted hc)⟩
  rw [View.replay_append, hv]
  exact hw

namespace GroupThread

/-! ### The membership list -/

theorem keys_del (d : Dict Id ℚ) (k : Id) : (d.del k).keys = d.keys.filter (· ≠ k) := by
  simp only [Dict.keys, Dict.del, Dict.delAll, List.filter_map, List.mem_singleton]
  rfl

theorem told_dropPeer {s : GroupThread Id} {leaver : Id} (h : leaver ∈ s.peers) :
    ∃ l, (s.dropPeer leaver).sent = s.sent ++ l ∧ s.view.replay l = some (s.dropPeer leaver).view := by
  refine ⟨[.comp (.mlt leaver)], rfl, ?_⟩
  have hmem : leaver ∈ s.view.members := h
  rw [View.replay_cons, View.take, if_pos hmem]
  exact congrArg some (View.ext (keys_del s.peers leaver).symm rfl)

/-- The loop over the leavers. -/
theorem told_dropPeers {leavers : List Id} (hnodup : leavers.Nodup) {s : GroupThread Id}
    (h : ∀ k ∈ leavers, k ∈ s.peers) :
    ∃ l, (leavers.foldl dropPeer s).sent = s.sent ++ l ∧
      s.view.replay l = some (leavers.foldl dropPeer s).view := by
  induction leavers generalizing s with
  | nil => exact ⟨[], by simp, rfl⟩
  | cons k leavers ih =>
    obtain ⟨hk, hleavers⟩ := List.forall_mem_cons.mp h
    obtain ⟨hnotin, hnodup'⟩ := List.nodup_cons.mp hnodup
    have hrest : ∀ j ∈ leavers, j ∈ (s.dropPeer k).peers := by
      intro j hj
      have hjk : j ≠ k := fun hjk => hnotin (hjk ▸ hj)
      rw [Dict.mem_iff_mem_keys]
      show j ∈ (s.peers.del k).keys
      rw [keys_del, List.mem_filter]
      exact ⟨hleavers j hj, by simpa using hjk⟩
    obtain ⟨l, hl, hv⟩ := told_dropPeer hk
    obtain ⟨l', hl', hv'⟩ := ih hnodup' hrest
    refine ⟨l ++ l', by rw [List.foldl_cons, hl', hl, List.append_assoc], ?_⟩
    rw [View.replay_append, hv]
    exact hv'

theorem told_updatePeers (g : GroupParams) (now : ℚ) (s : GroupThread Id) : Told s (s.updatePeers g now) := by
  refine ⟨?_, counted_updatePeers⟩
  have hsub : ((s.peers.items.filter fun p => g.groupPeerTimeout < pyInt ((now - p.2) * 1000)).map Prod.fst).Sublist
      s.peers.keys := List.filter_sublist.map _
  unfold updatePeers
  simp only
  split_ifs
  · exact told_dropPeers (s.peers.nodup.sublist hsub) fun k hk => hsub.subset hk
  · exact (Told.refl s).sent

/-- A member that leaves. -/
theorem told_leave (leaver : Id) (s : GroupThread Id) :
    Told s (if leaver ∈ s.peers then s.dropPeer leaver else s).countPeers := by
  refine ⟨?_, fun _ => rfl⟩
  split_ifs with h
  · exact told_dropPeer h
  · exact (Told.refl s).sent

/-- A member that is heard from. -/
theorem told_hearPeer (peer : Id) (now : ℚ) (s : GroupThread Id) :
    Told s ((if peer ∈ s.peers then s else s.sendComp (.mjd peer)).hearPeer peer now).countPeers := by
  refine ⟨?_, fun _ => rfl⟩
  have hkeys := s.peers.keys_set peer now
  by_cases h : peer ∈ s.peers
  · rw [if_pos h]
    refine ⟨[], by simp [hearPeer, countPeers], ?_⟩
    rw [if_pos h] at hkeys
    exact congrArg some (View.ext hkeys.symm rfl)
  · rw [if_neg h]
    refine ⟨[.comp (.mjd peer)], rfl, ?_⟩
    have hmem : peer ∉ s.view.members := h
    rw [if_neg h] at hkeys
    rw [View.replay_cons, View.take, if_neg hmem]
    exact congrArg some (View.ext hkeys.symm rfl)

theorem told_wake (g : Member Id) (now : ℚ) (s : GroupThread Id) : Told s (s.wake g now) :=
  (aside_heartbeat g now s).told.trans (told_updatePeers _ now _)

theorem told_sweep (g : GroupParams) (now : ℚ) (s : GroupThread Id) : Told s (s.sweep g now) :=
  (told_updatePeers g now s).trans (aside_checkAllPolls now _).told

/-! ### The leader -/

/-- A change of the leader that leaves the membership list alone. -/
theorem told_of_leader {s s' : GroupThread Id} {l : List (Sent Id)} (hp : s'.peers = s.peers)
    (hn : s'.numPeers = s.numPeers) (hs : s'.sent = s.sent ++ l)
    (hl : s.view.replay l = some ⟨s.peers.keys, s'.leader⟩) : Told s s' := by
  refine ⟨⟨l, hs, ?_⟩, fun h => ?_⟩
  · rw [hl, view, hp]
  · rw [Counted, hn, hp]
    exact h

@[simp] theorem replay_lexNote (s : GroupThread Id) : s.view.replay s.lexNote = some ⟨s.peers.keys, none⟩ := by
  unfold lexNote
  cases hlead : s.leader with
  | none => simp [view, hlead]
  | some leader => simp [view, View.take, hlead]

@[simp] theorem replay_lelNote (leader : Id) (s : GroupThread Id) :
    s.view.replay (s.lelNote leader) = some ⟨s.peers.keys, some leader⟩ := by
  unfold lelNote
  split_ifs with h
  · rfl
  · rw [not_not] at h
    simp [view, h]

theorem told_candidateTimeout (g : Member Id) (e : Env g.toGroupParams) (s : GroupThread Id) :
    Told s (s.candidateTimeout g e) := by
  unfold candidateTimeout
  simp only [leaderExited_eq]
  exact told_of_leader rfl rfl rfl (replay_lexNote s)

theorem told_leaderTimeout (g : Member Id) (e : Env g.toGroupParams) (s : GroupThread Id) :
    Told s (s.leaderTimeout g e) := by
  unfold leaderTimeout
  split
  · exact (aside_raise _ s).told
  · cases s.ldrPort with
    | none => exact (aside_raise _ s).told
    | some port =>
      simp only
      split
      · exact (aside_raise _ s).told
      · exact told_of_leader rfl rfl rfl rfl

theorem told_followerReqvote (g : Member Id) (e : Env g.toGroupParams) (term : ℕ) (node : Id) (s : GroupThread Id) :
    Told s (s.followerReqvote g e term node) := by
  unfold followerReqvote
  simp only [leaderExited_eq]
  generalize grantsVote s.votedFor s.term term node = vote
  have hsent : s.view.replay ([.pub s.state (.rspvote term node vote g.ownId)] ++ s.lexNote) =
      some ⟨s.peers.keys, none⟩ := by simp
  cases vote with
  | true => exact told_of_leader rfl rfl (by simp [publish, qryUpdate, setTimeout, lexNote]) hsent
  | false => exact told_of_leader rfl rfl (by simp [publish, qryUpdate, setTimeout, lexNote]) hsent

theorem told_candidateReqvote (g : Member Id) (e : Env g.toGroupParams) (term : ℕ) (node : Id) (s : GroupThread Id) :
    Told s (s.candidateReqvote g e term node) := by
  unfold candidateReqvote
  refine Told.trans ?_ (aside_setTimeout _ _ _).told
  split
  · split
    · exact told_of_leader rfl rfl rfl rfl
    · exact .refl s
  · split
    · simp only [leaderExited_eq]
      refine told_of_leader (l := [.pub .follower (.rspvote term node true g.ownId)] ++ s.lexNote) rfl rfl ?_ ?_
      · simp [publish, qryUpdate, lexNote]
      · simp [qryUpdate]
    · exact .refl s

theorem told_winElection (g : Member Id) (e : Env g.toGroupParams) (s : GroupThread Id) :
    Told s (s.winElection g e) := by
  unfold winElection
  have hlel : Told s ({ s with state := .leader, leader := some g.ownId }.sendComp (.lel g.ownId)) :=
    told_of_leader rfl rfl rfl rfl
  refine hlel.trans ?_
  generalize { s with state := .leader, leader := some g.ownId }.sendComp (.lel g.ownId) = t
  simp only
  cases t.ansPort.portNum with
  | some port => exact (aside_raise _ t).told
  | none =>
    simp only
    split
    · exact told_of_leader (l := []) rfl rfl (by simp [raise]) rfl
    · exact told_of_leader rfl rfl rfl rfl

theorem told_candidateRspvote (g : Member Id) (e : Env g.toGroupParams) (cand : Id) (vote : Bool)
    (s : GroupThread Id) : Told s (s.candidateRspvote g e cand vote) := by
  have hcount : Told s { s with votes := s.votes + 1 } := told_of_leader (l := []) rfl rfl (by simp) rfl
  unfold candidateRspvote
  split
  · simp only
    split
    · exact hcount.trans (told_winElection g e _)
    · exact hcount
  · exact .refl s

theorem told_acceptLeader (term : ℕ) (leader : Id) (host : Option String) (port : Option ℕ) (s : GroupThread Id) :
    Told s (s.acceptLeader term leader host port) := by
  unfold acceptLeader
  simp only [setLeader_eq]
  exact told_of_leader rfl rfl rfl (replay_lelNote leader s)

theorem told_setLeaderDeadline {g : GroupParams} (e : Env g) (s : GroupThread Id) : Told s (s.setLeaderDeadline e) :=
  told_of_leader (l := []) rfl rfl (by simp [setLeaderDeadline]) rfl

theorem told_candidateAuthority (g : Member Id) (e : Env g.toGroupParams) (term : ℕ) (leader : Id) (host port : ℕ)
    (s : GroupThread Id) : Told s (s.candidateAuthority g e term leader host port) :=
  ((told_acceptLeader term leader _ _ s).trans (aside_setTimeout _ _ _).told).trans (told_setLeaderDeadline e _)

theorem told_leaderAuthority (g : Member Id) (e : Env g.toGroupParams) (term : ℕ) (leader : Id) (host port : ℕ)
    (s : GroupThread Id) : Told s (s.leaderAuthority g e term leader host port) := by
  unfold leaderAuthority
  split
  · exact ((told_acceptLeader term leader _ _ s).trans (told_setLeaderDeadline e _)).trans (aside_setTimeout _ _ _).told
  · exact (aside_setTimeout _ _ s).told

theorem told_followerAuthority (g : Member Id) (e : Env g.toGroupParams) (term : ℕ) (leader : Id) (host port : ℕ)
    (s : GroupThread Id) : Told s (s.followerAuthority g e term leader host port) := by
  unfold followerAuthority
  simp only [setLeader_eq]
  split
  · exact told_of_leader rfl rfl rfl (replay_lelNote leader s)
  · exact told_of_leader rfl rfl rfl (replay_lelNote leader s)

theorem told_handleNetMessage (g : Member Id) (e : Env g.toGroupParams) (m : GroupMsg Id) (s : GroupThread Id) :
    Told s (s.handleNetMessage g e m) := by
  cases m with
  | msg payload =>
    simp only [handleNetMessage]
    have h := (aside_forward g.toGroupParams (m := .msg payload) rfl s).told
    split
    · exact h.trans (aside_updateTimeout _ _).told
    · exact h
  | mlt leaver =>
    simp only [handleNetMessage]
    have h := told_leave leaver s
    generalize (if leaver ∈ s.peers then s.dropPeer leaver else s).countPeers = t at h ⊢
    split
    · exact h.trans (aside_setTimeout _ _ t).told
    · exact h
  | heartbeat peer => exact (told_hearPeer peer e.now s).trans (aside_updateTimeout e.now _).told
  | rcm m =>
    simp only [handleNetMessage]
    have h := (aside_forward g.toGroupParams (m := .rcm m) rfl s).told
    split
    · exact (h.trans (aside_updateTimeout _ _).told).trans (told_setLeaderDeadline e _)
    · exact h
  | ann m =>
    simp only [handleNetMessage]
    have h := (aside_forward g.toGroupParams (m := .ann m) rfl s).told
    split
    · exact (h.trans (aside_updateTimeout _ _).told).trans (told_setLeaderDeadline e _)
    · exact h
  | reqvote term node =>
    simp only [handleNetMessage]
    cases s.state with
    | follower => exact told_followerReqvote g e term node s
    | candidate => exact told_candidateReqvote g e term node s
    | leader => exact (aside_setTimeout _ _ s).told
  | rspvote term cand vote node =>
    simp only [handleNetMessage]
    cases s.state with
    | follower => exact (aside_setTimeout _ _ s).told
    | candidate => exact told_candidateRspvote g e cand vote s
    | leader => exact (aside_setTimeout _ _ s).told
  | authority term leader host port =>
    simp only [handleNetMessage]
    cases s.state with
    | follower => exact told_followerAuthority g e term leader host port s
    | candidate => exact told_candidateAuthority g e term leader host port s
    | leader => exact told_leaderAuthority g e term leader host port s

/-! ### Calls -/

theorem tells_startElection (g : Member Id) (e : Env g.toGroupParams) (s : GroupThread Id) :
    Tells s (s.startElection g e) := by
  unfold startElection
  simp only [leaderExited_eq, qryUpdate]
  split
  · exact ⟨⟨s.lexNote, _, rfl, replay_lexNote s, rfl, fun h => by cases h⟩, id⟩
  · refine ⟨⟨s.lexNote ++ [.pub .candidate (.reqvote (s.term + 1) g.ownId)], ⟨s.peers.keys, none⟩, ?_, ?_, rfl,
      fun _ => rfl⟩, id⟩
    · simp [publish, setTimeout]
    · simp

theorem tells_handleTimeout (g : Member Id) (e : Env g.toGroupParams) (s : GroupThread Id) :
    Tells s (s.handleTimeout g e) := by
  rw [handleTimeout_eq]
  refine (told_sweep g.toGroupParams e.now s).then_tells ?_
  generalize s.sweep g.toGroupParams e.now = t
  cases s.state with
  | follower =>
    simp only [followerTimeout]
    split_ifs
    · exact tells_startElection g e t
    · exact ((told_setLeaderDeadline e t).trans (aside_setTimeout _ _ _).told).tells
    · exact (aside_setTimeout _ _ t).told.tells
  | candidate => exact (told_candidateTimeout g e t).tells
  | leader => exact (told_leaderTimeout g e t).tells

theorem tells_call (g : Member Id) (s : GroupThread Id) (c : Call Id g) : Tells s (call g s c) := by
  unfold call
  split_ifs with hs
  · exact (Told.refl s).tells
  · cases c with
    | wake e => exact (told_wake g e.now s).tells
    | timeout e => exact tells_handleTimeout g e s
    | comp e err req => exact (aside_handleCompMessage g e err req s).told.tells
    | net e m => exact (told_handleNetMessage g e m s).tells
    | forLeader e sender identity m =>
      exact (aside_handleMessageForLeader g.toGroupParams e.time identity m s).told.tells
    | forMember e payload => exact (aside_forward g.toGroupParams (m := .mfl payload) rfl s).told.tells

/-- The notifications sent so far are in place and come to the thread's own list and leader. -/
def Informed (s : GroupThread Id) : Prop :=
  (∃ v, View.replay ⟨[], none⟩ s.sent = some v ∧ v.members = s.peers.keys ∧ (s.exc = none → v.leader = s.leader)) ∧
    Counted s

theorem informed_start (g : Member Id) (e : Env g.toGroupParams) : Informed (start g e) := by
  unfold start heartbeat
  simp only [setLeaderDeadline]
  split
  · exact ⟨⟨⟨[], none⟩, rfl, rfl, fun _ => rfl⟩, rfl⟩
  · exact ⟨⟨⟨[], none⟩, rfl, rfl, fun _ => rfl⟩, rfl⟩

theorem informed_call (g : Member Id) {s : GroupThread Id} (c : Call Id g) (h : Informed s) :
    Informed (call g s c) := by
  obtain ⟨⟨v, hv, hmem, hlead⟩, hc⟩ := h
  by_cases hs : s.exc = none
  · have hview : v = s.view := View.ext hmem (hlead hs)
    obtain ⟨⟨l, w, hl, hw, hmem', hlead'⟩, hc'⟩ := tells_call g s c
    refine ⟨⟨w, ?_, hmem', hlead'⟩, hc' hc⟩
    rw [hl, View.replay_append, hv, hview]
    exact hw
  · rw [call_of_exc hs]
    exact ⟨⟨v, hv, hmem, hlead⟩, hc⟩

/-- **The notifications of a run.** Taken in from the start, in order, they are all in place:
a member joins that was not on the list, one leaves that was, a leader exits that was the
leader. They come to the thread's list of peers, in its order, and, while the thread runs,
to its leader. -/
theorem notices_replay (g : Member Id) (e : Env g.toGroupParams) (cs : List (Call Id g)) :
    let s := run (call g) (start g e) cs
    (∃ v, View.replay ⟨[], none⟩ s.sent = some v ∧ v.members = s.peers.keys ∧
      (s.exc = none → v.leader = s.leader)) ∧ s.numPeers = s.peers.len :=
  inv_run (fun _ c h => informed_call g c h) (informed_start g e) cs

end GroupThread

end Riaps.Coordination
