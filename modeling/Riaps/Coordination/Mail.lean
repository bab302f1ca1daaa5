import Riaps.Coordination.Elections

/-!
# Messages that are passed on

A group thread passes data, requests for votes and their outcomes on from the group
to its component, and messages between the leader and the members. The election,
the heartbeats and the polls send none of these: of whatever kind they are, all
that a call sends is sent by the handlers that pass a message on.

What a group thread hands to its component from a member or from the leader, and
what it sends through its answer port, is its mail (`mailOf_sends`).
-/

namespace Riaps.Coordination

universe u

variable {Id : Type u}

/-- A message of another component. -/
def CompMsg.isCarried : CompMsg Id → Bool
  | .msg _ | .mtl _ _ | .mfl _ | .rcm _ | .ann _ => true
  | _ => false

/-- A message to the leader or from the leader, for the component, or one for a member. -/
def Sent.isMail : Sent Id → Bool
  | .comp (.mtl _ _) | .comp (.mfl _) | .ans _ _ => true
  | _ => false

/-- The mail among what was sent. -/
def mailOf (l : List (Sent Id)) : List (Sent Id) := l.filter Sent.isMail

@[simp] theorem mailOf_append (l k : List (Sent Id)) : mailOf (l ++ k) = mailOf l ++ mailOf k :=
  List.filter_append _ _

@[simp] theorem mailOf_mtl (payload identity : Bytes) :
    mailOf [Sent.comp (.mtl payload identity : CompMsg Id)] = [.comp (.mtl payload identity)] := rfl

@[simp] theorem mailOf_mfl (payload : Bytes) : mailOf [Sent.comp (.mfl payload : CompMsg Id)] =
    [.comp (.mfl payload)] :=
  rfl

@[simp] theorem mailOf_ans (identity payload : Bytes) :
    mailOf [(.ans identity payload : Sent Id)] = [.ans identity payload] := rfl

theorem mem_mailOf {l : List (Sent Id)} {x : Sent Id} : x ∈ mailOf l ↔ x ∈ l ∧ x.isMail := List.mem_filter

/-- What a message of the group is for the component, if it is passed on. -/
def GroupMsg.carried : GroupMsg Id → Option (CompMsg Id)
  | .msg payload => some (.msg payload)
  | .rcm m => some (.rcm m)
  | .ann m => some (.ann m)
  | _ => none

/-- A kind of what is sent that has no publication in it, no request to the leader and no word of the thread's own. -/
structure Carried (p : Sent Id → Bool) : Prop where
  pub : ∀ st m, p (.pub st m) = false
  qry : ∀ m, p (.qry m) = false
  word : ∀ m : CompMsg Id, m.isCarried = false → p (.comp m) = false

theorem carried_isMail : Carried (Sent.isMail : Sent Id → Bool) where
  pub _ _ := rfl
  qry _ := rfl
  word m hm := by cases m <;> first | rfl | cases hm

theorem filter_concat {p : Sent Id → Bool} {x : Sent Id} (h : p x = false) (l : List (Sent Id)) :
    (l ++ [x]).filter p = l.filter p := by
  rw [List.filter_append, List.filter_cons_of_neg (by simp [h]), List.filter_nil, List.append_nil]

namespace GroupThread

/-! ### Operations that pass nothing on -/

section Operations

variable {p : Sent Id → Bool} (hp : Carried p)

include hp

theorem filter_publish (m : GroupMsg Id) (s : GroupThread Id) : (s.publish m).sent.filter p = s.sent.filter p :=
  filter_concat (hp.pub _ _) _

theorem filter_sendGroup (err : Option ℕ) (m : GroupMsg Id) (s : GroupThread Id) :
    (s.sendGroup err m).sent.filter p = s.sent.filter p := by
  cases err with
  | none => exact filter_publish hp m s
  | some errno => rfl

theorem filter_sendComp {m : CompMsg Id} (h : m.isCarried = false) (s : GroupThread Id) :
    (s.sendComp m).sent.filter p = s.sent.filter p :=
  filter_concat (hp.word m h) _

theorem filter_lexNote (s : GroupThread Id) : s.lexNote.filter p = [] := by
  unfold lexNote
  cases s.leader with
  | none => rfl
  | some l => exact filter_concat (hp.word _ rfl) []

theorem filter_leaderExited (s : GroupThread Id) : s.leaderExited.sent.filter p = s.sent.filter p := by
  rw [leaderExited_eq, List.filter_append, filter_lexNote hp, List.append_nil]

theorem filter_heartbeat (g : Member Id) (now : ℚ) (s : GroupThread Id) :
    (s.heartbeat g now).sent.filter p = s.sent.filter p := by
  unfold heartbeat
  split_ifs
  · exact filter_publish hp _ s
  · rfl

theorem filter_checkPoll (err : Option ℕ) (poll : Poll) (now : ℚ) (s : GroupThread Id) :
    (s.checkPoll err poll now).2.sent.filter p = s.sent.filter p := by
  rw [checkPoll_eq]
  split
  · exact filter_sendGroup hp err _ s
  · rfl

theorem filter_checkAllPolls (now : ℚ) (s : GroupThread Id) :
    (s.checkAllPolls now).sent.filter p = s.sent.filter p := by
  have loop : ∀ (items : List (String × Poll)) (acc : GroupThread Id × List String),
      (items.foldl (checkOne now) acc).1.sent.filter p = acc.1.sent.filter p := by
    intro items
    induction items with
    | nil => exact fun _ => rfl
    | cons i items ih => exact fun acc => (ih _).trans (filter_checkPoll hp none i.2 now acc.1)
  exact loop _ (s, [])

omit hp in
theorem filter_forward (g : GroupParams) (m : CompMsg Id) (s : GroupThread Id) :
    (s.forward g m).sent.filter p = s.sent.filter p ++ if g.isTimed then [] else [.comp m].filter p := by
  unfold forward
  split_ifs
  · exact (List.append_nil _).symm
  · exact List.filter_append ..

theorem filter_requestVote (g : GroupParams) (err : Option ℕ) (time : ℚ) (m : GroupVote) (member : Bytes)
    (s : GroupThread Id) : (s.requestVote g err time m member).sent.filter p = s.sent.filter p := by
  unfold requestVote
  cases m with
  | rfv rfv =>
    have hstart : (s.startPoll g time (.rfv rfv) member).2.sent.filter p = s.sent.filter p := by
      simp only [startPoll]
      split <;> split <;> rfl
    simp only
    split
    · exact (filter_sendGroup hp err _ _).trans hstart
    · exact (filter_sendGroup hp err _ _).trans hstart
  | rtc rtc => rfl
  | ann ann => rfl

theorem filter_updatePoll (err : Option ℕ) (time : ℚ) (m : GroupVote) (s : GroupThread Id) :
    (s.updatePoll err time m).sent.filter p = s.sent.filter p := by
  unfold updatePoll
  cases m with
  | rtc rtc =>
    simp only
    cases s.polls.get? rtc.rfvId with
    | none => rfl
    | some poll =>
      simp only
      split_ifs <;> exact filter_checkPoll hp err _ time (s.setPolls _)
  | rfv rfv => rfl
  | ann ann => rfl

theorem filter_toLeader (err : Option ℕ) (m : LeaderMsg) (s : GroupThread Id) :
    (s.toLeader err m).sent.filter p = s.sent.filter p := by
  unfold toLeader
  split
  · cases err with
    | none =>
      refine (filter_sendComp hp rfl _).trans ?_
      exact filter_concat (hp.qry _) _
    | some errno => rfl
  · exact filter_sendComp hp rfl s

theorem filter_startElection (g : Member Id) (e : Env g.toGroupParams) (s : GroupThread Id) :
    (s.startElection g e).sent.filter p = s.sent.filter p := by
  unfold startElection
  simp only
  split_ifs
  · exact filter_leaderExited hp _
  · exact (filter_publish hp _ _).trans (filter_leaderExited hp s)

theorem filter_winElection (g : Member Id) (e : Env g.toGroupParams) (s : GroupThread Id) :
    (s.winElection g e).sent.filter p = s.sent.filter p := by
  have hlel (t : GroupThread Id) : (t.sendComp (.lel g.ownId)).sent.filter p = t.sent.filter p :=
    filter_sendComp hp rfl t
  unfold winElection
  simp only
  split
  · exact hlel _
  · split
    · exact hlel _
    · exact (filter_publish hp _ _).trans (hlel _)

variable [DecidableEq Id]

theorem filter_setLeader (leader : Id) (s : GroupThread Id) : (s.setLeader leader).sent.filter p = s.sent.filter p := by
  unfold setLeader
  split_ifs
  · exact filter_sendComp hp rfl _
  · rfl

theorem filter_updatePeers (g : GroupParams) (now : ℚ) (s : GroupThread Id) :
    (s.updatePeers g now).sent.filter p = s.sent.filter p := by
  have loop (leavers : List Id) : ∀ s : GroupThread Id,
      (leavers.foldl dropPeer s).sent.filter p = s.sent.filter p := by
    induction leavers with
    | nil => exact fun _ => rfl
    | cons l leavers ih => exact fun s => (ih _).trans (filter_sendComp hp rfl s)
  unfold updatePeers
  simp only
  split_ifs
  · exact loop _ s
  · rfl

theorem filter_wake (g : Member Id) (now : ℚ) (s : GroupThread Id) : (s.wake g now).sent.filter p = s.sent.filter p :=
  (filter_updatePeers hp _ _ _).trans (filter_heartbeat hp g now s)

theorem filter_handleTimeout (g : Member Id) (e : Env g.toGroupParams) (s : GroupThread Id) :
    (s.handleTimeout g e).sent.filter p = s.sent.filter p := by
  have hsweep : (s.sweep g.toGroupParams e.now).sent.filter p = s.sent.filter p :=
    (filter_checkAllPolls hp _ _).trans (filter_updatePeers hp _ _ s)
  rw [handleTimeout_eq, ← hsweep]
  generalize s.sweep g.toGroupParams e.now = t
  cases s.state with
  | follower =>
    simp only [followerTimeout]
    split_ifs
    · exact filter_startElection hp g e t
    · rfl
    · rfl
  | candidate => exact filter_leaderExited hp { t with state := .follower, votedFor := none }
  | leader =>
    simp only [leaderTimeout]
    split
    · rfl
    · cases t.ldrPort with
      | none => rfl
      | some port =>
        simp only
        split
        · rfl
        · exact filter_publish hp _ t

theorem filter_followerReqvote (g : Member Id) (e : Env g.toGroupParams) (term : ℕ) (node : Id) (s : GroupThread Id) :
    (s.followerReqvote g e term node).sent.filter p = s.sent.filter p := by
  unfold followerReqvote
  simp only
  split <;> exact (filter_leaderExited hp _).trans (filter_publish hp _ s)

theorem filter_candidateReqvote (g : Member Id) (e : Env g.toGroupParams) (term : ℕ) (node : Id)
    (s : GroupThread Id) : (s.candidateReqvote g e term node).sent.filter p = s.sent.filter p := by
  unfold candidateReqvote
  simp only
  split_ifs
  · exact filter_publish hp _ s
  · rfl
  · exact (filter_leaderExited hp _).trans (filter_publish hp _ _)
  · rfl

theorem filter_candidateRspvote (g : Member Id) (e : Env g.toGroupParams) (cand : Id) (vote : Bool)
    (s : GroupThread Id) : (s.candidateRspvote g e cand vote).sent.filter p = s.sent.filter p := by
  unfold candidateRspvote
  simp only
  split_ifs
  · exact filter_winElection hp g e _
  · rfl
  · rfl

theorem filter_followerAuthority (g : Member Id) (e : Env g.toGroupParams) (term : ℕ) (leader : Id) (host port : ℕ)
    (s : GroupThread Id) : (s.followerAuthority g e term leader host port).sent.filter p = s.sent.filter p := by
  unfold followerAuthority
  simp only
  split_ifs <;> exact filter_setLeader hp leader _

theorem filter_leaderAuthority (g : Member Id) (e : Env g.toGroupParams) (term : ℕ) (leader : Id) (host port : ℕ)
    (s : GroupThread Id) : (s.leaderAuthority g e term leader host port).sent.filter p = s.sent.filter p := by
  unfold leaderAuthority
  split_ifs
  · exact filter_setLeader hp leader _
  · rfl

/-- Of the messages of the group, these are passed on, unless the group is timed. -/
theorem filter_handleNetMessage (g : Member Id) (e : Env g.toGroupParams) (m : GroupMsg Id) (s : GroupThread Id) :
    (s.handleNetMessage g e m).sent.filter p =
      s.sent.filter p ++ if g.isTimed then [] else (m.carried.map Sent.comp).toList.filter p := by
  have hnone {t : GroupThread Id} (ht : t.sent.filter p = s.sent.filter p) :
      t.sent.filter p = s.sent.filter p ++ if g.isTimed then [] else ([] : List (Sent Id)).filter p := by
    rw [ht, List.filter_nil, ite_self, List.append_nil]
  have hcarried {m : CompMsg Id} {t : GroupThread Id} (ht : t.sent = (s.forward g.toGroupParams m).sent) :
      t.sent.filter p = s.sent.filter p ++ if g.isTimed then [] else [Sent.comp m].filter p := by
    rw [ht, filter_forward]
  unfold handleNetMessage
  cases m with
  | msg payload =>
    refine hcarried (m := .msg payload) ?_
    simp only
    split_ifs <;> rfl
  | mlt leaver =>
    have hdrop : (if leaver ∈ s.peers then s.dropPeer leaver else s).countPeers.sent.filter p = s.sent.filter p := by
      split_ifs
      · exact filter_sendComp hp rfl s
      · rfl
    refine hnone ?_
    simp only
    split_ifs at hdrop ⊢ <;> exact hdrop
  | heartbeat peer =>
    refine hnone ?_
    simp only
    split_ifs
    · rfl
    · exact filter_sendComp hp rfl s
  | rcm m =>
    refine hcarried (m := .rcm m) ?_
    simp only
    split_ifs <;> rfl
  | ann m =>
    refine hcarried (m := .ann m) ?_
    simp only
    split_ifs <;> rfl
  | reqvote term node =>
    refine hnone ?_
    simp only
    cases hstate : s.state with
    | follower => exact filter_followerReqvote hp g e term node s
    | candidate => exact filter_candidateReqvote hp g e term node s
    | leader => rfl
  | rspvote term cand vote node =>
    refine hnone ?_
    simp only
    cases hstate : s.state with
    | follower => rfl
    | candidate => exact filter_candidateRspvote hp g e cand vote s
    | leader => rfl
  | authority term leader host port =>
    refine hnone ?_
    simp only
    cases hstate : s.state with
    | follower => exact filter_followerAuthority hp g e term leader host port s
    | candidate => exact filter_setLeader hp leader _
    | leader => exact filter_leaderAuthority hp g e term leader host port s

end Operations

/-! ### The mail of a call -/

variable [DecidableEq Id]

/-- The mail that a call sends: what came for the component, which a timed group fails to pass on, and what the
component sends to a member. -/
def mail (g : Member Id) (s : GroupThread Id) : Call Id g → List (Sent Id)
  | .comp _ _ (.mtl payload) =>
    if s.leader ≠ none ∧ s.isLeader g ∧ g.isTimed = false then [.comp (.mtl payload [])] else []
  | .comp _ err (.mfl payload identity) =>
    if s.leader = none then []
    else if identity = [] then (if g.isTimed then [] else [.comp (.mfl payload)])
    else if err = none then [.ans identity payload] else []
  | .forLeader _ _ identity (.mtl payload) => if g.isTimed then [] else [.comp (.mtl payload identity)]
  | .forMember _ payload => if g.isTimed then [] else [.comp (.mfl payload)]
  | _ => []

theorem mailOf_handleCompMessage (g : Member Id) (e : Env g.toGroupParams) (err : Option ℕ) (req : CompReq)
    (s : GroupThread Id) :
    mailOf (s.handleCompMessage g e err req).sent = mailOf s.sent ++ s.mail g (.comp e err req) := by
  have hword {m : CompMsg Id} (hm : m.isCarried = false) (t : GroupThread Id) :
      mailOf (t.sendComp m).sent = mailOf t.sent := filter_sendComp carried_isMail hm t
  have hack (t : GroupThread Id) : mailOf (t.sendComp .ack).sent = mailOf t.sent := hword rfl t
  have hforward (m : CompMsg Id) (t : GroupThread Id) :
      mailOf (t.forward g.toGroupParams m).sent = mailOf t.sent ++ if g.isTimed then [] else mailOf [.comp m] :=
    filter_forward _ m t
  have hleader (m : LeaderMsg) (t : GroupThread Id) : mailOf (t.toLeader err m).sent = mailOf t.sent :=
    filter_toLeader carried_isMail err m t
  unfold handleCompMessage mail
  cases req with
  | upd host port =>
    simp only
    split_ifs <;> exact (List.append_nil _).symm
  | msg payload =>
    cases err with
    | none => exact ((hack _).trans (filter_publish carried_isMail _ s)).trans (List.append_nil _).symm
    | some errno => exact (List.append_nil _).symm
  | mtl payload =>
    by_cases hl : s.leader = none
    · simpa [hl] using hword rfl s
    · by_cases hi : s.isLeader g
      · cases ht : g.isTimed <;> simp [hl, hi, ht, hforward, hack]
      · simp [hl, hi, hleader]
  | mfl payload identity =>
    by_cases hl : s.leader = none
    · simpa [hl] using hword rfl s
    · by_cases hi : identity = []
      · cases ht : g.isTimed <;> simp [hl, hi, ht, hforward, hack]
      · cases err with
        | none => simp [hl, hi, hack, sendAns, setIdentity]
        | some errno => simp [hl, hi, raise, setIdentity]
  | rfv m =>
    simp only [List.append_nil]
    split_ifs
    · exact hword rfl s
    · exact (filter_requestVote carried_isMail _ _ _ _ _ _).trans (hack s)
    · exact hleader _ s
  | rtc m =>
    simp only [List.append_nil]
    split_ifs
    · exact hword rfl s
    · exact (hack _).trans (filter_updatePoll carried_isMail err _ m s)
    · exact filter_updatePoll carried_isMail err _ m s
    · exact hleader _ s
  | mlt =>
    simp only [List.append_nil]
    split_ifs <;> exact filter_sendGroup carried_isMail err _ s

/-- **All the mail of a call.** -/
theorem mailOf_sends {g : Member Id} {s : GroupThread Id} (hs : s.exc = none) (c : Call Id g) :
    mailOf (s.sends g c) = s.mail g c := by
  have hcall : mailOf (call g s c).sent = mailOf s.sent ++ s.mail g c := by
    unfold call
    simp only [hs, ne_eq, not_true_eq_false, if_false]
    cases c with
    | wake e => exact (filter_wake carried_isMail g e.now s).trans (List.append_nil _).symm
    | timeout e => exact (filter_handleTimeout carried_isMail g e s).trans (List.append_nil _).symm
    | comp e err req => exact mailOf_handleCompMessage g e err req s
    | net e m => 
      refine (filter_handleNetMessage carried_isMail g e m s).trans (congrArg _ ?_)
      have hnone : (m.carried.map Sent.comp).toList.filter Sent.isMail = [] := by cases m <;> rfl
      rw [hnone, ite_self]
      rfl
    | forLeader e sender identity m =>
      unfold handleMessageForLeader mail
      cases m with
      | mtl payload =>
        exact filter_forward _ _ _
      | rfv m => exact (filter_requestVote carried_isMail _ _ _ _ _ _).trans (List.append_nil _).symm
      | rtc m => exact (filter_updatePoll carried_isMail _ _ _ _).trans (List.append_nil _).symm
    | forMember e payload =>
      exact filter_forward _ _ _
  rw [sent_call, mailOf_append] at hcall
  exact List.append_cancel_left hcall

/-- A thread that an exception has ended sends nothing. -/
theorem sends_of_exc {g : Member Id} {s : GroupThread Id} (hs : s.exc ≠ none) (c : Call Id g) : s.sends g c = [] := by
  rw [sends, call_of_exc hs, List.drop_length]

theorem mem_mail {g : Member Id} {s : GroupThread Id} {c : Call Id g} {x : Sent Id} (h : x ∈ s.sends g c)
    (hx : x.isMail) : x ∈ s.mail g c := by
  have hs : s.exc = none := by
    by_contra hs
    rw [sends_of_exc hs] at h
    cases h
  exact mailOf_sends hs c ▸ mem_mailOf.mpr ⟨h, hx⟩

/-- A message from the leader is for oneself, or has come from the leader. -/
theorem mfl_of_sends {g : Member Id} {s : GroupThread Id} {c : Call Id g} {payload : Bytes}
    (h : .comp (.mfl payload) ∈ s.sends g c) :
    (∃ e err, c = .comp e err (.mfl payload []) ∧ s.leader ≠ none) ∨ ∃ e, c = .forMember e payload := by
  have hmail := mem_mail h rfl
  unfold mail at hmail
  split at hmail
  · split_ifs at hmail <;> simp at hmail
  · split_ifs at hmail with hl hi <;> simp at hmail
    subst hi hmail
    exact .inl ⟨_, _, rfl, hl⟩
  · split_ifs at hmail <;> simp at hmail
  · split_ifs at hmail <;> simp at hmail
    subst hmail
    exact .inr ⟨_, rfl⟩
  · cases hmail

/-- A message to the leader is from oneself, with an empty identity, or has come from a member. -/
theorem mtl_of_sends {g : Member Id} {s : GroupThread Id} {c : Call Id g} {payload identity : Bytes}
    (h : .comp (.mtl payload identity) ∈ s.sends g c) :
    (∃ e err, c = .comp e err (.mtl payload)) ∨ ∃ e sender, c = .forLeader e sender identity (.mtl payload) := by
  have hmail := mem_mail h rfl
  unfold mail at hmail
  split at hmail
  · split_ifs at hmail <;> simp at hmail
    obtain ⟨rfl, -⟩ := hmail
    exact .inl ⟨_, _, rfl⟩
  · split_ifs at hmail <;> simp at hmail
  · split_ifs at hmail <;> simp at hmail
    obtain ⟨rfl, rfl⟩ := hmail
    exact .inr ⟨_, _, rfl⟩
  · split_ifs at hmail <;> simp at hmail
  · cases hmail

/-- What goes through the answer port is what the component posted for a member. -/
theorem ans_of_sends {g : Member Id} {s : GroupThread Id} {c : Call Id g} {payload identity : Bytes}
    (h : .ans identity payload ∈ s.sends g c) :
    ∃ e err, c = .comp e err (.mfl payload identity) ∧ s.leader ≠ none := by
  have hmail := mem_mail h rfl
  unfold mail at hmail
  split at hmail
  · split_ifs at hmail <;> simp at hmail
  · split_ifs at hmail with hl <;> simp at hmail
    obtain ⟨rfl, rfl⟩ := hmail
    exact ⟨_, _, rfl, hl⟩
  · split_ifs at hmail <;> simp at hmail
  · split_ifs at hmail <;> simp at hmail
  · cases hmail

end GroupThread

end Riaps.Coordination
