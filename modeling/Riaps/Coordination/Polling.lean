import Riaps.Coordination.Elections

/-!
# What a call does to the polls

The polls of a thread and what it has published about them form its `Board`.
Whatever the call, one of four things happens to the board (`board_call`): no
more than nothing, a sweep for polls that are settled, a request for a vote, or
a vote. `pollEvent` says which.

A board is to be in use in the leader only, and it is, unless one of three
things happens: a leader steps down while polls are open, a request comes in on
the answer socket of a member that does not lead, or the component of such a
member asks for a vote while the member takes itself for the leader
(`leaderPolls_run_iff`).
-/

namespace Riaps.Coordination

open Riaps.Foundation

universe u

variable {Id : Type u}

/-! ### Boards -/

/-- A publication about a poll: `RCM` or `ANN`. -/
def Sent.isPoll : Sent Id → Bool
  | .pub _ (.rcm _) | .pub _ (.ann _) => true
  | _ => false

/-- The publications about polls, of all that was sent. -/
def pollNotes (l : List (Sent Id)) : List (Sent Id) := l.filter Sent.isPoll

/-- The open polls, and the publications about polls. -/
@[ext] structure Board (Id : Type u) where
  polls : Dict String Poll
  notes : List (Sent Id)

/-- The board of a thread. -/
def GroupThread.board (s : GroupThread Id) : Board Id := ⟨s.polls, pollNotes s.sent⟩

@[simp] theorem pollNotes_append (l k : List (Sent Id)) : pollNotes (l ++ k) = pollNotes l ++ pollNotes k :=
  List.filter_append l k

/-- The request comes too late to start a poll. -/
def ReqForVote.late (g : GroupParams) (time : ℚ) (rfv : ReqForVote) : Bool :=
  (if rfv.timeout = 0 then (g.groupConsensusTimeout : ℚ) else rfv.timeout) < time - rfv.started

/-- The poll that a request starts. -/
def ReqForVote.poll (g : GroupParams) (time : ℚ) (member : Bytes) (numPeers : ℕ) (rfv : ReqForVote) : Poll :=
  let timeout := if rfv.timeout = 0 then (g.groupConsensusTimeout : ℚ) else rfv.timeout
  Poll.init rfv member timeout (rfv.started + timeout - (time - rfv.started)) numPeers

namespace Board

/-- A check of all polls, by a member in state `st`. -/
def sweep (st : MemberState) (now : ℚ) (b : Board Id) : Board Id where
  polls := b.polls.delAll (GroupThread.settledKeys now b.polls.items)
  notes := b.notes ++ GroupThread.settledNotes st now b.polls.items

/-- A request for a vote. It is published, or its failure is, when the send does not fail. -/
def request (g : GroupParams) (st : MemberState) (numPeers : ℕ) (err : Option ℕ) (time : ℚ) (rfv : ReqForVote)
    (member : Bytes) (b : Board Id) : Board Id :=
  if rfv.late g time then
    ⟨b.polls, b.notes ++ if err = none then [GroupThread.announcement st rfv.rfvId .timeout] else []⟩
  else
    ⟨b.polls.set rfv.rfvId (rfv.poll g time member numPeers),
      b.notes ++ if err = none then [.pub st (.rcm (.rfv rfv))] else []⟩

/-- A vote. When it settles the poll, the poll is announced and goes, if the send does not fail. -/
def vote (st : MemberState) (err : Option ℕ) (time : ℚ) (rtc : RepToVote) (b : Board Id) : Board Id :=
  match b.polls.get? rtc.rfvId with
  | none => b
  | some poll =>
    let counted := poll.vote (rtc.vote = .yes)
    match counted.settle time, err with
    | some outcome, none =>
      ⟨(b.polls.set rtc.rfvId counted).del rtc.rfvId,
        b.notes ++ [GroupThread.announcement st counted.rfvId outcome]⟩
    | _, _ => ⟨b.polls.set rtc.rfvId counted, b.notes⟩

end Board

/-- What can happen to the board in one call. -/
inductive PollEvent where
  /-- Nothing. -/
  | idle
  /-- All polls are checked. -/
  | sweep (now : ℚ)
  /-- A poll is asked for. -/
  | request (err : Option ℕ) (time : ℚ) (rfv : ReqForVote) (member : Bytes)
  /-- A vote comes in. -/
  | vote (err : Option ℕ) (time : ℚ) (rtc : RepToVote)

/-- What an event does to a board of a member in state `st` that knows of `numPeers` peers. -/
def PollEvent.apply (g : GroupParams) (st : MemberState) (numPeers : ℕ) : PollEvent → Board Id → Board Id
  | idle, b => b
  | sweep now, b => b.sweep st now
  | request err time rfv member, b => b.request g st numPeers err time rfv member
  | vote err time rtc, b => b.vote st err time rtc

/-- What is added to the board is published in the state the member is in. -/
theorem PollEvent.notes_apply (g : GroupParams) (st : MemberState) (numPeers : ℕ) (ev : PollEvent) (b : Board Id) :
    ∃ l, (ev.apply g st numPeers b).notes = b.notes ++ l ∧ ∀ st' m, .pub st' m ∈ l → st' = st := by
  cases ev with
  | idle => exact ⟨[], (List.append_nil _).symm, by simp⟩
  | sweep now =>
    refine ⟨_, rfl, fun st' m hm => ?_⟩
    obtain ⟨i, -, hi⟩ := List.mem_filterMap.mp hm
    obtain ⟨vote, -, hvote⟩ := Option.map_eq_some_iff.mp hi
    cases hvote
    rfl
  | request err time rfv member =>
    simp only [PollEvent.apply, Board.request]
    split
    · refine ⟨_, rfl, fun st' m hm => ?_⟩
      cases err <;> simp_all [GroupThread.announcement]
    · refine ⟨_, rfl, fun st' m hm => ?_⟩
      cases err <;> simp_all
  | vote err time rtc =>
    simp only [PollEvent.apply, Board.vote]
    cases b.polls.get? rtc.rfvId with
    | none => exact ⟨[], (List.append_nil _).symm, by simp⟩
    | some poll =>
      simp only
      generalize poll.vote _ = counted
      split
      · exact ⟨_, rfl, by simp [GroupThread.announcement]⟩
      · exact ⟨[], (List.append_nil _).symm, by simp⟩

/-- Without polls a check of all polls does nothing. -/
theorem Board.sweep_of_empty (st : MemberState) (now : ℚ) {b : Board Id} (h : b.polls = Dict.empty) :
    b.sweep st now = b := by
  ext1
  · simp [Board.sweep, h]
  · simp [Board.sweep, h, GroupThread.settledNotes, Dict.empty]

/-- Without polls a vote does nothing. -/
theorem Board.vote_of_empty (st : MemberState) (err : Option ℕ) (time : ℚ) (rtc : RepToVote) {b : Board Id}
    (h : b.polls = Dict.empty) : b.vote st err time rtc = b := by
  simp [Board.vote, h]

/-- A request of which anything comes either starts a poll or publishes that it is late. -/
theorem Board.request_of_empty_iff (g : GroupParams) {st : MemberState} (hst : st ≠ .leader) (numPeers : ℕ)
    (err : Option ℕ)
    (time : ℚ) (rfv : ReqForVote) (member : Bytes) {b : Board Id} (h : b.polls = Dict.empty)
    (hnotes : ∀ st m, .pub st m ∈ b.notes → st = .leader) :
    ((b.request g st numPeers err time rfv member).polls = Dict.empty ∧
        ∀ st' m, .pub st' m ∈ (b.request g st numPeers err time rfv member).notes → st' = .leader) ↔
      ¬ (err = none ∨ rfv.late g time = false) := by
  unfold Board.request
  cases hlate : rfv.late g time with
  | false =>
    have hne : b.polls.set rfv.rfvId (rfv.poll g time member numPeers) ≠ Dict.empty := fun he => by
      have hget := Dict.get?_set_self b.polls rfv.rfvId (rfv.poll g time member numPeers)
      rw [he] at hget
      cases hget
    simp [hne]
  | true =>
    cases err with
    | none =>
      simp only [h, true_and, true_or, not_true_eq_false, iff_false, if_true]
      intro hall
      exact hst (hall st (.ann (.ann ⟨rfv.rfvId, .timeout⟩)) (by simp [GroupThread.announcement]))
    | some errno => simpa [h] using hnotes

namespace GroupThread

/-! ### Operations on the board -/

theorem board_of_sent {s s' : GroupThread Id} (l : List (Sent Id)) (hp : s'.polls = s.polls)
    (hs : s'.sent = s.sent ++ l) (hl : pollNotes l = []) : s'.board = s.board := by
  rw [board, board, hp, hs, pollNotes_append, hl, List.append_nil]

theorem startPoll_eq (g : GroupParams) (time : ℚ) (rfv : ReqForVote) (member : Bytes) (s : GroupThread Id) :
    s.startPoll g time (.rfv rfv) member =
      if rfv.late g time then (false, s)
      else (true, s.setPolls (s.polls.set rfv.rfvId (rfv.poll g time member s.numPeers))) := by
  simp only [startPoll, ReqForVote.late, decide_eq_true_eq]
  rfl

theorem board_checkAllPolls (now : ℚ) (s : GroupThread Id) :
    (s.checkAllPolls now).board = s.board.sweep s.state now := by
  have hnotes : pollNotes (settledNotes s.state now s.polls.items : List (Sent Id)) =
      settledNotes s.state now s.polls.items := by
    refine List.filter_eq_self.mpr fun m hm => ?_
    obtain ⟨i, -, hi⟩ := List.mem_filterMap.mp hm
    obtain ⟨vote, -, rfl⟩ := Option.map_eq_some_iff.mp hi
    rfl
  rw [checkAllPolls_eq, board, pollNotes_append, hnotes]
  rfl

theorem board_requestVote (g : GroupParams) (err : Option ℕ) (time : ℚ) (rfv : ReqForVote) (member : Bytes)
    (s : GroupThread Id) :
    (s.requestVote g err time (.rfv rfv) member).board =
      s.board.request g s.state s.numPeers err time rfv member := by
  unfold requestVote Board.request
  rw [startPoll_eq]
  cases rfv.late g time <;> cases err <;>
    simp [setPolls, announceConsensus, sendGroup, publish, raise, board, announcement, pollNotes, Sent.isPoll]

theorem board_updatePoll (err : Option ℕ) (time : ℚ) (rtc : RepToVote) {s : GroupThread Id} (hs : s.exc = none) :
    (s.updatePoll err time (.rtc rtc)).board = s.board.vote s.state err time rtc := by
  unfold Board.vote
  cases hpoll : s.polls.get? rtc.rfvId with
  | none =>
    rw [updatePoll_of_not_mem err time (Dict.get?_eq_none_iff.mp hpoll)]
    simp only [board, hpoll]
  | some poll =>
    simp only [board, hpoll, updatePoll, checkPoll_eq]
    generalize poll.vote _ = counted
    cases counted.settle time with
    | none => simp [setPolls]
    | some outcome =>
      cases err <;>
        simp [announceConsensus, sendGroup, publish, raise, setPolls, announcement, hs, pollNotes, Sent.isPoll]


@[simp] theorem pollNotes_lexNote (s : GroupThread Id) : pollNotes s.lexNote = [] := by
  unfold lexNote
  cases s.leader <;> rfl

theorem board_forward (g : GroupParams) (m : CompMsg Id) (s : GroupThread Id) :
    (s.forward g m).board = s.board := by
  unfold forward
  split
  · rfl
  · exact board_of_sent [.comp m] rfl rfl rfl

theorem board_toLeader (err : Option ℕ) (m : LeaderMsg) (s : GroupThread Id) : (s.toLeader err m).board = s.board := by
  unfold toLeader
  split
  · cases err with
    | none => exact board_of_sent [.qry m, .comp .ack] rfl (by simp [sendQry, sendComp]) rfl
    | some errno => rfl
  · exact board_of_sent [.comp .ack] rfl rfl rfl

theorem board_sendComp (m : CompMsg Id) (s : GroupThread Id) : (s.sendComp m).board = s.board :=
  board_of_sent [.comp m] rfl rfl rfl

/-- What is done for a request of the own component changes the board only in the leader. -/
theorem board_serve [DecidableEq Id] (g : Member Id) (err : Option ℕ) (m : LeaderMsg) (s t : GroupThread Id) :
    (if s.leader = none then s.sendComp .nld else if s.isLeader g then t else s.toLeader err m).board =
      if s.isLeader g then t.board else s.board := by
  by_cases hl : s.isLeader g
  · have hsome : s.leader ≠ none := by
      intro h
      simp [isLeader, h] at hl
    rw [if_neg hsome, if_pos hl, if_pos hl]
  · rw [if_neg hl, if_neg hl]
    split
    · exact board_sendComp _ s
    · exact board_toLeader err m s

theorem board_heartbeat (g : Member Id) (now : ℚ) (s : GroupThread Id) : (s.heartbeat g now).board = s.board := by
  unfold heartbeat
  split
  · exact board_of_sent [.pub s.state (.heartbeat g.ownId)] rfl rfl rfl
  · rfl

theorem board_startElection (g : Member Id) (e : Env g.toGroupParams) (s : GroupThread Id) :
    (s.startElection g e).board = s.board := by
  unfold startElection
  simp only [leaderExited_eq, qryUpdate]
  split
  · exact board_of_sent s.lexNote rfl rfl (pollNotes_lexNote s)
  · exact board_of_sent (s.lexNote ++ [.pub .candidate (.reqvote (s.term + 1) g.ownId)]) rfl
      (by simp [publish, setTimeout]) (by rw [pollNotes_append, pollNotes_lexNote]; rfl)

theorem board_candidateTimeout (g : Member Id) (e : Env g.toGroupParams) (s : GroupThread Id) :
    (s.candidateTimeout g e).board = s.board := by
  unfold candidateTimeout
  simp only [leaderExited_eq]
  exact board_of_sent s.lexNote rfl rfl (pollNotes_lexNote s)

theorem board_winElection (g : Member Id) (e : Env g.toGroupParams) (s : GroupThread Id) :
    (s.winElection g e).board = s.board := by
  unfold winElection
  cases hp : s.ansPort.portNum with
  | some p =>
    simp only [sendComp, hp]
    exact board_of_sent [.comp (.lel g.ownId)] rfl (by simp [raise]) rfl
  | none =>
    simp only [sendComp, hp]
    by_cases h32 : 2 ^ 32 ≤ s.term
    · simp only [h32, if_true]
      exact board_of_sent [.comp (.lel g.ownId)] rfl (by simp [raise]) rfl
    · simp only [h32, if_false]
      exact board_of_sent [.comp (.lel g.ownId), .pub .leader (.authority s.term g.ownId g.host e.freePort)] rfl
        (by simp [publish, setTimeout]) rfl

theorem board_followerTimeout (g : Member Id) (e : Env g.toGroupParams) (s : GroupThread Id) :
    (s.followerTimeout g e).board = s.board := by
  unfold followerTimeout
  split
  · split
    · exact board_startElection g e s
    · rfl
  · rfl

variable [DecidableEq Id]

@[simp] theorem pollNotes_lelNote (leader : Id) (s : GroupThread Id) : pollNotes (s.lelNote leader) = [] := by
  unfold lelNote
  split <;> rfl

theorem board_updatePeers (g : GroupParams) (now : ℚ) (s : GroupThread Id) :
    (s.updatePeers g now).board = s.board := by
  have loop : ∀ (leavers : List Id) (s : GroupThread Id), (leavers.foldl dropPeer s).board = s.board := by
    intro leavers
    induction leavers with
    | nil => exact fun _ => rfl
    | cons l leavers ih => exact fun s => (ih _).trans (board_of_sent [.comp (.mlt l)] rfl rfl rfl)
  unfold updatePeers
  simp only
  split
  · exact loop _ s
  · rfl

theorem board_sweep (g : GroupParams) (now : ℚ) (s : GroupThread Id) :
    (s.sweep g now).board = s.board.sweep s.state now := by
  have hstate : (s.updatePeers g now).state = s.state := congrArg Seat.state (quiet_updatePeers g now s).seat
  rw [sweep, board_checkAllPolls, board_updatePeers, hstate]

theorem board_leaderTimeout (g : Member Id) (e : Env g.toGroupParams) (s : GroupThread Id) :
    (s.leaderTimeout g e).board = s.board := by
  unfold leaderTimeout
  split
  · rfl
  · cases s.ldrPort with
    | none => rfl
    | some port =>
      simp only
      split
      · rfl
      · exact board_of_sent [.pub s.state (.authority s.term g.ownId g.host port)] rfl rfl rfl

theorem board_handleTimeout (g : Member Id) (e : Env g.toGroupParams) (s : GroupThread Id) :
    (s.handleTimeout g e).board = s.board.sweep s.state e.now := by
  rw [handleTimeout_eq, ← board_sweep g.toGroupParams]
  cases s.state with
  | follower => exact board_followerTimeout g e _
  | candidate => exact board_candidateTimeout g e _
  | leader => exact board_leaderTimeout g e _

theorem board_followerReqvote (g : Member Id) (e : Env g.toGroupParams) (term : ℕ) (node : Id) (s : GroupThread Id) :
    (s.followerReqvote g e term node).board = s.board := by
  unfold followerReqvote
  generalize grantsVote s.votedFor s.term term node = vote
  simp only [leaderExited_eq]
  refine board_of_sent (.pub s.state (.rspvote term node vote g.ownId) :: s.lexNote) ?_ ?_ ?_
  · cases vote <;> rfl
  · cases vote <;> simp [publish, qryUpdate, setTimeout, lexNote]
  · rw [← List.singleton_append, pollNotes_append, pollNotes_lexNote]
    rfl

theorem board_candidateReqvote (g : Member Id) (e : Env g.toGroupParams) (term : ℕ) (node : Id) (s : GroupThread Id) :
    (s.candidateReqvote g e term node).board = s.board := by
  unfold candidateReqvote
  split
  · split
    · exact board_of_sent [.pub s.state (.rspvote term node false g.ownId)] rfl rfl rfl
    · rfl
  · split
    · simp only [leaderExited_eq]
      exact board_of_sent (.pub .follower (.rspvote term node true g.ownId) :: s.lexNote) rfl
        (by simp [publish, qryUpdate, setTimeout, lexNote])
        (by rw [← List.singleton_append, pollNotes_append, pollNotes_lexNote]; rfl)
    · rfl

theorem board_candidateRspvote (g : Member Id) (e : Env g.toGroupParams) (cand : Id) (vote : Bool)
    (s : GroupThread Id) : (s.candidateRspvote g e cand vote).board = s.board := by
  unfold candidateRspvote
  split
  · simp only
    split
    · exact board_winElection g e _
    · rfl
  · rfl

theorem board_acceptLeader (term : ℕ) (leader : Id) (host : Option String) (port : Option ℕ) (s : GroupThread Id) :
    (s.acceptLeader term leader host port).board = s.board := by
  unfold acceptLeader
  simp only [setLeader_eq]
  exact board_of_sent (s.lelNote leader) rfl rfl (pollNotes_lelNote leader s)

theorem board_followerAuthority (g : Member Id) (e : Env g.toGroupParams) (term : ℕ) (leader : Id) (host port : ℕ)
    (s : GroupThread Id) : (s.followerAuthority g e term leader host port).board = s.board := by
  unfold followerAuthority
  simp only [setLeader_eq]
  split <;> exact board_of_sent (s.lelNote leader) rfl rfl (pollNotes_lelNote leader s)

theorem board_leaderAuthority (g : Member Id) (e : Env g.toGroupParams) (term : ℕ) (leader : Id) (host port : ℕ)
    (s : GroupThread Id) : (s.leaderAuthority g e term leader host port).board = s.board := by
  unfold leaderAuthority
  split
  · exact board_acceptLeader term leader (some (compressed host)) (some port) s
  · rfl

/-! ### Calls -/

/-- What a call does to the board. -/
def pollEvent (g : Member Id) (s : GroupThread Id) (c : Call Id g) : PollEvent :=
  if s.exc ≠ none then .idle
  else
    match c with
    | .timeout e => .sweep e.now
    | .comp e err (.rfv (.rfv rfv)) => if s.isLeader g then .request err e.time rfv [] else .idle
    | .comp e err (.rtc (.rtc rtc)) => if s.isLeader g then .vote err e.time rtc else .idle
    | .forLeader e _ identity (.rfv (.rfv rfv)) => .request none e.time rfv identity
    | .forLeader e _ _ (.rtc (.rtc rtc)) => .vote none e.time rtc
    | _ => .idle

/-- What the component's request does to the board. -/
theorem board_handleCompMessage (g : Member Id) (e : Env g.toGroupParams) (err : Option ℕ) (req : CompReq)
    {s : GroupThread Id} (hs : s.exc = none) :
    (s.handleCompMessage g e err req).board =
      PollEvent.apply g.toGroupParams s.state s.numPeers
        (match req with
          | .rfv (.rfv rfv) => if s.isLeader g then .request err e.time rfv [] else .idle
          | .rtc (.rtc rtc) => if s.isLeader g then .vote err e.time rtc else .idle
          | _ => .idle)
        s.board := by
  unfold handleCompMessage
  cases req with
  | upd host port =>
    simp only
    split <;> rfl
  | msg payload =>
    cases err with
    | none => exact board_of_sent [.pub s.state (.msg payload), .comp .ack] rfl (by simp [publish, sendComp]) rfl
    | some errno => rfl
  | mtl payload =>
    refine (board_serve g err _ s _).trans ?_
    rw [board_forward, board_sendComp, ite_self]
    rfl
  | mfl payload identity =>
    simp only
    split
    · exact board_sendComp _ s
    · split
      · exact (board_forward _ _ _).trans (board_sendComp _ s)
      · cases err with
        | none =>
          exact board_of_sent [.ans identity payload, .comp .ack] rfl (by simp [setIdentity, sendAns, sendComp]) rfl
        | some errno => rfl
  | mlt =>
    cases err with
    | none => exact (congrArg board (if_pos hs)).trans (board_of_sent [.pub s.state (.mlt g.ownId)] rfl rfl rfl)
    | some errno =>
      simp only [sendGroup, raise, reduceCtorEq, if_false]
      rfl
  | rfv m =>
    refine (board_serve g err _ s _).trans ?_
    cases m with
    | rfv rfv =>
      rw [board_requestVote, board_sendComp]
      by_cases hl : s.isLeader g
      · simp only [hl, if_true]
        rfl
      · simp only [hl]
        rfl
    | _ => exact (ite_congr rfl (fun _ => board_sendComp _ s) fun _ => rfl).trans (ite_self _)
  | rtc m =>
    refine (board_serve g err _ s _).trans ?_
    have hupdate : (if (s.updatePoll err e.time m).exc = none then (s.updatePoll err e.time m).sendComp .ack
        else s.updatePoll err e.time m).board = (s.updatePoll err e.time m).board := by
      split
      · exact board_sendComp _ _
      · rfl
    rw [hupdate]
    cases m with
    | rtc rtc =>
      rw [board_updatePoll err e.time rtc hs]
      by_cases hl : s.isLeader g
      · simp only [hl, if_true]
        rfl
      · simp only [hl]
        rfl
    | _ => exact ite_self _

theorem board_handleNetMessage (g : Member Id) (e : Env g.toGroupParams) (m : GroupMsg Id) (s : GroupThread Id) :
    (s.handleNetMessage g e m).board = s.board := by
  unfold handleNetMessage
  cases m with
  | msg payload =>
    simp only
    split
    · exact board_forward _ _ s
    · exact board_forward _ _ s
  | mlt leaver =>
    have h : (if leaver ∈ s.peers then s.dropPeer leaver else s).board = s.board := by
      split
      · exact board_of_sent [.comp (.mlt leaver)] rfl rfl rfl
      · rfl
    simp only
    generalize (if leaver ∈ s.peers then s.dropPeer leaver else s) = t at h ⊢
    split
    · exact h
    · exact h
  | heartbeat peer =>
    have h : (if peer ∈ s.peers then s else s.sendComp (.mjd peer)).board = s.board := by
      split
      · rfl
      · exact board_sendComp _ s
    simp only
    generalize (if peer ∈ s.peers then s else s.sendComp (.mjd peer)) = t at h ⊢
    exact h
  | rcm m =>
    simp only
    split
    · exact board_forward _ _ s
    · exact board_forward _ _ s
  | ann m =>
    simp only
    split
    · exact board_forward _ _ s
    · exact board_forward _ _ s
  | reqvote term node =>
    cases hst : s.state with
    | follower => exact board_followerReqvote g e term node s
    | candidate => exact board_candidateReqvote g e term node s
    | leader => rfl
  | rspvote term cand vote node =>
    cases hst : s.state with
    | follower => rfl
    | candidate => exact board_candidateRspvote g e cand vote s
    | leader => rfl
  | authority term leader host port =>
    cases hst : s.state with
    | follower => exact board_followerAuthority g e term leader host port s
    | candidate => exact board_acceptLeader term leader (some (compressed host)) (some port) s
    | leader => exact board_leaderAuthority g e term leader host port s

/-- **A call does to the board what `pollEvent` says.** -/
theorem board_call (g : Member Id) (s : GroupThread Id) (c : Call Id g) :
    (call g s c).board = (s.pollEvent g c).apply g.toGroupParams s.state s.numPeers s.board := by
  unfold call pollEvent
  by_cases hs : s.exc = none
  swap
  · simp only [if_pos hs]
    rfl
  · simp only [if_neg (not_not.mpr hs)]
    cases c with
    | wake e => exact (board_updatePeers _ _ _).trans (board_heartbeat g e.now s)
    | timeout e => exact board_handleTimeout g e s
    | net e m => exact board_handleNetMessage g e m s
    | forMember e payload => exact board_forward _ _ s
    | forLeader e sender identity m =>
      cases m with
      | mtl payload => exact board_forward _ _ _
      | rfv m =>
        cases m with
        | rfv rfv => exact board_requestVote _ none e.time rfv identity (s.setIdentity identity)
        | _ => rfl
      | rtc m =>
        cases m with
        | rtc rtc => exact board_updatePoll none e.time rtc (s := s.setIdentity identity) hs
        | _ => rfl
    | comp e err req =>
      rw [board_handleCompMessage g e err req hs]
      cases req with
      | rfv m => cases m <;> rfl
      | rtc m => cases m <;> rfl
      | _ => rfl

/-! ### Polls in the leader only -/

/-- There are polls in the leader only, and `RCM` and `ANN` are published by the leader only. -/
def LeaderPolls (s : GroupThread Id) : Prop :=
  (s.polls ≠ Dict.empty → s.state = .leader) ∧
    ∀ st m, .pub st (.rcm m) ∈ s.sent ∨ .pub st (.ann m) ∈ s.sent → st = .leader

/-- The calls that break this: a leader with polls steps down in a conflict; a member that
does not lead gets a request for a vote on its answer socket; or its component asks for a
vote while it takes itself for the leader, and either in time or without a failure of the
socket. -/
def Misplaced (g : Member Id) (s : GroupThread Id) : Call Id g → Prop
  | .net _ (.authority term leader _ _) =>
    s.polls ≠ Dict.empty ∧ s.state = .leader ∧ s.term = term ∧ g.ownId ≠ leader
  | .forLeader _ _ _ (.rfv (.rfv _)) => s.state ≠ .leader
  | .comp e err (.rfv (.rfv rfv)) =>
    s.state ≠ .leader ∧ s.isLeader g ∧ (err = none ∨ rfv.late g.toGroupParams e.time = false)
  | _ => False

omit [DecidableEq Id] in
/-- The same in terms of the board. -/
theorem leaderPolls_iff {s : GroupThread Id} :
    LeaderPolls s ↔
      (s.board.polls ≠ Dict.empty → s.state = .leader) ∧ ∀ st m, .pub st m ∈ s.board.notes → st = .leader := by
  refine and_congr Iff.rfl ⟨fun h st m hm => ?_, fun h st m hm => ?_⟩
  · obtain ⟨hm, hpoll⟩ := List.mem_filter.mp hm
    cases m with
    | rcm m => exact h st m (.inl hm)
    | ann m => exact h st m (.inr hm)
    | _ => cases hpoll
  · rcases hm with hm | hm
    · exact h st (.rcm m) (List.mem_filter.mpr ⟨hm, rfl⟩)
    · exact h st (.ann m) (List.mem_filter.mpr ⟨hm, rfl⟩)

/-- A leader leads on, unless it hears of another one of its term. -/
theorem leader_call_iff {g : Member Id} {s : GroupThread Id} {c : Call Id g} (hs : s.exc = none)
    (hst : s.state = .leader) :
    (call g s c).state = .leader ↔
      ¬ ∃ e term leader host port,
        c = .net e (.authority term leader host port) ∧ s.term = term ∧ g.ownId ≠ leader := by
  have hseat : (call g s c).state = ((s.event g c).apply g s.seat).state := congrArg Seat.state (seat_call g s c)
  have hg := guard_event g s c
  rw [hseat]
  constructor
  · rintro hlead ⟨e, term, leader, host, port, rfl, hconflict⟩
    obtain ⟨server, hev⟩ := event_authority e host port hs fun _ => hconflict
    rw [hev] at hlead
    cases hlead
  · intro hno
    cases hev : s.event g c with
    | accept term leader server deadline =>
      rw [hev] at hg
      obtain ⟨hl, e, host, port, rfl, -⟩ := hg
      exact absurd ⟨e, term, leader, host, port, rfl, hl hst⟩ hno
    | candidacy => cases (hev ▸ hg).1.symm.trans hst
    | candidacyFails => cases (hev ▸ hg).1.symm.trans hst
    | giveUp => cases (hev ▸ hg).1.symm.trans hst
    | defer term node => cases (hev ▸ hg).1.symm.trans hst
    | win port => rfl
    | winFails port => rfl
    | _ => exact hst

/-- Requests come from the component of a member that takes itself for the leader, and on
the answer socket. -/
theorem pollEvent_eq_request {g : Member Id} {s : GroupThread Id} {c : Call Id g} {err : Option ℕ} {time : ℚ}
    {rfv : ReqForVote} {member : Bytes} (h : s.pollEvent g c = .request err time rfv member) :
    s.exc = none ∧
      ((∃ e, c = .comp e err (.rfv (.rfv rfv)) ∧ e.time = time ∧ s.isLeader g) ∨
        err = none ∧ ∃ e sender, c = .forLeader e sender member (.rfv (.rfv rfv)) ∧ e.time = time) := by
  unfold pollEvent at h
  split at h
  · cases h
  · next hs =>
    refine ⟨not_not.mp hs, ?_⟩
    split at h
    · cases h
    · next e err rfv =>
      split at h
      · next hl =>
        cases h
        exact .inl ⟨e, rfl, rfl, hl⟩
      · cases h
    · split at h <;> cases h
    · next e sender identity rfv =>
      cases h
      exact .inr ⟨rfl, e, sender, rfl, rfl⟩
    · cases h
    · cases h

/-- A call that is misplaced in a leader is one of another leader of its term. -/
theorem Misplaced.conflict {g : Member Id} {s : GroupThread Id} {c : Call Id g} (h : Misplaced g s c)
    (hst : s.state = .leader) :
    s.polls ≠ Dict.empty ∧
      ∃ e term leader host port, c = .net e (.authority term leader host port) ∧ s.term = term ∧ g.ownId ≠ leader := by
  unfold Misplaced at h
  split at h
  · next e term leader host port => exact ⟨h.1, e, term, leader, host, port, rfl, h.2.2⟩
  · exact absurd hst h
  · exact absurd hst h.1
  · exact h.elim

/-- A call that is misplaced in a member that does not lead is a request. -/
theorem Misplaced.request {g : Member Id} {s : GroupThread Id} {c : Call Id g} (h : Misplaced g s c)
    (hs : s.exc = none) (hst : s.state ≠ .leader) :
    ∃ err time rfv member, s.pollEvent g c = .request err time rfv member ∧
      (err = none ∨ rfv.late g.toGroupParams time = false) := by
  unfold Misplaced at h
  split at h
  · exact absurd h.2.1 hst
  · next e sender identity rfv => exact ⟨none, e.time, rfv, identity, by simp [pollEvent, hs], .inl rfl⟩
  · next e err rfv => exact ⟨err, e.time, rfv, [], by simp [pollEvent, hs, h.2.1], h.2.2⟩
  · exact h.elim

/-- **One call**: polls stay in the leader only, exactly if the call is not misplaced. -/
theorem leaderPolls_call_iff {g : Member Id} {s : GroupThread Id} {c : Call Id g} (h : LeaderPolls s) :
    LeaderPolls (call g s c) ↔ (s.exc = none → ¬ Misplaced g s c) := by
  by_cases hs : s.exc = none
  swap
  · rw [call_of_exc hs]
    exact iff_of_true h fun hnone => absurd hnone hs
  rw [leaderPolls_iff] at h
  rw [leaderPolls_iff, board_call, forall_prop_of_true hs]
  obtain ⟨hpolls, hnotes⟩ := h
  by_cases hst : s.state = .leader
  · -- all that a leader adds is in its place; only its stepping down is not
    have hadd : ∀ st m, .pub st m ∈ ((s.pollEvent g c).apply g.toGroupParams s.state s.numPeers s.board).notes →
        st = .leader := by
      intro st m hm
      obtain ⟨l, hl, hall⟩ := (s.pollEvent g c).notes_apply g.toGroupParams s.state s.numPeers s.board
      rw [hl, List.mem_append] at hm
      exact hm.elim (hnotes st m) fun hm => (hall st m hm).trans hst
    rw [and_iff_left hadd]
    by_cases hconf : ∃ e term leader host port, c = .net e (.authority term leader host port) ∧ s.term = term ∧
        g.ownId ≠ leader
    · have hst' : (call g s c).state ≠ .leader := fun h => (leader_call_iff hs hst).mp h hconf
      obtain ⟨e, term, leader, host, port, rfl, hconf⟩ := hconf
      have hidle : s.pollEvent g (.net e (.authority term leader host port)) = .idle := by simp [pollEvent]
      rw [hidle, imp_iff_not_or, or_iff_left hst']
      simp [PollEvent.apply, board, Misplaced, hst, hconf]
    · have hst' : (call g s c).state = .leader := (leader_call_iff hs hst).mpr hconf
      exact iff_of_true (fun _ => hst') fun hmis => hconf (hmis.conflict hst).2
  · have hempty : s.board.polls = Dict.empty := by
      by_contra hne
      exact hst (hpolls hne)
    have hkept : (s.pollEvent g c).apply g.toGroupParams s.state s.numPeers s.board = s.board →
        (∀ err time rfv member, s.pollEvent g c ≠ .request err time rfv member) →
        ((((s.pollEvent g c).apply g.toGroupParams s.state s.numPeers s.board).polls ≠ Dict.empty →
              (call g s c).state = .leader) ∧
            (∀ st m, .pub st m ∈ ((s.pollEvent g c).apply g.toGroupParams s.state s.numPeers s.board).notes →
              st = .leader) ↔ ¬ Misplaced g s c) := by
      intro hsame hno
      rw [hsame]
      refine iff_of_true ⟨fun hne => absurd hempty hne, hnotes⟩ fun hmis => ?_
      obtain ⟨err, time, rfv, member, hreq, -⟩ := hmis.request hs hst
      exact hno _ _ _ _ hreq
    cases hev : s.pollEvent g c with
    | idle => exact hev ▸ hkept (by rw [hev]; rfl) (by simp [hev])
    | sweep now => exact hev ▸ hkept (by rw [hev]; exact Board.sweep_of_empty _ _ hempty) (by simp [hev])
    | vote err time rtc => exact hev ▸ hkept (by rw [hev]; exact Board.vote_of_empty _ _ _ _ hempty) (by simp [hev])
    | request err time rfv member =>
      have hidle : s.event g c = .idle := by
        obtain ⟨-, ⟨e, rfl, -, -⟩ | ⟨-, e, sender, rfl, -⟩⟩ := pollEvent_eq_request hev <;> simp [event, hs]
      have hst' : (call g s c).state ≠ .leader := by
        have hseat := congrArg Seat.state (seat_call g s c)
        rw [hidle] at hseat
        exact fun h => hst (hseat.symm.trans h)
      have hmis : Misplaced g s c ↔ err = none ∨ rfv.late g.toGroupParams time = false := by
        obtain ⟨-, ⟨e, rfl, rfl, hl⟩ | ⟨rfl, e, sender, rfl, rfl⟩⟩ := pollEvent_eq_request hev
        · simp [Misplaced, hst, hl]
        · simp [Misplaced, hst]
      rw [hmis, imp_iff_not_or, or_iff_left hst', not_not]
      exact Board.request_of_empty_iff g.toGroupParams hst s.numPeers err time rfv member hempty hnotes

omit [DecidableEq Id] in
theorem leaderPolls_start (g : Member Id) (e : Env g.toGroupParams) : LeaderPolls (start g e) := by
  rcases sent_start g e with hsent | hsent <;> simp [LeaderPolls, polls_start, hsent]

/-- **Only leaders run polls**, in runs without a misplaced call, and in no others. -/
theorem leaderPolls_run_iff (g : Member Id) (e : Env g.toGroupParams) (cs : List (Call Id g)) :
    Always (call g) LeaderPolls (start g e) cs ↔
      AllSteps (call g) (fun s c => s.exc = none → ¬ Misplaced g s c) (start g e) cs :=
  always_iff_allSteps (I := fun _ => True) (P := LeaderPolls) (fun _ _ _ _ => trivial)
    (fun _ _ _ h => leaderPolls_call_iff h) trivial (leaderPolls_start g e) cs

/-- Member 0 of two is elected in term 1, opens a poll for its component, and steps down for
member 1, which was elected in the same term; the next timeout comes when the poll has expired. -/
def pollOutlives : List (Call ℕ (Member.standard 0)) :=
  [.net (.least _ 101) (.heartbeat 0), .net (.least _ 101) (.heartbeat 1), .timeout (.least _ 103),
    .net (.least _ 103) (.rspvote 1 0 true 1),
    .comp (.least _ 103) none (.rfv (.rfv ⟨[], "poll", .majority, .value, 0, 103, 1⟩)),
    .net (.least _ 103) (.authority 1 1 0x7f000001 50000), .timeout (.least _ 105)]

/-- The poll stays open in the follower, which announces its outcome. -/
theorem poll_in_follower :
    ¬ Always (call (Member.standard 0)) LeaderPolls (start (Member.standard 0) (.least _ 100)) pollOutlives ∧
      announcement .follower "poll" .timeout ∈
        (run (call (Member.standard 0)) (start (Member.standard 0) (.least _ 100)) pollOutlives).sent := by
  have hann : announcement .follower "poll" .timeout ∈
      (run (call (Member.standard 0)) (start (Member.standard 0) (.least _ 100)) pollOutlives).sent := by
    decide +kernel
  refine ⟨fun h => ?_, hann⟩
  cases h.last.2 _ _ (.inr hann)

end GroupThread

end Riaps.Coordination
