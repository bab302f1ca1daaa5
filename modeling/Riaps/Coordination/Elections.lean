import Riaps.Foundation.Runs
import Riaps.Coordination.PollSteps

/-!
# What a call does to the election

Of the variables of a group thread, those that elections move form its `Seat`.
Whatever the call and the state, one of a dozen things happens to the seat, an
`ElectionEvent`: nothing, a candidacy, a vote, a leader accepted, and so on.
`event` says which, reading only the state before the call and the call;
`ElectionEvent.apply` says what it does to the seat and `ElectionEvent.pubs`
what election messages it publishes.

`seat_call` and `elections_sends` say that the thread does just that: the
election, as an automaton on seats, is what the handlers compute. Everything
proved about elections elsewhere is proved of the dozen events.
-/

namespace Riaps.Coordination

open Riaps.Foundation

universe u

variable {Id : Type u}

/-! ### Seats and events -/

/-- A member's place in the election: the variables that elections move. -/
@[ext] structure Seat (Id : Type u) where
  state : MemberState
  term : ℕ
  votes : ℕ
  votedFor : Option Id
  leader : Option Id
  leaderDeadline : Option ℚ
  ldrPort : Option ℕ
  qryPort : GroupQryPort
  /-- The port number the answer port is bound to. -/
  portNum : Option ℕ

/-- The seat of a thread. -/
def GroupThread.seat (s : GroupThread Id) : Seat Id :=
  ⟨s.state, s.term, s.votes, s.votedFor, s.leader, s.leaderDeadline, s.ldrPort, s.qryPort, s.ansPort.portNum⟩

/-- What can happen to a seat in one call. -/
inductive ElectionEvent (Id : Type u) where
  /-- Nothing. -/
  | idle
  /-- The leader deadline is set anew. -/
  | rearm (deadline : ℚ)
  /-- A leader informs the members. -/
  | announce (port : ℕ)
  /-- A follower becomes a candidate. -/
  | candidacy
  /-- A follower becomes a candidate, of a term that does not fit the message. -/
  | candidacyFails
  /-- A candidate's election ends without a result. -/
  | giveUp
  /-- A leader is accepted; the query port goes to its server. -/
  | accept (term : ℕ) (leader : Id) (server : Option (String × ℕ)) (deadline : ℚ)
  /-- A follower votes. -/
  | answer (term : ℕ) (node : Id)
  /-- A candidate votes no. -/
  | refuse (term : ℕ) (node : Id)
  /-- A candidate votes yes, in a newer term. -/
  | defer (term : ℕ) (node : Id)
  /-- A candidate counts a vote. -/
  | count
  /-- A candidate counts the vote that makes it the leader. -/
  | win (port : ℕ)
  /-- The same, but an exception ends the thread, after the answer port was bound or before. -/
  | winFails (port : Option ℕ)

namespace ElectionEvent

variable [DecidableEq Id]

/-- What an event does to the seat of `g`. -/
def apply (g : Member Id) : ElectionEvent Id → Seat Id → Seat Id
  | idle, x | refuse _ _, x => x
  | rearm deadline, x => { x with leaderDeadline := some deadline }
  | announce _, x => { x with leaderDeadline := none }
  | candidacy, x =>
    { x with
      state := .candidate, term := x.term + 1, votes := 1, votedFor := some g.ownId, leader := none
      leaderDeadline := none, qryPort := x.qryPort.update none none }
  | candidacyFails, x =>
    { x with
      state := .candidate, term := x.term + 1, votes := 1, votedFor := some g.ownId
      qryPort := x.qryPort.update none none }
  | giveUp, x => { x with state := .follower, votedFor := none, leader := none, leaderDeadline := none }
  | accept term leader server deadline, x =>
    { x with
      state := .follower, term := term, votedFor := none, leader := some leader
      leaderDeadline := some deadline
      qryPort := x.qryPort.update (server.map Prod.fst) (server.map Prod.snd) }
  | answer term node, x =>
    { x with
      term := term, leader := none, leaderDeadline := none, qryPort := x.qryPort.update none none
      votedFor := if GroupThread.grantsVote x.votedFor x.term term node then some node else x.votedFor }
  | defer term node, x =>
    { x with
      state := .follower, term := term, leader := none, qryPort := x.qryPort.update none none
      votedFor := some node }
  | count, x => { x with votes := x.votes + 1 }
  | win port, x =>
    { x with
      state := .leader, votes := x.votes + 1, leader := some g.ownId, ldrPort := some port, portNum := some port }
  | winFails port, x =>
    { x with
      state := .leader, votes := x.votes + 1, leader := some g.ownId
      ldrPort := port.or x.ldrPort, portNum := port.or x.portNum }

/-- The election messages an event publishes. -/
def pubs (g : Member Id) : ElectionEvent Id → Seat Id → List (GroupMsg Id)
  | announce port, x | win port, x => [.authority x.term g.ownId g.host port]
  | candidacy, x => [.reqvote (x.term + 1) g.ownId]
  | answer term node, x => [.rspvote term node (GroupThread.grantsVote x.votedFor x.term term node) g.ownId]
  | refuse term node, _ => [.rspvote term node false g.ownId]
  | defer term node, _ => [.rspvote term node true g.ownId]
  | _, _ => []

end ElectionEvent

namespace GroupThread

variable [DecidableEq Id]

/-- What a call does to the election. -/
def event (g : Member Id) (s : GroupThread Id) (c : Call Id g) : ElectionEvent Id :=
  if s.exc ≠ none then .idle
  else
    match c with
    | .timeout e =>
      match s.state with
      | .follower =>
        if s.pastLeaderDeadline e.now then
          if g.groupSize / 2 + 1 < (s.updatePeers g.toGroupParams e.now).numPeers then
            if 2 ^ 32 ≤ s.term + 1 then .candidacyFails else .candidacy
          else .rearm (e.time + e.draw / 1000)
        else .idle
      | .candidate => .giveUp
      | .leader =>
        if s.leader ≠ some g.ownId then .idle
        else
          match s.ldrPort with
          | none => .idle
          | some port => if 2 ^ 32 ≤ s.term then .idle else .announce port
    | .net e (.rcm _) | .net e (.ann _) => if g.isTimed then .idle else .rearm (e.time + e.draw / 1000)
    | .net _ (.reqvote term node) =>
      match s.state with
      | .follower => .answer term node
      | .candidate =>
        if term = s.term then if node ≠ g.ownId then .refuse term node else .idle
        else if s.term < term then .defer term node else .idle
      | .leader => .idle
    | .net e (.rspvote _ cand vote _) =>
      match s.state with
      | .candidate =>
        if vote ∧ cand = g.ownId then
          if s.threshold ≤ s.votes + 1 then
            match s.ansPort.portNum with
            | some _ => .winFails none
            | none => if 2 ^ 32 ≤ s.term then .winFails (some e.freePort) else .win e.freePort
          else .count
        else .idle
      | _ => .idle
    | .net e (.authority term leader host port) =>
      match s.state with
      | .follower =>
        .accept term leader (if port = 0 then none else some (compressed host, port)) (e.time + e.draw / 1000)
      | .candidate => .accept term leader (some (compressed host, port)) (e.time + e.draw / 1000)
      | .leader =>
        if s.term = term ∧ g.ownId ≠ leader then
          .accept term leader (some (compressed host, port)) (e.time + e.draw / 1000)
        else .idle
    | _ => .idle

end GroupThread

/-! ### Published messages -/

/-- The messages published, of all that was sent. -/
def published (l : List (Sent Id)) : List (GroupMsg Id) :=
  l.filterMap fun
    | .pub _ m => some m
    | _ => none

/-- The messages of elections. -/
def GroupMsg.isElection : GroupMsg Id → Bool
  | .reqvote _ _ | .rspvote _ _ _ _ | .authority _ _ _ _ => true
  | _ => false

/-- The election messages published. -/
def elections (l : List (Sent Id)) : List (GroupMsg Id) := (published l).filter GroupMsg.isElection

@[simp] theorem published_nil : published ([] : List (Sent Id)) = [] := rfl

@[simp] theorem published_append (l k : List (Sent Id)) : published (l ++ k) = published l ++ published k :=
  List.filterMap_append

@[simp] theorem published_pub (st : MemberState) (m : GroupMsg Id) : published [.pub st m] = [m] := rfl

@[simp] theorem elections_append (l k : List (Sent Id)) : elections (l ++ k) = elections l ++ elections k := by
  simp [elections]

theorem mem_elections {l : List (Sent Id)} {m : GroupMsg Id} :
    m ∈ elections l ↔ m ∈ published l ∧ m.isElection := List.mem_filter

/-- A notification: a change of the members or of the leader. -/
def CompMsg.isNotice : CompMsg Id → Bool
  | .mjd _ | .mlt _ | .lel _ | .lex _ => true
  | _ => false

/-- Something sent that concerns neither elections nor the component's view of the group. -/
def Sent.isAside : Sent Id → Bool
  | .pub _ m => !m.isElection
  | .comp m => !m.isNotice
  | _ => true

theorem elections_of_isAside {l : List (Sent Id)} (h : ∀ x ∈ l, x.isAside) : elections l = [] := by
  rw [List.eq_nil_iff_forall_not_mem]
  intro m hm
  obtain ⟨hpub, hel⟩ := mem_elections.mp hm
  obtain ⟨x, hx, hxm⟩ := List.mem_filterMap.mp hpub
  cases x with
  | pub st k =>
    cases hxm
    simpa [Sent.isAside, hel] using h _ hx
  | _ => cases hxm

/-! ### Operations that leave the election alone -/

/-- From `s` to `s'` the election stood still: the seat is the same, and nothing was
sent but messages that are not of elections. -/
structure Quiet (s s' : GroupThread Id) : Prop where
  seat : s'.seat = s.seat
  sent : ∃ l, s'.sent = s.sent ++ l ∧ elections l = []

namespace Quiet

theorem refl (s : GroupThread Id) : Quiet s s := ⟨rfl, [], by simp, rfl⟩

theorem trans {s t r : GroupThread Id} (h₁ : Quiet s t) (h₂ : Quiet t r) : Quiet s r := by
  obtain ⟨l, hl, he⟩ := h₁.sent
  obtain ⟨k, hk, he'⟩ := h₂.sent
  exact ⟨h₂.seat.trans h₁.seat, l ++ k, by rw [hk, hl, List.append_assoc], by rw [elections_append, he, he']; rfl⟩

/-- A change of other variables alone. -/
theorem of_eq {s s' : GroupThread Id} (h : s'.seat = s.seat) (hs : s'.sent = s.sent) : Quiet s s' :=
  ⟨h, [], by simp [hs], rfl⟩

end Quiet

/-- From `s` to `s'` neither the election nor the membership list was touched, and nothing
was sent that concerns them. -/
structure Aside (s s' : GroupThread Id) : Prop where
  seat : s'.seat = s.seat
  peers : s'.peers = s.peers
  numPeers : s'.numPeers = s.numPeers
  sent : ∃ l, s'.sent = s.sent ++ l ∧ ∀ x ∈ l, x.isAside

namespace Aside

theorem refl (s : GroupThread Id) : Aside s s := ⟨rfl, rfl, rfl, [], by simp, by simp⟩

theorem trans {s t r : GroupThread Id} (h₁ : Aside s t) (h₂ : Aside t r) : Aside s r := by
  obtain ⟨l, hl, ha⟩ := h₁.sent
  obtain ⟨k, hk, ha'⟩ := h₂.sent
  refine ⟨h₂.seat.trans h₁.seat, h₂.peers.trans h₁.peers, h₂.numPeers.trans h₁.numPeers, l ++ k, ?_, ?_⟩
  · rw [hk, hl, List.append_assoc]
  · exact List.forall_mem_append.mpr ⟨ha, ha'⟩

/-- A change of other variables alone. -/
theorem of_eq {s s' : GroupThread Id} (h : s'.seat = s.seat) (hp : s'.peers = s.peers) (hn : s'.numPeers = s.numPeers)
    (hs : s'.sent = s.sent) : Aside s s' := ⟨h, hp, hn, [], by simp [hs], by simp⟩

/-- One thing sent. -/
theorem of_sent {s s' : GroupThread Id} {x : Sent Id} (hx : x.isAside) (h : s' = { s with sent := s.sent ++ [x] }) :
    Aside s s' := by
  subst h
  exact ⟨rfl, rfl, rfl, [x], rfl, by simpa using hx⟩

theorem quiet {s s' : GroupThread Id} (h : Aside s s') : Quiet s s' := by
  obtain ⟨l, hl, ha⟩ := h.sent
  exact ⟨h.seat, l, hl, elections_of_isAside ha⟩

end Aside

namespace GroupThread

theorem aside_raise (x : PyExc) (s : GroupThread Id) : Aside s (s.raise x) := .of_eq rfl rfl rfl rfl

theorem aside_publish {m : GroupMsg Id} (hm : m.isElection = false) (s : GroupThread Id) : Aside s (s.publish m) :=
  .of_sent (by simp [Sent.isAside, hm]) rfl

theorem aside_sendGroup (err : Option ℕ) {m : GroupMsg Id} (hm : m.isElection = false) (s : GroupThread Id) :
    Aside s (s.sendGroup err m) := by
  cases err with
  | none => exact aside_publish hm s
  | some errno => exact aside_raise _ s

theorem aside_sendComp {m : CompMsg Id} (hm : m.isNotice = false) (s : GroupThread Id) : Aside s (s.sendComp m) :=
  .of_sent (by simp [Sent.isAside, hm]) rfl

theorem aside_sendQry (m : LeaderMsg) (s : GroupThread Id) : Aside s (s.sendQry m) := .of_sent (x := .qry m) rfl rfl

theorem aside_sendAns (identity payload : Bytes) (s : GroupThread Id) : Aside s (s.sendAns identity payload) :=
  .of_sent (x := .ans identity payload) rfl rfl

theorem aside_setIdentity (identity : Bytes) (s : GroupThread Id) : Aside s
    (s.setIdentity identity) := .of_eq rfl rfl rfl rfl

theorem aside_setPolls (polls : Dict String Poll) (s : GroupThread Id) : Aside s
    (s.setPolls polls) := .of_eq rfl rfl rfl rfl

theorem aside_setTimeout (value : ℤ) (now : ℚ) (s : GroupThread Id) : Aside s
    (s.setTimeout value now) := .of_eq rfl rfl rfl rfl

theorem aside_updateTimeout (now : ℚ) (s : GroupThread Id) : Aside s (s.updateTimeout now) := .of_eq rfl rfl rfl rfl

/-- What the component is told when the leader goes: that it exited, if there was one. -/
def lexNote (s : GroupThread Id) : List (Sent Id) := s.leader.toList.map fun l => .comp (.lex l)

theorem leaderExited_eq (s : GroupThread Id) : s.leaderExited = { s with sent := s.sent ++ s.lexNote } := by
  rcases s with ⟨_, _, _, _, leader, _⟩
  cases leader with
  | none => simp [leaderExited, lexNote]
  | some l => rfl

@[simp] theorem elections_lexNote (s : GroupThread Id) : elections s.lexNote = [] := by
  unfold lexNote
  cases s.leader <;> rfl

theorem aside_forward (g : GroupParams) {m : CompMsg Id} (hm : m.isNotice = false) (s : GroupThread Id) :
    Aside s (s.forward g m) := by
  unfold forward
  split_ifs
  · exact aside_raise _ s
  · exact aside_sendComp hm s

theorem aside_announceConsensus (err : Option ℕ) (rfvId : String) (vote : Vote) (s : GroupThread Id) :
    Aside s (s.announceConsensus err rfvId vote) := aside_sendGroup err rfl s

theorem aside_checkPoll (err : Option ℕ) (poll : Poll) (now : ℚ) (s : GroupThread Id) :
    Aside s (s.checkPoll err poll now).2 := by
  rw [checkPoll_eq]
  split
  · exact aside_announceConsensus err _ _ s
  · exact .refl s

theorem aside_checkAllPolls (now : ℚ) (s : GroupThread Id) : Aside s (s.checkAllPolls now) := by
  rw [checkAllPolls_eq]
  refine ⟨rfl, rfl, rfl, _, rfl, fun x hx => ?_⟩
  obtain ⟨i, -, hi⟩ := List.mem_filterMap.mp hx
  obtain ⟨vote, -, rfl⟩ := Option.map_eq_some_iff.mp hi
  rfl

theorem aside_heartbeat (g : Member Id) (now : ℚ) (s : GroupThread Id) : Aside s (s.heartbeat g now) := by
  unfold heartbeat
  split_ifs
  · exact (aside_publish rfl s).trans (.of_eq rfl rfl rfl rfl)
  · exact .refl s

theorem aside_startPoll (g : GroupParams) (time : ℚ) (m : GroupVote) (member : Bytes) (s : GroupThread Id) :
    Aside s (s.startPoll g time m member).2 := by
  unfold startPoll
  cases m with
  | rfv rfv =>
    simp only
    generalize (if rfv.timeout = 0 then (g.groupConsensusTimeout : ℚ) else rfv.timeout) = timeout
    split
    · exact .refl s
    · exact aside_setPolls _ s
  | rtc => exact .refl s
  | ann => exact .refl s

theorem aside_requestVote (g : GroupParams) (err : Option ℕ) (time : ℚ) (m : GroupVote) (member : Bytes)
    (s : GroupThread Id) : Aside s (s.requestVote g err time m member) := by
  have h := aside_startPoll g time m member s
  unfold requestVote
  simp only
  split_ifs
  · exact h.trans (aside_sendGroup err rfl _)
  · cases m with
    | rfv rfv => exact h.trans (aside_announceConsensus err _ _ _)
    | rtc => exact h.trans (aside_raise _ _)
    | ann => exact h.trans (aside_raise _ _)

theorem aside_updatePoll (err : Option ℕ) (time : ℚ) (m : GroupVote) (s : GroupThread Id) :
    Aside s (s.updatePoll err time m) := by
  unfold updatePoll
  cases m with
  | rfv => exact .refl s
  | ann => exact .refl s
  | rtc rtc =>
    simp only
    cases s.polls.get? rtc.rfvId with
    | none => exact .refl s
    | some poll =>
      simp only
      generalize poll.vote _ = counted
      have h := (aside_setPolls (s.polls.set rtc.rfvId counted) s).trans (aside_checkPoll err counted time _)
      split
      · exact h.trans (aside_setPolls _ _)
      · exact h

theorem aside_toLeader (err : Option ℕ) (m : LeaderMsg) (s : GroupThread Id) : Aside s (s.toLeader err m) := by
  unfold toLeader
  split
  · cases err with
    | none => exact (aside_sendQry m s).trans (aside_sendComp rfl _)
    | some errno => exact aside_raise _ s
  · exact aside_sendComp rfl s

theorem quiet_sendComp (m : CompMsg Id) (s : GroupThread Id) : Quiet s (s.sendComp m) := ⟨rfl, [.comp m], rfl, rfl⟩

theorem quiet_countPeers (s : GroupThread Id) : Quiet s s.countPeers := .of_eq rfl rfl

variable [DecidableEq Id]

theorem quiet_dropPeer (s : GroupThread Id) (leaver : Id) : Quiet s (s.dropPeer leaver) :=
  (quiet_sendComp _ s).trans (.of_eq rfl rfl)

theorem quiet_updatePeers (g : GroupParams) (now : ℚ) (s : GroupThread Id) : Quiet s (s.updatePeers g now) := by
  have loop : ∀ (leavers : List Id) (s : GroupThread Id), Quiet s (leavers.foldl dropPeer s) := by
    intro leavers
    induction leavers with
    | nil => exact .refl
    | cons l leavers ih => exact fun s => (quiet_dropPeer s l).trans (ih _)
  unfold updatePeers
  simp only
  split_ifs
  · exact (loop _ s).trans (quiet_countPeers _)
  · exact .refl s

theorem quiet_hearPeer (peer : Id) (now : ℚ) (s : GroupThread Id) : Quiet s (s.hearPeer peer now) := .of_eq rfl rfl

theorem quiet_wake (g : Member Id) (now : ℚ) (s : GroupThread Id) : Quiet s (s.wake g now) :=
  (aside_heartbeat g now s).quiet.trans (quiet_updatePeers _ now _)

theorem aside_handleCompMessage (g : Member Id) (e : Env g.toGroupParams) (err : Option ℕ) (req : CompReq)
    (s : GroupThread Id) : Aside s (s.handleCompMessage g e err req) := by
  cases req with
  | upd host port =>
    simp only [handleCompMessage]
    split_ifs
    · exact .refl s
    · exact .of_eq rfl rfl rfl rfl
  | msg payload =>
    simp only [handleCompMessage]
    cases err with
    | none => exact (aside_publish rfl s).trans (aside_sendComp rfl _)
    | some errno => exact aside_raise _ s
  | mtl payload =>
    simp only [handleCompMessage]
    split_ifs
    · exact aside_sendComp rfl s
    · exact (aside_sendComp rfl s).trans (aside_forward _ rfl _)
    · exact aside_toLeader err _ s
  | mfl payload identity =>
    simp only [handleCompMessage]
    split_ifs
    · exact aside_sendComp rfl s
    · exact (aside_sendComp rfl s).trans (aside_forward _ rfl _)
    · have h := aside_setIdentity identity s
      cases err with
      | none => exact (h.trans (aside_sendAns identity payload _)).trans (aside_sendComp rfl _)
      | some errno => exact h.trans (aside_raise _ _)
  | rfv m =>
    simp only [handleCompMessage]
    split_ifs
    · exact aside_sendComp rfl s
    · exact (aside_sendComp rfl s).trans (aside_requestVote _ err _ m _ _)
    · exact aside_toLeader err _ s
  | rtc m =>
    simp only [handleCompMessage]
    split_ifs
    · exact aside_sendComp rfl s
    · exact (aside_updatePoll err _ m s).trans (aside_sendComp rfl _)
    · exact aside_updatePoll err _ m s
    · exact aside_toLeader err _ s
  | mlt =>
    simp only [handleCompMessage]
    have h := aside_sendGroup err (m := .mlt g.ownId) rfl s
    split_ifs
    · exact h.trans (.of_eq rfl rfl rfl rfl)
    · exact h

omit [DecidableEq Id] in
theorem aside_handleMessageForLeader (g : GroupParams) (time : ℚ) (identity : Bytes) (m : LeaderMsg)
    (s : GroupThread Id) : Aside s (s.handleMessageForLeader g time identity m) := by
  have h := aside_setIdentity identity s
  cases m with
  | mtl payload => exact h.trans (aside_forward g rfl _)
  | rfv m => exact h.trans (aside_requestVote g none time m identity _)
  | rtc m => exact h.trans (aside_updatePoll none time m _)

end GroupThread

/-! ### Operations that move the election -/

variable [DecidableEq Id]

/-- From `s` to `s'` the event `ev` happened to the election, and nothing else did. -/
structure Moves (g : Member Id) (ev : ElectionEvent Id) (s s' : GroupThread Id) : Prop where
  seat : s'.seat = ev.apply g s.seat
  sent : ∃ l, s'.sent = s.sent ++ l ∧ elections l = ev.pubs g s.seat

theorem Quiet.moves {g : Member Id} {s s' : GroupThread Id} (h : Quiet s s') : Moves g .idle s s' :=
  ⟨h.seat, h.sent⟩

/-- What is quiet before an event takes no part in it. -/
theorem Quiet.then_moves {g : Member Id} {ev : ElectionEvent Id} {s t r : GroupThread Id} (h : Quiet s t)
    (hm : Moves g ev t r) : Moves g ev s r := by
  obtain ⟨l, hl, he⟩ := h.sent
  obtain ⟨k, hk, hp⟩ := hm.sent
  refine ⟨by rw [hm.seat, h.seat], l ++ k, by rw [hk, hl, List.append_assoc], ?_⟩
  rw [elections_append, he, hp, h.seat, List.nil_append]

/-- What is quiet after an event takes no part in it. -/
theorem Moves.then_quiet {g : Member Id} {ev : ElectionEvent Id} {s t r : GroupThread Id}
    (hm : Moves g ev s t) (h : Quiet t r) : Moves g ev s r := by
  obtain ⟨l, hl, he⟩ := hm.sent
  obtain ⟨k, hk, hp⟩ := h.sent
  refine ⟨by rw [h.seat, hm.seat], l ++ k, by rw [hk, hl, List.append_assoc], ?_⟩
  rw [elections_append, he, hp, List.append_nil]

namespace GroupThread

/-- What the component is told when the leader is set: that there is another one. -/
def lelNote (leader : Id) (s : GroupThread Id) : List (Sent Id) :=
  if s.leader ≠ some leader then [.comp (.lel leader)] else []

theorem setLeader_eq (leader : Id) (s : GroupThread Id) :
    s.setLeader leader = { s with leader := some leader, sent := s.sent ++ s.lelNote leader } := by
  unfold setLeader lelNote
  split
  · rfl
  · simp

@[simp] theorem elections_lelNote (leader : Id) (s : GroupThread Id) : elections (s.lelNote leader) = [] := by
  unfold lelNote
  split <;> rfl

theorem moves_rearm (g : Member Id) (e : Env g.toGroupParams) (s : GroupThread Id) :
    Moves g (.rearm (e.time + e.draw / 1000)) s (s.setLeaderDeadline e) := ⟨rfl, [], by simp [setLeaderDeadline], rfl⟩

/-- The candidacy of a follower. -/
theorem moves_startElection (g : Member Id) (e : Env g.toGroupParams) (s : GroupThread Id) :
    Moves g (if 2 ^ 32 ≤ s.term + 1 then .candidacyFails else .candidacy) s (s.startElection g e) := by
  unfold startElection
  simp only [leaderExited_eq, qryUpdate]
  split
  · exact ⟨rfl, s.lexNote, rfl, by simp [ElectionEvent.pubs]⟩
  · exact ⟨rfl, s.lexNote ++ [.pub .candidate (.reqvote (s.term + 1) g.ownId)],
      by simp [publish, setTimeout], by rw [elections_append, elections_lexNote]; rfl⟩

theorem moves_candidateTimeout (g : Member Id) (e : Env g.toGroupParams) (s : GroupThread Id) :
    Moves g .giveUp s (s.candidateTimeout g e) := by
  unfold candidateTimeout
  simp only [leaderExited_eq]
  exact ⟨rfl, s.lexNote, rfl, by simp [ElectionEvent.pubs]⟩

theorem moves_leaderTimeout (g : Member Id) (e : Env g.toGroupParams) (s : GroupThread Id) :
    Moves g
      (if s.leader ≠ some g.ownId then .idle
        else
          match s.ldrPort with
          | none => .idle
          | some port => if 2 ^ 32 ≤ s.term then .idle else .announce port)
      s (s.leaderTimeout g e) := by
  unfold leaderTimeout
  split
  · exact (aside_raise _ s).quiet.moves
  · cases hp : s.ldrPort with
    | none => exact (aside_raise _ s).quiet.moves
    | some port =>
      simp only
      split
      · exact (aside_raise _ s).quiet.moves
      · exact ⟨rfl, [.pub s.state (.authority s.term g.ownId g.host port)], rfl, rfl⟩

theorem moves_followerTimeout (g : Member Id) (e : Env g.toGroupParams) (s : GroupThread Id) :
    Moves g
      (if s.pastLeaderDeadline e.now then
        if g.groupSize / 2 + 1 < s.numPeers then
          if 2 ^ 32 ≤ s.term + 1 then .candidacyFails else .candidacy
        else .rearm (e.time + e.draw / 1000)
      else .idle)
      s (s.followerTimeout g e) := by
  unfold followerTimeout
  split
  · split
    · exact moves_startElection g e s
    · exact (moves_rearm g e s).then_quiet (aside_setTimeout _ _ _).quiet
  · exact (aside_setTimeout _ _ s).quiet.moves

theorem moves_followerReqvote (g : Member Id) (e : Env g.toGroupParams) (term : ℕ) (node : Id) (s : GroupThread Id) :
    Moves g (.answer term node) s (s.followerReqvote g e term node) := by
  unfold followerReqvote
  generalize hv : grantsVote s.votedFor s.term term node = vote
  simp only [leaderExited_eq]
  refine ⟨?_, .pub s.state (.rspvote term node vote g.ownId) :: s.lexNote, ?_, ?_⟩
  · cases vote <;> simp [publish, qryUpdate, setTimeout, seat, ElectionEvent.apply, hv]
  · cases vote <;> simp [publish, qryUpdate, setTimeout, lexNote]
  · rw [← List.singleton_append, elections_append, elections_lexNote]
    simp only [ElectionEvent.pubs, seat, hv]
    rfl

theorem moves_candidateReqvote (g : Member Id) (e : Env g.toGroupParams) (term : ℕ) (node : Id) (s : GroupThread Id) :
    Moves g
      (if term = s.term then if node ≠ g.ownId then .refuse term node else .idle
      else if s.term < term then .defer term node else .idle)
      s (s.candidateReqvote g e term node) := by
  unfold candidateReqvote
  refine Moves.then_quiet ?_ (aside_setTimeout _ _ _).quiet
  split
  · split
    · exact ⟨rfl, [.pub s.state (.rspvote term node false g.ownId)], rfl, rfl⟩
    · exact (Quiet.refl s).moves
  · split
    · simp only [leaderExited_eq]
      exact ⟨rfl, .pub .follower (.rspvote term node true g.ownId) :: s.lexNote,
        by simp [publish, qryUpdate, lexNote],
        by rw [← List.singleton_append, elections_append, elections_lexNote]; rfl⟩
    · exact (Quiet.refl s).moves

theorem moves_candidateRspvote (g : Member Id) (e : Env g.toGroupParams) (cand : Id) (vote : Bool)
    (s : GroupThread Id) :
    Moves g
      (if vote ∧ cand = g.ownId then
        if s.threshold ≤ s.votes + 1 then
          match s.ansPort.portNum with
          | some _ => .winFails none
          | none => if 2 ^ 32 ≤ s.term then .winFails (some e.freePort) else .win e.freePort
        else .count
      else .idle)
      s (s.candidateRspvote g e cand vote) := by
  unfold candidateRspvote
  split
  · simp only [show ({ s with votes := s.votes + 1 } : GroupThread Id).threshold = s.threshold from rfl]
    split
    · unfold winElection
      cases hp : s.ansPort.portNum with
      | some p =>
        simp only [sendComp, hp]
        exact ⟨by simp [raise, seat, ElectionEvent.apply], [.comp (.lel g.ownId)], by simp [raise], rfl⟩
      | none =>
        simp only [sendComp, hp]
        by_cases h32 : 2 ^ 32 ≤ s.term
        · simp only [h32, if_true]
          exact ⟨by simp [raise, seat, ElectionEvent.apply], [.comp (.lel g.ownId)], by simp [raise], rfl⟩
        · simp only [h32, if_false]
          exact ⟨by simp [publish, setTimeout, seat, ElectionEvent.apply],
            [.comp (.lel g.ownId), .pub .leader (.authority s.term g.ownId g.host e.freePort)],
            by simp [publish, setTimeout], rfl⟩
    · exact ⟨rfl, [], by simp, rfl⟩
  · exact (Quiet.refl s).moves

/-- What accepting a leader does, whatever the timeouts. -/
theorem moves_acceptLeader (g : Member Id) (e : Env g.toGroupParams) (term : ℕ) (leader : Id) (host : String) (port : ℕ)
    (s : GroupThread Id) :
    Moves g (.accept term leader (some (host, port)) (e.time + e.draw / 1000)) s
      ((s.acceptLeader term leader (some host) (some port)).setLeaderDeadline e) := by
  unfold acceptLeader
  simp only [setLeader_eq]
  exact ⟨rfl, s.lelNote leader, rfl, by simp [ElectionEvent.pubs]⟩

theorem moves_candidateAuthority (g : Member Id) (e : Env g.toGroupParams) (term : ℕ) (leader : Id) (host port : ℕ)
    (s : GroupThread Id) :
    Moves g (.accept term leader (some (compressed host, port)) (e.time + e.draw / 1000)) s
      (s.candidateAuthority g e term leader host port) :=
  (moves_acceptLeader g e term leader (compressed host) port s).then_quiet (.of_eq rfl rfl)

theorem moves_leaderAuthority (g : Member Id) (e : Env g.toGroupParams) (term : ℕ) (leader : Id) (host port : ℕ)
    (s : GroupThread Id) :
    Moves g
      (if s.term = term ∧ g.ownId ≠ leader then
        .accept term leader (some (compressed host, port)) (e.time + e.draw / 1000)
      else .idle)
      s (s.leaderAuthority g e term leader host port) := by
  unfold leaderAuthority
  split
  · exact (moves_acceptLeader g e term leader (compressed host) port s).then_quiet (aside_setTimeout _ _ _).quiet
  · exact (aside_setTimeout _ _ s).quiet.moves

theorem moves_followerAuthority (g : Member Id) (e : Env g.toGroupParams) (term : ℕ) (leader : Id) (host port : ℕ)
    {s : GroupThread Id} (hs : s.state = .follower) :
    Moves g
      (.accept term leader (if port = 0 then none else some (compressed host, port)) (e.time + e.draw / 1000)) s
      (s.followerAuthority g e term leader host port) := by
  unfold followerAuthority
  simp only [setLeader_eq]
  split
  · exact ⟨by rw [ElectionEvent.apply, ← hs]; rfl, s.lelNote leader, rfl, by simp [ElectionEvent.pubs]⟩
  · exact ⟨by rw [ElectionEvent.apply, ← hs]; rfl, s.lelNote leader, rfl, by simp [ElectionEvent.pubs]⟩

/-! ### Calls -/

/-- The state in which `handleTimeout` looks at `state`. -/
def sweep (g : GroupParams) (now : ℚ) (s : GroupThread Id) : GroupThread Id :=
  (s.updatePeers g now).checkAllPolls now

theorem quiet_sweep (g : GroupParams) (now : ℚ) (s : GroupThread Id) : Quiet s (s.sweep g now) :=
  (quiet_updatePeers g now s).trans (aside_checkAllPolls now _).quiet

@[simp] theorem numPeers_sweep (g : GroupParams) (now : ℚ) (s : GroupThread Id) :
    (s.sweep g now).numPeers = (s.updatePeers g now).numPeers := by rw [sweep, checkAllPolls_eq]

theorem exc_updatePeers (g : GroupParams) (now : ℚ) (s : GroupThread Id) : (s.updatePeers g now).exc = s.exc := by
  have loop : ∀ (leavers : List Id) (s : GroupThread Id), (leavers.foldl dropPeer s).exc = s.exc := by
    intro leavers
    induction leavers with
    | nil => exact fun _ => rfl
    | cons l leavers ih => exact fun s => ih _
  unfold updatePeers
  simp only
  split_ifs
  · exact loop _ s
  · rfl

@[simp] theorem exc_sweep (g : GroupParams) (now : ℚ) (s : GroupThread Id) : (s.sweep g now).exc = s.exc := by
  rw [sweep, checkAllPolls_eq]
  exact exc_updatePeers g now s

/-- The sweep leaves the seat alone. -/
theorem sweep_fields (g : GroupParams) (now : ℚ) (s : GroupThread Id) :
    (s.sweep g now).state = s.state ∧ (s.sweep g now).term = s.term ∧ (s.sweep g now).leader = s.leader ∧
      (s.sweep g now).ldrPort = s.ldrPort ∧
      ∀ now', (s.sweep g now).pastLeaderDeadline now' = s.pastLeaderDeadline now' := by
  have hseat := (quiet_sweep g now s).seat
  simp only [Seat.ext_iff, seat] at hseat
  obtain ⟨hstate, hterm, -, -, hleader, hdeadline, hport, -, -⟩ := hseat
  exact ⟨hstate, hterm, hleader, hport, fun now' => by simp only [pastLeaderDeadline, hdeadline]⟩

theorem handleTimeout_eq (g : Member Id) (e : Env g.toGroupParams) (s : GroupThread Id) :
    s.handleTimeout g e =
      match s.state with
      | .follower => (s.sweep g.toGroupParams e.now).followerTimeout g e
      | .candidate => (s.sweep g.toGroupParams e.now).candidateTimeout g e
      | .leader => (s.sweep g.toGroupParams e.now).leaderTimeout g e := by
  rw [← (sweep_fields g.toGroupParams e.now s).1]
  rfl

theorem moves_handleTimeout (g : Member Id) (e : Env g.toGroupParams) {s : GroupThread Id} (hs : s.exc = none) :
    Moves g (s.event g (.timeout e)) s (s.handleTimeout g e) := by
  obtain ⟨hstate, hterm, hleader, hport, hpast⟩ := sweep_fields g.toGroupParams e.now s
  refine (quiet_sweep g.toGroupParams e.now s).then_moves ?_
  rw [handleTimeout_eq]
  unfold event
  simp only [hs, ne_eq, not_true_eq_false, if_false]
  rw [← numPeers_sweep, ← hpast, ← hterm, ← hleader, ← hport]
  cases s.state with
  | follower => exact moves_followerTimeout g e _
  | candidate => exact moves_candidateTimeout g e _
  | leader => exact moves_leaderTimeout g e _

/-- A request for a vote or an outcome, forwarded: the leader was heard from. -/
theorem moves_forwardRearm (g : Member Id) (e : Env g.toGroupParams) (m : CompMsg Id) {s : GroupThread Id}
    (hs : s.exc = none) :
    Moves g (if g.isTimed then .idle else .rearm (e.time + e.draw / 1000)) s
      (if (s.forward g.toGroupParams m).exc = none then
        ((s.forward g.toGroupParams m).updateTimeout e.now).setLeaderDeadline e
      else s.forward g.toGroupParams m) := by
  unfold forward
  cases g.isTimed with
  | true => exact (aside_raise _ s).quiet.moves
  | false =>
    simp only [Bool.false_eq_true, if_false, if_pos (show (s.sendComp m).exc = none from hs)]
    exact ((quiet_sendComp m s).trans (aside_updateTimeout e.now _).quiet).then_moves (moves_rearm g e _)

theorem moves_handleNetMessage (g : Member Id) (e : Env g.toGroupParams) (m : GroupMsg Id) {s : GroupThread Id}
    (hs : s.exc = none) : Moves g (s.event g (.net e m)) s (s.handleNetMessage g e m) := by
  unfold event handleNetMessage
  simp only [hs, ne_eq, not_true_eq_false, if_false]
  cases m with
  | msg payload =>
    simp only
    split
    · exact ((aside_forward _ rfl s).trans (aside_updateTimeout _ _)).quiet.moves
    · exact (aside_forward _ rfl s).quiet.moves
  | mlt leaver =>
    simp only
    have h : Quiet s (if leaver ∈ s.peers then s.dropPeer leaver else s) := by
      split
      · exact quiet_dropPeer s leaver
      · exact .refl s
    have h' := h.trans (quiet_countPeers _)
    generalize (if leaver ∈ s.peers then s.dropPeer leaver else s).countPeers = t at h' ⊢
    split
    · exact (h'.trans (aside_setTimeout _ _ _).quiet).moves
    · exact h'.moves
  | heartbeat peer =>
    have h : Quiet s (if peer ∈ s.peers then s else s.sendComp (.mjd peer)) := by
      split
      · exact .refl s
      · exact quiet_sendComp _ s
    exact (((h.trans (quiet_hearPeer peer e.now _)).trans (quiet_countPeers _)).trans
      (aside_updateTimeout e.now _).quiet).moves
  | rcm m => exact moves_forwardRearm g e (.rcm m) hs
  | ann m => exact moves_forwardRearm g e (.ann m) hs
  | reqvote term node =>
    cases hst : s.state with
    | follower => exact moves_followerReqvote g e term node s
    | candidate => exact moves_candidateReqvote g e term node s
    | leader => exact (aside_setTimeout _ _ s).quiet.moves
  | rspvote term cand vote node =>
    cases hst : s.state with
    | follower => exact (aside_setTimeout _ _ s).quiet.moves
    | candidate => exact moves_candidateRspvote g e cand vote s
    | leader => exact (aside_setTimeout _ _ s).quiet.moves
  | authority term leader host port =>
    cases hst : s.state with
    | follower => exact moves_followerAuthority g e term leader host port hst
    | candidate => exact moves_candidateAuthority g e term leader host port s
    | leader => exact moves_leaderAuthority g e term leader host port s

/-- **A call does to the election what `event` says**, and publishes the election
messages of that event. -/
theorem moves_call (g : Member Id) (s : GroupThread Id) (c : Call Id g) : Moves g (s.event g c) s (call g s c) := by
  unfold call
  by_cases hs : s.exc = none
  · rw [if_neg (not_not.mpr hs)]
    cases c with
    | wake e => simpa [event, hs] using (quiet_wake g e.now s).moves
    | timeout e => exact moves_handleTimeout g e hs
    | comp e err req => simpa [event, hs] using (aside_handleCompMessage g e err req s).quiet.moves
    | net e m => exact moves_handleNetMessage g e m hs
    | forLeader e sender identity m =>
      simpa [event, hs] using (aside_handleMessageForLeader g.toGroupParams e.time identity m s).quiet.moves
    | forMember e payload =>
      simpa [event, hs, handleMessageForMember] using
        (aside_forward g.toGroupParams (m := .mfl payload) rfl s).quiet.moves
  · rw [if_pos hs]
    simpa [event, hs] using (Quiet.refl s).moves

/-- The seat after a call. -/
theorem seat_call (g : Member Id) (s : GroupThread Id) (c : Call Id g) :
    (call g s c).seat = (s.event g c).apply g s.seat := (moves_call g s c).seat

/-- What a call sends. -/
def sends (g : Member Id) (s : GroupThread Id) (c : Call Id g) : List (Sent Id) :=
  (call g s c).sent.drop s.sent.length

/-- What was sent stays sent. -/
theorem sent_call (g : Member Id) (s : GroupThread Id) (c : Call Id g) :
    (call g s c).sent = s.sent ++ s.sends g c := by
  obtain ⟨l, hl, -⟩ := (moves_call g s c).sent
  rw [sends, hl, List.drop_left]

/-- The election messages a call publishes. -/
theorem elections_sends (g : Member Id) (s : GroupThread Id) (c : Call Id g) :
    elections (s.sends g c) = (s.event g c).pubs g s.seat := by
  obtain ⟨l, hl, he⟩ := (moves_call g s c).sent
  rw [sends, hl, List.drop_left, he]

/-! ### When events happen -/

/-- The state and the call in which an event happens. -/
def Guard (g : Member Id) (s : GroupThread Id) (c : Call Id g) : ElectionEvent Id → Prop
  | .idle | .rearm _ => True
  | .announce port => s.state = .leader ∧ s.leader = some g.ownId ∧ s.ldrPort = some port ∧ ∃ e, c = .timeout e
  | .candidacy =>
    s.state = .follower ∧ s.term + 1 < 2 ^ 32 ∧
      ∃ e, c = .timeout e ∧ s.pastLeaderDeadline e.now ∧
        g.groupSize / 2 + 1 < (s.updatePeers g.toGroupParams e.now).numPeers
  | .candidacyFails => s.state = .follower ∧ 2 ^ 32 ≤ s.term + 1 ∧ ∃ e, c = .timeout e
  | .giveUp => s.state = .candidate ∧ ∃ e, c = .timeout e
  | .accept term leader server _ =>
    (s.state = .leader → s.term = term ∧ g.ownId ≠ leader) ∧
      ∃ e host port, c = .net e (.authority term leader host port) ∧
        (port ≠ 0 → server = some (compressed host, port))
  | .answer term node => s.state = .follower ∧ ∃ e, c = .net e (.reqvote term node)
  | .refuse term node => s.state = .candidate ∧ term = s.term ∧ node ≠ g.ownId ∧ ∃ e, c = .net e (.reqvote term node)
  | .defer term node => s.state = .candidate ∧ s.term < term ∧ ∃ e, c = .net e (.reqvote term node)
  | .count =>
    s.state = .candidate ∧ s.votes + 1 < s.threshold ∧ ∃ e term node, c = .net e (.rspvote term g.ownId true node)
  | .win _ =>
    s.state = .candidate ∧ s.threshold ≤ s.votes + 1 ∧ s.ansPort.portNum = none ∧ s.term < 2 ^ 32 ∧
      ∃ e term node, c = .net e (.rspvote term g.ownId true node)
  | .winFails port =>
    s.state = .candidate ∧ s.threshold ≤ s.votes + 1 ∧ (port = none → s.ansPort.portNum ≠ none) ∧
      ∃ e term node, c = .net e (.rspvote term g.ownId true node)

/-- **Events happen in their place.** -/
theorem guard_event (g : Member Id) (s : GroupThread Id) (c : Call Id g) : s.Guard g c (s.event g c) := by
  unfold event
  by_cases hs : s.exc = none
  swap
  · rw [if_pos hs]
    trivial
  · rw [if_neg (not_not.mpr hs)]
    cases c with
    | wake e => trivial
    | comp e err req => trivial
    | forLeader e sender identity m => trivial
    | forMember e payload => trivial
    | timeout e =>
      cases hst : s.state with
      | follower =>
        simp only
        split_ifs with h₁ h₂ h₃
        · exact ⟨hst, h₃, e, rfl⟩
        · exact ⟨hst, Nat.lt_of_not_le h₃, e, rfl, h₁, h₂⟩
        · trivial
        · trivial
      | candidate => exact ⟨hst, e, rfl⟩
      | leader =>
        cases hp : s.ldrPort with
        | none => simp only; split_ifs <;> trivial
        | some port =>
          simp only
          split_ifs with h₁ h₂
          · trivial
          · trivial
          · exact ⟨hst, not_not.mp h₁, hp, e, rfl⟩
    | net e m =>
      cases m with
      | msg payload => trivial
      | mlt leaver => trivial
      | heartbeat peer => trivial
      | rcm m => simp only; split_ifs <;> trivial
      | ann m => simp only; split_ifs <;> trivial
      | reqvote term node =>
        cases hst : s.state with
        | follower => exact ⟨hst, e, rfl⟩
        | leader => trivial
        | candidate =>
          simp only
          split_ifs with h₁ h₂ h₃
          · exact ⟨hst, h₁, h₂, e, rfl⟩
          · trivial
          · exact ⟨hst, h₃, e, rfl⟩
          · trivial
      | rspvote term cand vote node =>
        cases hst : s.state with
        | follower => trivial
        | leader => trivial
        | candidate =>
          cases hp : s.ansPort.portNum with
          | some port =>
            simp only
            split_ifs with h₁ h₂
            · obtain ⟨rfl, rfl⟩ := h₁
              exact ⟨hst, h₂, by simp [hp], e, term, node, rfl⟩
            · obtain ⟨rfl, rfl⟩ := h₁
              exact ⟨hst, Nat.lt_of_not_le h₂, e, term, node, rfl⟩
            · trivial
          | none =>
            simp only
            split_ifs with h₁ h₂ h₃
            · obtain ⟨rfl, rfl⟩ := h₁
              exact ⟨hst, h₂, by simp, e, term, node, rfl⟩
            · obtain ⟨rfl, rfl⟩ := h₁
              exact ⟨hst, h₂, hp, Nat.lt_of_not_le h₃, e, term, node, rfl⟩
            · obtain ⟨rfl, rfl⟩ := h₁
              exact ⟨hst, Nat.lt_of_not_le h₂, e, term, node, rfl⟩
            · trivial
      | authority term leader host port =>
        cases hst : s.state with
        | follower => exact ⟨by simp [hst], e, host, port, rfl, fun h => if_neg h⟩
        | candidate => exact ⟨by simp [hst], e, host, port, rfl, fun _ => rfl⟩
        | leader =>
          simp only
          split_ifs with h
          · exact ⟨fun _ => h, e, host, port, rfl, fun _ => rfl⟩
          · trivial

/-- A winner binds its answer port, to a free port, when it is not bound. -/
theorem freePort_of_event {g : Member Id} {s : GroupThread Id} {c : Call Id g} {port : ℕ}
    (h : s.event g c = .win port ∨ s.event g c = .winFails (some port)) :
    s.ansPort.portNum = none ∧ ∃ e : Env g.toGroupParams, port = e.freePort := by
  have hexc : s.exc = none := by
    by_contra hne
    rcases h with h | h <;> simp [event, hne] at h
  have hg := guard_event g s c
  have hvote : s.state = .candidate ∧ s.threshold ≤ s.votes + 1 ∧
      ∃ e term node, c = .net e (.rspvote term g.ownId true node) := by
    rcases h with h | h <;> rw [h] at hg
    · exact ⟨hg.1, hg.2.1, hg.2.2.2.2⟩
    · exact ⟨hg.1, hg.2.1, hg.2.2.2⟩
  obtain ⟨hst, hvotes, e, term, node, rfl⟩ := hvote
  simp only [event, hexc, hst, ne_eq, not_true_eq_false, if_false, true_and, if_true, hvotes] at h
  cases hport : s.ansPort.portNum with
  | some p => simp [hport] at h
  | none =>
    simp only [hport] at h
    refine ⟨rfl, e, ?_⟩
    split_ifs at h <;> simp at h <;> exact h.symm

/-- Nothing happens in a thread that an exception has ended. -/
theorem event_of_exc {g : Member Id} {s : GroupThread Id} (h : s.exc ≠ none) (c : Call Id g) :
    s.event g c = .idle := if_pos h

theorem exc_wake (g : Member Id) (now : ℚ) (s : GroupThread Id) : (s.wake g now).exc = s.exc := by
  rw [wake, exc_updatePeers, heartbeat]
  split <;> rfl

/-- Waking up leaves the seat alone. -/
theorem seat_wake {g : Member Id} (e : Env g.toGroupParams) (s : GroupThread Id) :
    (call g s (.wake e)).seat = s.seat := by
  have hev : s.event g (.wake e) = .idle := by
    unfold event
    split <;> rfl
  rw [seat_call, hev]
  rfl

/-- Something happens in a running thread only. -/
theorem exc_of_event {g : Member Id} {s : GroupThread Id} {c : Call Id g} {ev : ElectionEvent Id}
    (h : s.event g c = ev) (hev : ev ≠ .idle) : s.exc = none := by
  by_contra hs
  exact hev (h ▸ event_of_exc hs c)

/-- An `AUTHORITY` is accepted, but by a leader only in a conflict. -/
theorem event_authority {g : Member Id} {s : GroupThread Id} (e : Env g.toGroupParams) {t : ℕ} {b : Id}
    (host port : ℕ) (hs : s.exc = none) (hl : s.state = .leader → s.term = t ∧ g.ownId ≠ b) :
    ∃ server, s.event g (.net e (.authority t b host port)) = .accept t b server (e.time + e.draw / 1000) := by
  unfold event
  rw [if_neg (not_not.mpr hs)]
  cases hst : s.state with
  | follower => exact ⟨_, rfl⟩
  | candidate => exact ⟨_, rfl⟩
  | leader => exact ⟨_, if_pos (hl hst)⟩

/-- A candidacy that fails ends the thread. -/
theorem exc_of_candidacyFails {g : Member Id} {s : GroupThread Id} {c : Call Id g}
    (h : s.event g c = .candidacyFails) : (call g s c).exc = some .structError := by
  have hs := exc_of_event h (by simp)
  have hg := guard_event g s c
  rw [h] at hg
  obtain ⟨hst, hterm, e, rfl⟩ := hg
  simp only [event, hs, hst, ne_eq, not_true_eq_false, if_false] at h
  split_ifs at h with hpast hsize
  obtain ⟨-, hterm', -, -, hpast'⟩ := sweep_fields g.toGroupParams e.now s
  rw [← numPeers_sweep] at hsize
  rw [← hpast'] at hpast
  rw [← hterm'] at hterm
  rw [call, if_neg (not_not.mpr hs)]
  simp only [handleTimeout_eq, hst, followerTimeout, hpast, hsize, if_true, startElection, leaderExited_eq, qryUpdate,
    hterm]
  rfl

/-- A candidacy does not end the thread. -/
theorem exc_of_candidacy {g : Member Id} {s : GroupThread Id} {c : Call Id g} (h : s.event g c = .candidacy) :
    (call g s c).exc = none := by
  have hs := exc_of_event h (by simp)
  have hg := guard_event g s c
  rw [h] at hg
  obtain ⟨hst, hterm, e, rfl, hpast, hsize⟩ := hg
  obtain ⟨-, hterm', -, -, hpast'⟩ := sweep_fields g.toGroupParams e.now s
  rw [← numPeers_sweep] at hsize
  rw [← hpast'] at hpast
  rw [← hterm', ← not_le] at hterm
  rw [call, if_neg (not_not.mpr hs)]
  simp only [handleTimeout_eq, hst, followerTimeout, hpast, hsize, if_true, startElection, leaderExited_eq, qryUpdate,
    hterm, if_false, publish, setTimeout]
  exact (exc_sweep _ _ _).trans hs

omit [DecidableEq Id] in
theorem exc_winElection (g : Member Id) (e : Env g.toGroupParams) (s : GroupThread Id) :
    (s.winElection g e).exc =
      match s.ansPort.portNum with
      | some _ => some .attributeError
      | none => if 2 ^ 32 ≤ s.term then some .structError else s.exc := by
  unfold winElection
  cases hp : s.ansPort.portNum with
  | some p => simp [sendComp, raise, hp]
  | none =>
    simp only [sendComp, hp]
    by_cases h32 : 2 ^ 32 ≤ s.term
    · simp only [h32, if_true]
      rfl
    · simp only [h32, if_false]
      rfl

/-- The vote that reaches a candidate's threshold. -/
theorem call_winning {g : Member Id} {s : GroupThread Id} {e : Env g.toGroupParams} {term : ℕ} {node : Id}
    (hs : s.exc = none) (hst : s.state = .candidate) (hvotes : s.threshold ≤ s.votes + 1) :
    call g s (.net e (.rspvote term g.ownId true node)) = { s with votes := s.votes + 1 }.winElection g e := by
  simp only [call, hs, ne_eq, not_true_eq_false, if_false, handleNetMessage, hst, candidateRspvote, true_and, if_true]
  exact if_pos hvotes

/-- A win that fails ends the thread. -/
theorem exc_of_winFails {g : Member Id} {s : GroupThread Id} {c : Call Id g} {port : Option ℕ}
    (h : s.event g c = .winFails port) : (call g s c).exc ≠ none := by
  have hs := exc_of_event h (by simp)
  have hg := guard_event g s c
  rw [h] at hg
  obtain ⟨hst, hvotes, -, e, term, node, rfl⟩ := hg
  simp only [event, hs, hst, ne_eq, not_true_eq_false, if_false, true_and, if_true, hvotes] at h
  rw [call_winning hs hst hvotes, exc_winElection]
  cases hp : s.ansPort.portNum with
  | some p => simp
  | none =>
    simp only [hp] at h
    split_ifs at h with h32
    simp only
    rw [if_pos h32]
    simp

theorem call_of_exc {g : Member Id} {s : GroupThread Id} (h : s.exc ≠ none) (c : Call Id g) : call g s c = s :=
  if_pos h

/-- A thread that is running after a call was running before it. -/
theorem exc_of_call {g : Member Id} {s : GroupThread Id} {c : Call Id g} (h : (call g s c).exc = none) :
    s.exc = none := by
  by_contra hs
  rw [call_of_exc hs] at h
  exact hs h

/-! ### The start -/

section Start

variable (g : Member Id) (e : Env g.toGroupParams)

omit [DecidableEq Id]

theorem seat_start : (start g e).seat =
    ⟨.follower, 0, 0, none, none, some (e.time + e.draw / 1000), none, .init, none⟩ := by
  unfold start heartbeat
  simp only [setLeaderDeadline]
  split <;> rfl

theorem state_start : (start g e).state = .follower := congrArg Seat.state (seat_start g e)

theorem polls_start : (start g e).polls = Dict.empty := by
  unfold start heartbeat
  simp only [setLeaderDeadline]
  split <;> rfl

/-- A thread that has just been set up has sent a heartbeat, if the clock is past the first period. -/
theorem sent_start : (start g e).sent = [] ∨ (start g e).sent = [.pub .follower (.heartbeat g.ownId)] := by
  unfold start heartbeat
  simp only [setLeaderDeadline]
  split
  · exact Or.inr rfl
  · exact Or.inl rfl

end Start

end GroupThread

end Riaps.Coordination
