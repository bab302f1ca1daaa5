import Riaps.Coordination.PollSteps

/-!
# Replies to the component

A component that posts a request with `Group.send_port` waits for `ACK`, `NLD`
or `ERR`. The handler answers most requests, and never with `ERR`: its `except`
clauses name `ZMQError`, and a port raises a `PortError` in its place, which no
clause catches. So a send that fails ends the thread, before the answer or
after it.

Which requests those are is read off the state and the request (`service`). A
request is answered, once, by a thread that goes on, exactly when the send it
needs succeeds, what it hands back to its own component can be sent, and a
request for a vote that stays in the leader carries one (`answered_iff`). A
thread of the `default` kind never has a leader; it is the case `leader = none`.
-/

namespace Riaps.Coordination

universe u

variable {Id : Type u}

/-- A message that answers a request. -/
def CompMsg.isReply : CompMsg Id → Bool
  | .ack | .nld | .err _ => true
  | _ => false

/-- The same, of what a thread sends. -/
def Sent.isReply : Sent Id → Bool
  | .comp m => m.isReply
  | _ => false

/-- The requests that `Group.send_port` posts and waits for. -/
def CompReq.isPosted : CompReq → Bool
  | .msg _ | .mtl _ | .mfl _ _ | .rfv _ | .rtc _ => true
  | .upd _ _ | .mlt => false

namespace GroupThread

/-- How many answers were sent so far. -/
def replies (s : GroupThread Id) : ℕ := s.sent.countP Sent.isReply

/-- From `s` to `s'` one request was answered, and the thread stays in its loop. -/
structure Answered (s s' : GroupThread Id) : Prop where
  once : s'.replies = s.replies + 1
  running : s'.exc = none
  stays : s'.toStop = s.toStop

instance (s s' : GroupThread Id) : Decidable (Answered s s') :=
  decidable_of_iff (s'.replies = s.replies + 1 ∧ s'.exc = none ∧ s'.toStop = s.toStop)
    ⟨fun h => ⟨h.1, h.2.1, h.2.2⟩, fun h => ⟨h.once, h.running, h.stays⟩⟩

/-- What it takes to serve a request. -/
inductive Service where
  /-- The answer alone. -/
  | reply
  /-- A send on a port. -/
  | port
  /-- A message for the component itself. -/
  | back
  /-- A request for a vote that is none. -/
  | reject
  deriving DecidableEq

/-- What it takes to pass a message on to the leader. -/
def serviceToLeader (s : GroupThread Id) : Service :=
  match s.qryPort.serverHost, s.qryPort.serverPort with
  | some _, some _ => .port
  | _, _ => .reply

/-- The vote settles a poll that is open here. -/
def settles (time : ℚ) (m : GroupVote) (s : GroupThread Id) : Bool :=
  match m with
  | .rtc rtc =>
    match s.polls.get? rtc.rfvId with
    | some poll => ((poll.vote (rtc.vote = .yes)).settle time).isSome
    | none => false
  | _ => false

variable [DecidableEq Id]

/-- What it takes to serve a request in state `s`. -/
def service (g : Member Id) (time : ℚ) (req : CompReq) (s : GroupThread Id) : Service :=
  match req with
  | .upd _ _ => .reply
  | .msg _ | .mlt => .port
  | .mtl _ => if s.leader = none then .reply else if s.isLeader g then .back else s.serviceToLeader
  | .mfl _ identity => if s.leader = none then .reply else if identity = [] then .back else .port
  | .rfv m =>
    if s.leader = none then .reply
    else if s.isLeader g then
      match m with
      | .rfv _ => .port
      | _ => .reject
    else s.serviceToLeader
  | .rtc m =>
    if s.leader = none then .reply
    else if s.isLeader g then if s.settles time m then .port else .reply
    else s.serviceToLeader

/-- The service goes through: the port does not fail, and nothing is handed back in a
timed group, where the handler puts `recvTime`, a number, into a frame. -/
def Service.Done (g : GroupParams) (err : Option ℕ) : Service → Prop
  | .reply => True
  | .port => err = none
  | .back => g.isTimed = false
  | .reject => False

/-! ### The operations -/

section Operations

variable {s : GroupThread Id}

omit [DecidableEq Id] in
/-- An answer, after operations that sent none and changed nothing else that matters. -/
theorem answered_sendComp {t : GroupThread Id} {m : CompMsg Id} (hm : m.isReply) (hr : t.replies = s.replies)
    (hstop : t.toStop = s.toStop) (hexc : t.exc = none) : Answered s (t.sendComp m) := by
  refine ⟨?_, hexc, hstop⟩
  rw [← hr]
  simp [replies, sendComp, Sent.isReply, hm]

omit [DecidableEq Id] in
/-- Operations that send no answer, after one. -/
theorem Answered.then_silent {t s' : GroupThread Id} (h : Answered s t) (hr : s'.replies = t.replies)
    (hexc : s'.exc = none) (hstop : s'.toStop = t.toStop) : Answered s s' :=
  ⟨by rw [hr, h.once], hexc, hstop.trans h.stays⟩

omit [DecidableEq Id] in
theorem not_answered_of_exc {s' : GroupThread Id} {x : PyExc} (h : s'.exc = some x) : ¬ Answered s s' :=
  fun ha => by cases h.symm.trans ha.running

omit [DecidableEq Id] in
theorem answered_forward (g : GroupParams) {m : CompMsg Id} (hm : m.isReply = false) (err : Option ℕ)
    (hs : s.exc = none) : Answered s ((s.sendComp .ack).forward g m) ↔ Service.Done g err .back := by
  simp only [forward, Service.Done]
  cases g.isTimed with
  | true => simpa using not_answered_of_exc rfl
  | false =>
    have h : Answered s (s.sendComp .ack) := answered_sendComp rfl rfl rfl hs
    have hsent : ((s.sendComp .ack).sendComp m).replies = (s.sendComp .ack).replies := by
      simp [replies, sendComp, List.countP_append, List.countP_cons, Sent.isReply, hm]
    simpa using h.then_silent hsent hs rfl

omit [DecidableEq Id] in
theorem answered_toLeader (g : GroupParams) (err : Option ℕ) (m : LeaderMsg) (hs : s.exc = none) :
    Answered s (s.toLeader err m) ↔ s.serviceToLeader.Done g err := by
  have hack : Answered s (s.sendComp .ack) := answered_sendComp rfl rfl rfl hs
  unfold toLeader serviceToLeader
  cases s.qryPort.serverHost with
  | none => exact iff_of_true hack trivial
  | some host =>
    cases s.qryPort.serverPort with
    | none => exact iff_of_true hack trivial
    | some port =>
      cases err with
      | none =>
        have hr : (s.sendQry m).replies = s.replies := by simp [replies, sendQry, Sent.isReply]
        exact iff_of_true (answered_sendComp rfl hr rfl hs) rfl
      | some errno => exact iff_of_false (not_answered_of_exc rfl) (Option.some_ne_none errno)

omit [DecidableEq Id] in
/-- A publication that is not an answer, after one. -/
theorem answered_sendGroup {err : Option ℕ} {t : GroupThread Id} (h : Answered s t) (m : GroupMsg Id) :
    Answered s (t.sendGroup err m) ↔ err = none := by
  cases err with
  | none =>
    exact iff_of_true (h.then_silent (by simp [replies, sendGroup, publish, Sent.isReply]) h.running rfl) rfl
  | some errno => exact iff_of_false (not_answered_of_exc rfl) (by simp)

omit [DecidableEq Id] in
/-- A request for a vote that is answered before the poll is started. -/
theorem answered_requestVote (g : GroupParams) (err : Option ℕ) (time : ℚ) (m : GroupVote) (member : Bytes)
    (hs : s.exc = none) :
    Answered s ((s.sendComp .ack).requestVote g err time m member) ↔
      Service.Done g err (match m with | .rfv _ => .port | _ => .reject) := by
  have hack : Answered s (s.sendComp .ack) := answered_sendComp rfl rfl rfl hs
  cases m with
  | rfv rfv =>
    simp only [requestVote, startPoll]
    generalize (if rfv.timeout = 0 then (g.groupConsensusTimeout : ℚ) else rfv.timeout) = timeout
    by_cases hlate : timeout < time - rfv.started
    · simp only [hlate, if_true, Bool.false_eq_true, if_false]
      exact answered_sendGroup hack _
    · simp only [hlate, if_false, if_true]
      have hset : ∀ polls, Answered s ((s.sendComp .ack).setPolls polls) := fun polls => hack.then_silent rfl hs rfl
      exact answered_sendGroup (hset _) _
  | rtc rtc => exact iff_of_false (not_answered_of_exc rfl) id
  | ann ann => exact iff_of_false (not_answered_of_exc rfl) id

omit [DecidableEq Id] in
/-- A vote that is counted: the announcement of the outcome can fail. -/
theorem updatePoll_spec (err : Option ℕ) (time : ℚ) (m : GroupVote) (hs : s.exc = none) :
    (s.updatePoll err time m).replies = s.replies ∧ (s.updatePoll err time m).toStop = s.toStop ∧
      (s.updatePoll err time m).exc = if s.settles time m then err.map .portError else none := by
  cases m with
  | rfv rfv => exact ⟨rfl, rfl, hs⟩
  | ann ann => exact ⟨rfl, rfl, hs⟩
  | rtc rtc =>
    cases hget : s.polls.get? rtc.rfvId with
    | none => simp only [updatePoll, settles, hget, hs, Bool.false_eq_true, if_false, and_self]
    | some poll =>
      cases hsettle : (poll.vote (rtc.vote = .yes)).settle time with
      | none => simp [updatePoll, settles, checkPoll_eq, hget, hsettle, setPolls, replies, hs]
      | some vote =>
        cases err with
        | none =>
          simp [updatePoll, settles, checkPoll_eq, hget, hsettle, announceConsensus, sendGroup, publish, setPolls,
            replies, Sent.isReply, hs]
        | some errno =>
          simp [updatePoll, settles, checkPoll_eq, hget, hsettle, announceConsensus, sendGroup, raise, setPolls,
            replies]

omit [DecidableEq Id] in
/-- A vote that is counted, and answered unless the announcement failed. -/
theorem answered_updatePoll (g : GroupParams) (err : Option ℕ) (time : ℚ) (m : GroupVote) (hs : s.exc = none) :
    Answered s (if (s.updatePoll err time m).exc = none then (s.updatePoll err time m).sendComp .ack
        else s.updatePoll err time m) ↔
      Service.Done g err (if s.settles time m then .port else .reply) := by
  obtain ⟨hr, hstop, hexc⟩ := updatePoll_spec err time m hs
  by_cases hsettle : s.settles time m
  · rw [if_pos hsettle] at hexc ⊢
    cases err with
    | none =>
      rw [Option.map_none] at hexc
      rw [if_pos hexc]
      exact iff_of_true (answered_sendComp rfl hr hstop hexc) rfl
    | some errno =>
      have hfail : (s.updatePoll (some errno) time m).exc ≠ none := by
        rw [hexc]
        exact Option.some_ne_none _
      rw [if_neg hfail]
      exact iff_of_false (not_answered_of_exc hexc) (Option.some_ne_none errno)
  · rw [if_neg hsettle] at hexc ⊢
    rw [if_pos hexc]
    exact iff_of_true (answered_sendComp rfl hr hstop hexc) trivial

end Operations

/-! ### Requests -/

/-- **Answers to requests.** A thread that serves a posted request answers it once and goes
on exactly when the service goes through. -/
theorem answered_iff (g : Member Id) (e : Env g.toGroupParams) (err : Option ℕ) {req : CompReq} {s : GroupThread Id}
    (hs : s.exc = none) (hreq : req.isPosted) :
    Answered s (s.handleCompMessage g e err req) ↔ (s.service g e.time req).Done g.toGroupParams err := by
  have hnld : Answered s (s.sendComp .nld) := answered_sendComp rfl rfl rfl hs
  cases req with
  | upd host port => cases hreq
  | mlt => cases hreq
  | msg payload =>
    cases err with
    | none =>
      have hr : (s.publish (.msg payload)).replies = s.replies := by simp [replies, publish, Sent.isReply]
      exact iff_of_true (answered_sendComp rfl hr rfl hs) rfl
    | some errno => exact iff_of_false (not_answered_of_exc rfl) (Option.some_ne_none errno)
  | mtl payload =>
    simp only [handleCompMessage, service]
    split_ifs
    · exact iff_of_true hnld trivial
    · exact answered_forward g.toGroupParams rfl err hs
    · exact answered_toLeader g.toGroupParams err _ hs
  | mfl payload identity =>
    simp only [handleCompMessage, service]
    split_ifs
    · exact iff_of_true hnld trivial
    · exact answered_forward g.toGroupParams rfl err hs
    · cases err with
      | none =>
        have hr : ((s.setIdentity identity).sendAns identity payload).replies = s.replies := by
          simp [replies, sendAns, setIdentity, Sent.isReply]
        exact iff_of_true (answered_sendComp rfl hr rfl hs) rfl
      | some errno => exact iff_of_false (not_answered_of_exc rfl) (Option.some_ne_none errno)
  | rfv m =>
    simp only [handleCompMessage, service]
    split_ifs
    · exact iff_of_true hnld trivial
    · exact answered_requestVote g.toGroupParams err e.time m [] hs
    · exact answered_toLeader g.toGroupParams err _ hs
  | rtc m =>
    simp only [handleCompMessage, service]
    by_cases hlead : s.leader = none
    · rw [if_pos hlead, if_pos hlead]
      exact iff_of_true hnld trivial
    · by_cases hown : s.isLeader g
      · simp only [hlead, hown, if_true, if_false]
        exact answered_updatePoll g.toGroupParams err e.time m hs
      · simp only [hlead, hown, if_false]
        exact answered_toLeader g.toGroupParams err _ hs

/-- A request to publish is answered where the publication succeeds. -/
theorem answered_at_start : Answered (start (Member.standard 0) (.least _ 0))
    ((start (Member.standard 0) (.least _ 0)).handleCompMessage (Member.standard 0) (.least _ 0) none (.msg [1])) :=
  (answered_iff (Member.standard 0) (.least _ 0) none (by decide +kernel) rfl).mpr rfl

/-- A request to publish, when the publish port fails with `EAGAIN`: no answer, and the
thread ends. -/
theorem unanswered_publication :
    let g : Member ℕ := Member.standard 0
    let s := start g (.least _ 0)
    let s' := s.handleCompMessage g (.least _ 0) (some 11) (.msg [1])
    s.exc = none ∧ CompReq.isPosted (.msg [1]) ∧ s'.replies = s.replies ∧ s'.exc = some (.portError 11) ∧
      ¬ Answered s s' := by
  decide +kernel

end GroupThread

end Riaps.Coordination
