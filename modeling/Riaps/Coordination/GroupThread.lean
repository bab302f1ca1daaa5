import Riaps.Foundation.Dict
import Riaps.Foundation.Runs
import Riaps.Coordination.Messages

/-!
# The group thread

The thread that runs one member of a coordinated group: its variables, the
ports it holds, its polls, and the handlers that its loop calls. A handler is a
function from the thread's state to its state; what it sends goes to the end of
the list `sent`, in the order of sending, across all sockets. An exception that
leaves a handler is kept in `exc`, with the state as it was when it was raised:
the loop of `run` does not catch it, and the thread ends.

A send of the ports `handleCompMessage` uses for the component's request may
fail (the parameter `err`); other sends succeed. Logging is left out, and so is
the `default` kind of group, which has no election and no polls.
-/

namespace Riaps.Coordination

open Riaps.Foundation

universe u

/-! ### Polls -/

/-- A poll that is running in the group leader. -/
structure Poll where
  topic : Bytes
  rfvId : String
  kind : Voting
  subject : Subject
  release : ℚ
  started : ℚ
  timeout : ℚ
  deadline : ℚ
  /-- The member that asked, empty for the leader's own component. -/
  member : Bytes
  numPeers : ℕ
  threshold : ℕ
  voteCnt : ℕ
  yesCnt : ℕ
  deriving DecidableEq

namespace Poll

/-- `Poll.__init__`. -/
def init (rfv : ReqForVote) (member : Bytes) (timeout deadline : ℚ) (numPeers : ℕ) : Poll where
  topic := rfv.topic
  rfvId := rfv.rfvId
  kind := rfv.kind
  subject := rfv.subject
  release := rfv.release
  started := rfv.started
  timeout := timeout
  deadline := deadline
  member := member
  numPeers := numPeers
  threshold := numPeers / 2 + 1
  voteCnt := 0
  yesCnt := 0

/-- Count one vote. -/
def vote (p : Poll) (vote : Bool) : Poll :=
  { p with voteCnt := p.voteCnt + 1, yesCnt := if vote then p.yesCnt + 1 else p.yesCnt }

/-- The voting has expired. -/
def expired (p : Poll) (now : ℚ) : Bool := p.deadline < now

/-- All peers voted. -/
def allVoted (p : Poll) : Bool := p.voteCnt = p.numPeers

/-- The majority, or all, voted yes. -/
def result (p : Poll) : Bool :=
  match p.kind with
  | .majority => p.threshold ≤ p.yesCnt
  | .consensus => p.yesCnt = p.numPeers

end Poll

/-! ### Ports -/

/-- The query port: the server it was given, and the servers its socket is
connected to, which are that one or none. -/
structure GroupQryPort where
  serverHost : Option String
  serverPort : Option ℕ
  /-- The connections of the socket. -/
  conns : List (String × ℕ)
  conns_eq : conns =
    match serverHost, serverPort with
    | some host, some port => [(host, port)]
    | _, _ => []

namespace GroupQryPort

/-- The port as it is set up. -/
def init : GroupQryPort := ⟨none, none, [], rfl⟩

/-- `update`: disconnect from the old server, connect to the new one. -/
def update (q : GroupQryPort) (host : Option String) (port : Option ℕ) : GroupQryPort :=
  if q.serverHost = host ∧ q.serverPort = port then q
  else
    let conns :=
      match q.serverHost, q.serverPort with
      | some oldHost, some oldPort => q.conns.erase (oldHost, oldPort)
      | _, _ => q.conns
    { serverHost := host
      serverPort := port
      conns :=
        match host, port with
        | some host, some port => conns ++ [(host, port)]
        | _, _ => conns
      conns_eq := by
        have hold : conns = [] := by
          simp only [conns, q.conns_eq]
          cases q.serverHost <;> cases q.serverPort <;> simp
        rw [hold]
        cases host <;> cases port <;> rfl }

@[simp] theorem serverHost_update (q : GroupQryPort) (host : Option String) (port : Option ℕ) :
    (q.update host port).serverHost = host := by
  unfold update
  split_ifs with h
  · exact h.1
  · rfl

@[simp] theorem serverPort_update (q : GroupQryPort) (host : Option String) (port : Option ℕ) :
    (q.update host port).serverPort = port := by
  unfold update
  split_ifs with h
  · exact h.2
  · rfl

/-- After `update(None, None)` the socket is connected to nothing. -/
@[simp] theorem conns_update_none (q : GroupQryPort) : (q.update none none).conns = [] := by
  rw [conns_eq]; simp

/-- After `update(host, port)` the socket is connected to that server alone. -/
@[simp] theorem conns_update_some (q : GroupQryPort) (host : String) (port : ℕ) :
    (q.update (some host) (some port)).conns = [(host, port)] := by
  rw [conns_eq]; simp

end GroupQryPort

/-- The answer port: who sent the last message, and the port number the socket is
bound to, `None` until the member is first elected. -/
structure GroupAnsPort where
  identity : Option Bytes
  portNum : Option ℕ
  deriving DecidableEq

/-! ### The thread -/

/-- The states of a member. -/
inductive MemberState where
  /-- `FOLLOWER`. -/
  | follower
  /-- `CANDIDATE`. -/
  | candidate
  /-- `LEADER`. -/
  | leader
  deriving DecidableEq

/-- What the thread sent, and on which socket; for a publication also the state
the member was in. -/
inductive Sent (Id : Type u) where
  /-- `pubPort.sendGroup`. -/
  | pub (state : MemberState) (m : GroupMsg Id)
  /-- `groupSocket.send_multipart`. -/
  | comp (m : CompMsg Id)
  /-- `qryPort.sendToLeader`. -/
  | qry (m : LeaderMsg)
  /-- `ansPort.sendToMember`. -/
  | ans (identity payload : Bytes)
  deriving DecidableEq

/-- The state of a group thread. -/
structure GroupThread (Id : Type u) where
  state : MemberState
  term : ℕ
  votes : ℕ
  votedFor : Option Id
  leader : Option Id
  leaderDeadline : Option ℚ
  ldrPort : Option ℕ
  timeout : ℤ
  lastWait : ℚ
  lastHeartbeat : ℚ
  peers : Dict Id ℚ
  numPeers : ℕ
  polls : Dict String Poll
  /-- The publishers the subscribe port is connected to. -/
  subServers : List (String × ℚ)
  qryPort : GroupQryPort
  ansPort : GroupAnsPort
  /-- What was sent so far, in order. -/
  sent : List (Sent Id)
  /-- The exception that ended the thread. -/
  exc : Option PyExc
  /-- The component has left the group. -/
  toStop : Bool

namespace GroupThread

variable {Id : Type u}

/-! ### What handlers do -/

/-- Raise an exception. -/
def raise (x : PyExc) (s : GroupThread Id) : GroupThread Id := { s with exc := some x }

/-- Publish a message. -/
def publish (m : GroupMsg Id) (s : GroupThread Id) : GroupThread Id :=
  { s with sent := s.sent ++ [Sent.pub s.state m] }

/-- `pubPort.sendGroup`, when the socket fails with `err`, if at all. -/
def sendGroup (err : Option ℕ) (m : GroupMsg Id) (s : GroupThread Id) : GroupThread Id :=
  match err with
  | none => s.publish m
  | some errno => s.raise (.portError errno)

/-- `groupSocket.send_multipart`, and with it `sendChangeMessage`. -/
def sendComp (m : CompMsg Id) (s : GroupThread Id) : GroupThread Id :=
  { s with sent := s.sent ++ [Sent.comp m] }

/-- `qryPort.socket.send_multipart`. -/
def sendQry (m : LeaderMsg) (s : GroupThread Id) : GroupThread Id := { s with sent := s.sent ++ [Sent.qry m] }

/-- `ansPort.socket.send_multipart`. -/
def sendAns (identity payload : Bytes) (s : GroupThread Id) : GroupThread Id :=
  { s with sent := s.sent ++ [Sent.ans identity payload] }

/-- The answer port's `set_identity`. -/
def setIdentity (identity : Bytes) (s : GroupThread Id) : GroupThread Id :=
  { s with ansPort := { s.ansPort with identity := some identity } }

/-- Change the dictionary of polls. -/
def setPolls (polls : Dict String Poll) (s : GroupThread Id) : GroupThread Id := { s with polls := polls }

/-- Pass a message on to the component. In a timed group the handlers call the
port's `recvTime`, which is a number, before they send. -/
def forward (g : GroupParams) (m : CompMsg Id) (s : GroupThread Id) : GroupThread Id :=
  if g.isTimed then s.raise .typeError else s.sendComp m

/-- `setLeaderDeadline`. -/
def setLeaderDeadline {g : GroupParams} (e : Env g) (s : GroupThread Id) : GroupThread Id :=
  { s with leaderDeadline := some (e.time + e.draw / 1000) }

/-- `setTimeout`. -/
def setTimeout (value : ℤ) (now : ℚ) (s : GroupThread Id) : GroupThread Id :=
  { s with timeout := value, lastWait := now }

/-- `updateTimeout`. -/
def updateTimeout (now : ℚ) (s : GroupThread Id) : GroupThread Id :=
  { s with timeout := max (s.timeout - pyInt ((now - s.lastWait) * 1000)) 1, lastWait := now }

/-- `threshold`: the votes that win an election. -/
def threshold (s : GroupThread Id) : ℕ := s.numPeers / 2 + 1

/-- `heartbeat`. -/
def heartbeat (g : Member Id) (now : ℚ) (s : GroupThread Id) : GroupThread Id :=
  if s.lastHeartbeat + g.groupHeartbeat / 1000 < now then
    { s.publish (.heartbeat g.ownId) with lastHeartbeat := now }
  else s

/-- `qryPort.update`. -/
def qryUpdate (host : Option String) (port : Option ℕ) (s : GroupThread Id) : GroupThread Id :=
  { s with qryPort := s.qryPort.update host port }

/-- Tell the component that the leader exited, if there was one. -/
def leaderExited (s : GroupThread Id) : GroupThread Id :=
  match s.leader with
  | some leader => s.sendComp (.lex leader)
  | none => s

/-- `self.numPeers = len(self.peers)`. -/
def countPeers (s : GroupThread Id) : GroupThread Id := { s with numPeers := s.peers.len }

variable [DecidableEq Id]

/-- `self.peers[peer] = now`. -/
def hearPeer (peer : Id) (now : ℚ) (s : GroupThread Id) : GroupThread Id := { s with peers := s.peers.set peer now }

/-- `isLeader`. -/
def isLeader (g : Member Id) (s : GroupThread Id) : Bool := s.leader = some g.ownId

/-- Set the leader, and tell the component if it is another one. -/
def setLeader (leader : Id) (s : GroupThread Id) : GroupThread Id :=
  if s.leader ≠ some leader then { s with leader := some leader }.sendComp (.lel leader)
  else { s with leader := some leader }

/-- One turn of the second loop of `updatePeers`. -/
def dropPeer (s : GroupThread Id) (leaver : Id) : GroupThread Id :=
  { s.sendComp (.mlt leaver) with peers := s.peers.del leaver }

/-- `updatePeers`: peers not heard from for too long drop out. -/
def updatePeers (g : GroupParams) (now : ℚ) (s : GroupThread Id) : GroupThread Id :=
  let leavers := (s.peers.items.filter fun p => g.groupPeerTimeout < pyInt ((now - p.2) * 1000)).map Prod.fst
  if 0 < leavers.length then (leavers.foldl dropPeer s).countPeers
  else s

omit [DecidableEq Id] in
/-- `announceConsensus`. -/
def announceConsensus (err : Option ℕ) (rfvId : String) (vote : Vote) (s : GroupThread Id) : GroupThread Id :=
  s.sendGroup err (.ann (.ann ⟨rfvId, vote⟩))

omit [DecidableEq Id] in
/-- `checkPoll`: whether the poll is done, and what the check does. -/
def checkPoll (err : Option ℕ) (poll : Poll) (now : ℚ) (s : GroupThread Id) : Bool × GroupThread Id :=
  if poll.expired now then (true, s.announceConsensus err poll.rfvId .timeout)
  else if poll.allVoted then
    (true, s.announceConsensus err poll.rfvId (if poll.result then .yes else .no))
  else (false, s)

omit [DecidableEq Id] in
/-- One turn of the loop of `checkAllPolls` over the items of `polls`. -/
def checkOne (now : ℚ) (acc : GroupThread Id × List String) (p : String × Poll) :
    GroupThread Id × List String :=
  let (done, s) := acc.1.checkPoll none p.2 now
  (s, if done then acc.2 ++ [p.1] else acc.2)

omit [DecidableEq Id] in
/-- `checkAllPolls`. -/
def checkAllPolls (now : ℚ) (s : GroupThread Id) : GroupThread Id :=
  let (s, toRemove) := s.polls.items.foldl (checkOne now) (s, [])
  s.setPolls (s.polls.delAll toRemove)

/-! ### Polls in the leader -/

omit [DecidableEq Id] in
/-- `startPoll`: whether the poll was started, and the state after it. -/
def startPoll (g : GroupParams) (time : ℚ) (m : GroupVote) (member : Bytes) (s : GroupThread Id) :
    Bool × GroupThread Id :=
  match m with
  | .rfv rfv =>
    let timeout := if rfv.timeout = 0 then (g.groupConsensusTimeout : ℚ) else rfv.timeout
    let delta := time - rfv.started
    if timeout < delta then (false, s)
    else
      let deadline := rfv.started + timeout - delta
      (true, s.setPolls (s.polls.set rfv.rfvId (Poll.init rfv member timeout deadline s.numPeers)))
  | _ => (false, s)

omit [DecidableEq Id] in
/-- What the leader does with a request for a vote, from its component or from a member. -/
def requestVote (g : GroupParams) (err : Option ℕ) (time : ℚ) (m : GroupVote) (member : Bytes)
    (s : GroupThread Id) : GroupThread Id :=
  let (ok, s) := s.startPoll g time m member
  if ok then s.sendGroup err (.rcm m)
  else
    match m with
    | .rfv rfv => s.announceConsensus err rfv.rfvId .timeout
    | _ => s.raise .assertionError

omit [DecidableEq Id] in
/-- `updatePoll`: count a vote. When the announcement fails the poll is not removed. -/
def updatePoll (err : Option ℕ) (time : ℚ) (m : GroupVote) (s : GroupThread Id) : GroupThread Id :=
  match m with
  | .rtc rtc =>
    match s.polls.get? rtc.rfvId with
    | some poll =>
      let poll := poll.vote (rtc.vote = .yes)
      let (done, s) := (s.setPolls (s.polls.set rtc.rfvId poll)).checkPoll err poll time
      if done ∧ s.exc = none then s.setPolls (s.polls.del rtc.rfvId) else s
    | none => s
  | _ => s

/-! ### Messages of the component -/

/-- Acknowledge a request to the leader that went out through the query port. A
query port without a server sends nothing, and the request is acknowledged all the same. -/
def toLeader (err : Option ℕ) (m : LeaderMsg) (s : GroupThread Id) : GroupThread Id :=
  match s.qryPort.serverHost, s.qryPort.serverPort with
  | some _, some _ =>
    match err with
    | none => (s.sendQry m).sendComp .ack
    | some errno => s.raise (.portError errno)
  | _, _ => s.sendComp .ack

/-- `handleCompMessage`: a message coming from the component. The `except` clauses
catch `ZMQError`, which the ports turn into `PortError` before it gets here. -/
def handleCompMessage (g : Member Id) (e : Env g.toGroupParams) (err : Option ℕ) (req : CompReq)
    (s : GroupThread Id) : GroupThread Id :=
  match req with
  | .upd host port =>
    if (host, port) ∈ s.subServers then s else { s with subServers := s.subServers ++ [(host, port)] }
  | .msg payload =>
    match err with
    | none => (s.publish (.msg payload)).sendComp .ack
    | some errno => s.raise (.portError errno)
  | .mtl payload =>
    if s.leader = none then s.sendComp .nld
    else if s.isLeader g then (s.sendComp .ack).forward g.toGroupParams (.mtl payload [])
    else s.toLeader err (.mtl payload)
  | .mfl payload identity =>
    if s.leader = none then s.sendComp .nld
    -- `self.isLeader` is not called here: the test is of the identity alone
    else if identity = [] then (s.sendComp .ack).forward g.toGroupParams (.mfl payload)
    else
      let s := s.setIdentity identity
      match err with
      | none => (s.sendAns identity payload).sendComp .ack
      | some errno => s.raise (.portError errno)
  | .rfv m =>
    if s.leader = none then s.sendComp .nld
    else if s.isLeader g then (s.sendComp .ack).requestVote g.toGroupParams err e.time m []
    else s.toLeader err (.rfv m)
  | .rtc m =>
    if s.leader = none then s.sendComp .nld
    else if s.isLeader g then
      let s := s.updatePoll err e.time m
      if s.exc = none then s.sendComp .ack else s
    else s.toLeader err (.rtc m)
  | .mlt =>
    let s := s.sendGroup err (.mlt g.ownId)
    if s.exc = none then { s with toStop := true } else s

/-! ### Timeouts -/

/-- `FOLLOWER --> CANDIDATE`: start a leader election. -/
def startElection (g : Member Id) (e : Env g.toGroupParams) (s : GroupThread Id) : GroupThread Id :=
  let s := s.leaderExited
  let s := { s with term := s.term + 1, state := .candidate, votes := 1, votedFor := some g.ownId }
  let s := s.qryUpdate none none
  if 2 ^ 32 ≤ s.term then s.raise .structError
  else
    let s := s.publish (.reqvote s.term g.ownId)
    let s := s.setTimeout e.election e.now
    { s with leaderDeadline := none, leader := none }

omit [DecidableEq Id] in
/-- `self.leaderDeadline and now > self.leaderDeadline`. -/
def pastLeaderDeadline (now : ℚ) (s : GroupThread Id) : Bool :=
  match s.leaderDeadline with
  | some deadline => deadline ≠ 0 ∧ deadline < now
  | none => false

/-- The `FOLLOWER` branch of `handleTimeout`. -/
def followerTimeout (g : Member Id) (e : Env g.toGroupParams) (s : GroupThread Id) : GroupThread Id :=
  if s.pastLeaderDeadline e.now then
    if g.groupSize / 2 + 1 < s.numPeers then s.startElection g e
    else (s.setLeaderDeadline e).setTimeout g.groupHeartbeat e.now
  else s.setTimeout g.groupHeartbeat e.now

/-- The `CANDIDATE` branch of `handleTimeout`: no election in time. -/
def candidateTimeout (g : Member Id) (e : Env g.toGroupParams) (s : GroupThread Id) : GroupThread Id :=
  let s := { s with state := .follower, votedFor := none }
  let s := s.leaderExited
  let s := { s with leader := none }.setTimeout g.groupHeartbeat e.now
  { s with leaderDeadline := none }

/-- The `LEADER` branch of `handleTimeout`: inform the members. -/
def leaderTimeout (g : Member Id) (e : Env g.toGroupParams) (s : GroupThread Id) : GroupThread Id :=
  if s.leader ≠ some g.ownId then s.raise .assertionError
  else
    match s.ldrPort with
    | none => s.raise .typeError
    | some port =>
      if 2 ^ 32 ≤ s.term then s.raise .structError
      else
        let s := s.publish (.authority s.term g.ownId g.host port)
        { s.setTimeout g.groupHeartbeat e.now with leaderDeadline := none }

/-- `handleTimeout`. -/
def handleTimeout (g : Member Id) (e : Env g.toGroupParams) (s : GroupThread Id) : GroupThread Id :=
  let s := (s.updatePeers g.toGroupParams e.now).checkAllPolls e.now
  match s.state with
  | .follower => s.followerTimeout g e
  | .candidate => s.candidateTimeout g e
  | .leader => s.leaderTimeout g e

/-! ### Messages of the group -/

/-- Take the sender of an `AUTHORITY` for the leader, as `FOLLOWER` and `CANDIDATE` do
and a `LEADER` in a conflict. -/
def acceptLeader (term : ℕ) (leader : Id) (host : Option String) (port : Option ℕ) (s : GroupThread Id) :
    GroupThread Id :=
  let s := { s with state := .follower, term := term }
  let s := s.setLeader leader
  { s with votedFor := none }.qryUpdate host port

/-- The `FOLLOWER` branch for `AUTHORITY`: the message of a leader. -/
def followerAuthority (g : Member Id) (e : Env g.toGroupParams) (term : ℕ) (leader : Id) (host port : ℕ)
    (s : GroupThread Id) : GroupThread Id :=
  let s := { s with term := term }.setLeader leader
  let s := { s with votedFor := none }.setTimeout e.election e.now
  let s := s.setLeaderDeadline e
  -- port 0 is `NO_LEADER`
  if port = 0 then s.qryUpdate none none else s.qryUpdate (some (compressed host)) (some port)

/-- The vote of a `FOLLOWER` in term `own` on a candidate `node` of term `term`: yes if it
has not voted, if the term is newer, or if it voted for this candidate. -/
def grantsVote (votedFor : Option Id) (own term : ℕ) (node : Id) : Bool :=
  match votedFor with
  | none => true
  | some candidate => if own < term then true else if node ≠ candidate then false else true

/-- The `FOLLOWER` branch for `REQVOTE`: a vote is requested. -/
def followerReqvote (g : Member Id) (e : Env g.toGroupParams) (term : ℕ) (node : Id) (s : GroupThread Id) :
    GroupThread Id :=
  let vote := grantsVote s.votedFor s.term term node
  let s := s.publish (.rspvote term node vote g.ownId)
  let s := { s with term := term }.leaderExited
  let s := { s with leaderDeadline := none, leader := none }.qryUpdate none none
  let s := if vote then { s with votedFor := some node } else s
  s.setTimeout e.election e.now

/-- The `CANDIDATE` branch for `REQVOTE`. -/
def candidateReqvote (g : Member Id) (e : Env g.toGroupParams) (term : ℕ) (node : Id) (s : GroupThread Id) :
    GroupThread Id :=
  let s :=
    if term = s.term then
      if node ≠ g.ownId then s.publish (.rspvote term node false g.ownId)
      else s
    else if s.term < term then
      let s := { s with state := .follower }.publish (.rspvote term node true g.ownId)
      let s := { s with term := term }.leaderExited
      { { s with leader := none }.qryUpdate none none with votedFor := some node }
    else s
  s.setTimeout e.election e.now

/-- `CANDIDATE --> LEADER`: the election is won. The answer port of a member that was
the leader before cannot be renewed: `updatePoller` looks up a misspelt attribute. -/
def winElection (g : Member Id) (e : Env g.toGroupParams) (s : GroupThread Id) : GroupThread Id :=
  let s := { s with state := .leader, leader := some g.ownId }.sendComp (.lel g.ownId)
  match s.ansPort.portNum with
  | some _ => s.raise .attributeError
  | none =>
    let s := { s with ansPort := { s.ansPort with portNum := some e.freePort }, ldrPort := some e.freePort }
    if 2 ^ 32 ≤ s.term then s.raise .structError
    else (s.publish (.authority s.term g.ownId g.host e.freePort)).setTimeout g.groupHeartbeat e.now

/-- The `CANDIDATE` branch for `RSPVOTE`: somebody's vote. Its term is not looked at. -/
def candidateRspvote (g : Member Id) (e : Env g.toGroupParams) (cand : Id) (vote : Bool) (s : GroupThread Id) :
    GroupThread Id :=
  if vote ∧ cand = g.ownId then
    let s := { s with votes := s.votes + 1 }
    if s.threshold ≤ s.votes then s.winElection g e else s
  else s

/-- The `CANDIDATE` branch for `AUTHORITY`: the election is lost. -/
def candidateAuthority (g : Member Id) (e : Env g.toGroupParams) (term : ℕ) (leader : Id) (host port : ℕ)
    (s : GroupThread Id) : GroupThread Id :=
  let s := s.acceptLeader term leader (some (compressed host)) (some port)
  (s.setTimeout e.election e.now).setLeaderDeadline e

/-- The `LEADER` branch for `AUTHORITY`: a conflict if it is another leader of the same term. -/
def leaderAuthority (g : Member Id) (e : Env g.toGroupParams) (term : ℕ) (leader : Id) (host port : ℕ)
    (s : GroupThread Id) : GroupThread Id :=
  if s.term = term ∧ g.ownId ≠ leader then
    let s := s.acceptLeader term leader (some (compressed host)) (some port)
    (s.setLeaderDeadline e).setTimeout e.election e.now
  else s.setTimeout g.groupHeartbeat e.now

/-- `handleNetMessage`: a message coming from the group. -/
def handleNetMessage (g : Member Id) (e : Env g.toGroupParams) (m : GroupMsg Id) (s : GroupThread Id) :
    GroupThread Id :=
  match m with
  | .msg payload =>
    let s := s.forward g.toGroupParams (.msg payload)
    if s.exc = none then s.updateTimeout e.now else s
  | .mlt leaver =>
    let s := (if leaver ∈ s.peers then s.dropPeer leaver else s).countPeers
    -- there is no `return` here: a leader goes on to set its timeout
    if s.state = .leader then s.setTimeout g.groupHeartbeat e.now else s
  | .heartbeat peer =>
    let s := if peer ∈ s.peers then s else s.sendComp (.mjd peer)
    (s.hearPeer peer e.now).countPeers.updateTimeout e.now
  | .rcm m =>
    let s := s.forward g.toGroupParams (.rcm m)
    if s.exc = none then (s.updateTimeout e.now).setLeaderDeadline e else s
  | .ann m =>
    let s := s.forward g.toGroupParams (.ann m)
    if s.exc = none then (s.updateTimeout e.now).setLeaderDeadline e else s
  | .reqvote term node =>
    match s.state with
    | .follower => s.followerReqvote g e term node
    | .candidate => s.candidateReqvote g e term node
    | .leader => s.setTimeout g.groupHeartbeat e.now
  | .rspvote _ cand vote _ =>
    match s.state with
    | .follower => s.setTimeout e.election e.now
    | .candidate => s.candidateRspvote g e cand vote
    | .leader => s.setTimeout g.groupHeartbeat e.now
  | .authority term leader host port =>
    match s.state with
    | .follower => s.followerAuthority g e term leader host port
    | .candidate => s.candidateAuthority g e term leader host port
    | .leader => s.leaderAuthority g e term leader host port

/-! ### Messages to and from the leader -/

omit [DecidableEq Id] in
/-- `handleMessageForLeader`: a message a member sent to the leader's answer port,
with the identity of the socket it came from. -/
def handleMessageForLeader (g : GroupParams) (time : ℚ) (identity : Bytes) (m : LeaderMsg)
    (s : GroupThread Id) : GroupThread Id :=
  let s := s.setIdentity identity
  match m with
  | .mtl payload => s.forward g (.mtl payload identity)
  | .rfv m => s.requestVote g none time m identity
  | .rtc m => s.updatePoll none time m

omit [DecidableEq Id] in
/-- `handleMessageForMember`: a message from the leader. -/
def handleMessageForMember (g : GroupParams) (payload : Bytes) (s : GroupThread Id) : GroupThread Id :=
  s.forward g (.mfl payload)

/-! ### The loop -/

omit [DecidableEq Id] in
/-- The thread when `run` has set it up and enters its loop. -/
def start (g : Member Id) (e : Env g.toGroupParams) : GroupThread Id :=
  let s : GroupThread Id :=
    { state := .follower, term := 0, votes := 0, votedFor := none, leader := none, leaderDeadline := none
      ldrPort := none, timeout := g.groupHeartbeat, lastWait := e.now, lastHeartbeat := 0
      peers := Dict.empty, numPeers := 0, polls := Dict.empty, subServers := [], qryPort := .init
      ansPort := ⟨none, none⟩, sent := [], exc := none, toStop := false }
  (s.heartbeat g e.now).setLeaderDeadline e

/-- What the loop does before it calls a handler. -/
def wake (g : Member Id) (now : ℚ) (s : GroupThread Id) : GroupThread Id :=
  (s.heartbeat g now).updatePeers g.toGroupParams now

end GroupThread

/-- The calls the loop makes. A message on the answer port is given with the member
that sent it, which no handler reads. -/
inductive Call (Id : Type u) (g : Member Id) where
  /-- The loop wakes up. -/
  | wake (e : Env g.toGroupParams)
  /-- Nothing came in time. -/
  | timeout (e : Env g.toGroupParams)
  /-- A message of the component, and how the port it needs fails, if it does. -/
  | comp (e : Env g.toGroupParams) (err : Option ℕ) (req : CompReq)
  /-- A message of the group. -/
  | net (e : Env g.toGroupParams) (m : GroupMsg Id)
  /-- A message on the answer port. -/
  | forLeader (e : Env g.toGroupParams) (sender : Id) (identity : Bytes) (m : LeaderMsg)
  /-- A message on the query port. -/
  | forMember (e : Env g.toGroupParams) (payload : Bytes)

/-- What came in during one pass of the loop, at most one message a socket, and what
the handler of each reads. -/
structure Events (Id : Type u) (g : Member Id) where
  comp : Option (Env g.toGroupParams × Option ℕ × CompReq)
  net : Option (Env g.toGroupParams × GroupMsg Id)
  forLeader : Option (Env g.toGroupParams × Id × Bytes × LeaderMsg)
  forMember : Option (Env g.toGroupParams × Bytes)

namespace GroupThread

variable {Id : Type u} [DecidableEq Id]

/-- One call. A thread that an exception has ended makes none. -/
def call (g : Member Id) (s : GroupThread Id) (c : Call Id g) : GroupThread Id :=
  if s.exc ≠ none then s
  else
    match c with
    | .wake e => s.wake g e.now
    | .timeout e => s.handleTimeout g e
    | .comp e err req => s.handleCompMessage g e err req
    | .net e m => s.handleNetMessage g e m
    | .forLeader e _ identity m => s.handleMessageForLeader g.toGroupParams e.time identity m
    | .forMember _ payload => s.handleMessageForMember g.toGroupParams payload

/-- The thread gets to state `s` by calls, of any kind and in any order. -/
def Reachable (g : Member Id) (s : GroupThread Id) : Prop := ∃ e cs, run (call g) (start g e) cs = s

omit [DecidableEq Id] in
/-- The calls of one pass of the loop of `run`. The time `now` is read once. -/
def pass (g : Member Id) (e : Env g.toGroupParams) (ev : Events Id g) : List (Call Id g) :=
  match ev with
  | ⟨none, none, none, none⟩ => [.wake e, .timeout e]
  | ⟨comp, net, forLeader, forMember⟩ =>
    .wake e :: (comp.map fun c => .comp c.1 c.2.1 c.2.2).toList ++
      (net.map fun m => .net { m.1 with now := e.now } m.2).toList ++
      (forLeader.map fun m => .forLeader m.1 m.2.1 m.2.2.1 m.2.2.2).toList ++
      (forMember.map fun m => .forMember m.1 m.2).toList

/-- The loop of `run`: pass after pass, until the component has left the group or an
exception ends the thread. -/
def loop (g : Member Id) (s : GroupThread Id) : List (Env g.toGroupParams × Events Id g) → GroupThread Id
  | [] => s
  | p :: ps =>
    let s := run (call g) s (pass g p.1 p.2)
    if s.toStop ∨ s.exc ≠ none then s else s.loop g ps

/-- **The loop is a run of calls**, those of its passes up to where it stops: what holds
of every run of calls holds of the thread. -/
theorem loop_eq_run (g : Member Id) (s : GroupThread Id) (ps : List (Env g.toGroupParams × Events Id g)) :
    ∃ cs, cs <+: (ps.flatMap fun p => pass g p.1 p.2) ∧ s.loop g ps = run (call g) s cs := by
  induction ps generalizing s with
  | nil => exact ⟨[], List.prefix_refl _, rfl⟩
  | cons p ps ih =>
    rw [loop, List.flatMap_cons]
    by_cases h : (run (call g) s (pass g p.1 p.2)).toStop ∨ (run (call g) s (pass g p.1 p.2)).exc ≠ none
    · exact ⟨pass g p.1 p.2, List.prefix_append _ _, if_pos h⟩
    · obtain ⟨cs, hcs, hrun⟩ := ih (run (call g) s (pass g p.1 p.2))
      refine ⟨pass g p.1 p.2 ++ cs, (List.prefix_append_right_inj _).mpr hcs, ?_⟩
      rw [run_append, ← hrun]
      exact if_neg h

end GroupThread

end Riaps.Coordination
