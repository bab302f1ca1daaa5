import Mathlib.Data.Rat.Floor

/-!
# The messages of a coordination group

The members of a coordination group exchange messages on four sockets: every
member publishes to all members of the group (itself among them), talks to its
own component over a pair socket, sends to the group's leader through its query
port, and, as leader, receives and answers through its answer port. This module
has the parameters of a group and the messages on each of these sockets.

A message is kept as the data it carries. A frame that does not unpack is not a
message. Identifiers of members, 16 bytes in the source, are of any type with
decidable equality; times are rational numbers of seconds.
-/

namespace Riaps.Coordination

universe u

/-- `bytes`. -/
abbrev Bytes := List UInt8

/-- `int(x)` of a number: towards zero. -/
def pyInt (x : ℚ) : ℤ := if 0 ≤ x then ⌊x⌋ else ⌈x⌉

/-! ### Parameters -/

/-- The parameters of a group, in milliseconds where they are times, with what
`Group.setupParams` and `joinGroup` assert of them. -/
structure GroupParams where
  /-- The size the component asked for when it joined. -/
  groupSize : ℕ
  /-- Messages carry time stamps. -/
  isTimed : Bool
  /-- Heartbeat period. -/
  groupHeartbeat : ℤ
  /-- Minimum leader election timeout. -/
  groupElectionMin : ℤ
  /-- Maximum leader election timeout. -/
  groupElectionMax : ℤ
  /-- A peer is lost after this timeout. -/
  groupPeerTimeout : ℤ
  /-- Deadline for a vote. -/
  groupConsensusTimeout : ℤ
  groupSize_pos : 1 ≤ groupSize
  heartbeat_pos : 0 < groupHeartbeat
  consensus_pos : 0 < groupConsensusTimeout
  heartbeat_lt : groupHeartbeat < groupElectionMin
  election_lt : groupElectionMin < groupElectionMax
  peer_lt : groupElectionMax < groupPeerTimeout
  consensus_lt : groupConsensusTimeout < groupElectionMax

theorem GroupParams.peer_pos (g : GroupParams) : 0 < g.groupPeerTimeout := by
  have := g.heartbeat_pos; have := g.heartbeat_lt; have := g.election_lt; have := g.peer_lt
  omega

/-- What the application model says of a type of group: the parameters it may leave out. -/
structure GroupSpec where
  timed : Bool
  heartbeat : Option ℤ
  electionMin : Option ℤ
  electionMax : Option ℤ
  peerTimeout : Option ℤ
  consensusTimeout : Option ℤ

/-- `modelParams.get(name, None) or value`: a parameter of 0 counts as left out. -/
def orDefault (param : Option ℤ) (value : ℤ) : ℤ :=
  match param with
  | some x => if x = 0 then value else x
  | none => value

/-- `setupParams`, with the assertion of `joinGroup`: `none` when an assertion fails. -/
def setupParams (groupSize : ℕ) (spec : GroupSpec) : Option GroupParams :=
  let heartbeat := orDefault spec.heartbeat 1000
  let electionMin := orDefault spec.electionMin 1500
  let electionMax := orDefault spec.electionMax 2000
  let peerTimeout := orDefault spec.peerTimeout 3000
  let consensusTimeout := orDefault spec.consensusTimeout 1500
  if h : 1 ≤ groupSize ∧ 0 < heartbeat ∧ 0 < consensusTimeout ∧ heartbeat < electionMin ∧
      electionMin < electionMax ∧ electionMax < peerTimeout ∧ consensusTimeout < electionMax then
    some
      { groupSize := groupSize
        isTimed := spec.timed
        groupHeartbeat := heartbeat
        groupElectionMin := electionMin
        groupElectionMax := electionMax
        groupPeerTimeout := peerTimeout
        groupConsensusTimeout := consensusTimeout
        groupSize_pos := h.1
        heartbeat_pos := h.2.1
        consensus_pos := h.2.2.1
        heartbeat_lt := h.2.2.2.1
        election_lt := h.2.2.2.2.1
        peer_lt := h.2.2.2.2.2.1
        consensus_lt := h.2.2.2.2.2.2 }
  else none

/-- The parameters of a group whose type leaves them all out. -/
def GroupParams.defaults (groupSize : ℕ) (h : 1 ≤ groupSize) : GroupParams where
  groupSize := groupSize
  isTimed := false
  groupHeartbeat := 1000
  groupElectionMin := 1500
  groupElectionMax := 2000
  groupPeerTimeout := 3000
  groupConsensusTimeout := 1500
  groupSize_pos := h
  heartbeat_pos := by decide
  consensus_pos := by decide
  heartbeat_lt := by decide
  election_lt := by decide
  peer_lt := by decide
  consensus_lt := by decide

/-- The defaults pass the assertions. -/
theorem setupParams_defaults {groupSize : ℕ} (h : 1 ≤ groupSize) :
    setupParams groupSize ⟨false, none, none, none, none, none⟩ = some (GroupParams.defaults groupSize h) :=
  dif_pos ⟨h, by decide, by decide, by decide, by decide, by decide, by decide⟩

/-- A member of a group: the group's parameters, its id and its host's address. -/
structure Member (Id : Type u) extends GroupParams where
  /-- `ownId`. -/
  ownId : Id
  /-- The IPv4 address of its host, as a number. -/
  host : ℕ

/-- A member on the local host, of a group with the default parameters, that joined
with the default size. -/
def Member.standard {Id : Type u} (ownId : Id) : Member Id :=
  { GroupParams.defaults 1 le_rfl with ownId := ownId, host := 0x7f000001 }

/-- What one call of a handler reads from outside: the time the loop passes on,
the reading of `time.time()`, the two random draws, and the port number a bind
would get. -/
structure Env (g : GroupParams) where
  /-- `now`, read by the loop before the handlers. -/
  now : ℚ
  /-- `time.time()`, read in the handler. -/
  time : ℚ
  /-- `electionTimeout()`. -/
  election : ℤ
  /-- The draw in `setLeaderDeadline`. -/
  draw : ℤ
  /-- What `bind_to_random_port` binds to. -/
  freePort : ℕ
  election_mem : g.groupElectionMin ≤ election ∧ election < g.groupElectionMax
  draw_mem : g.groupElectionMax ≤ draw ∧ draw < g.groupPeerTimeout
  freePort_mem : 49152 ≤ freePort ∧ freePort < 65536

/-- What a call reads at time `now` when every draw is the least it can be. -/
def Env.least (g : GroupParams) (now : ℚ) : Env g where
  now := now
  time := now
  election := g.groupElectionMin
  draw := g.groupElectionMax
  freePort := 49152
  election_mem := ⟨le_rfl, g.election_lt⟩
  draw_mem := ⟨le_rfl, g.peer_lt⟩
  freePort_mem := ⟨le_rfl, by decide⟩

/-- `ipaddress.IPv4Address(host).compressed`. -/
def compressed (host : ℕ) : String :=
  ".".intercalate ([host / 2 ^ 24, host / 2 ^ 16, host / 2 ^ 8, host].map fun b => toString (b % 256))

/-! ### Polls on the wire -/

/-- The outcome of a poll, or a vote. -/
inductive Vote where
  /-- `yes`. -/
  | yes
  /-- `no`. -/
  | no
  /-- `timeout`. -/
  | timeout
  deriving DecidableEq

/-- How a poll is decided. -/
inductive Voting where
  /-- More than half. -/
  | majority
  /-- All. -/
  | consensus
  deriving DecidableEq

/-- What a poll is about. -/
inductive Subject where
  /-- A value. -/
  | value
  /-- An action to be taken. -/
  | action
  deriving DecidableEq

/-- A request for a vote. -/
structure ReqForVote where
  topic : Bytes
  rfvId : String
  kind : Voting
  subject : Subject
  release : ℚ
  started : ℚ
  timeout : ℚ
  deriving DecidableEq

/-- A vote on a request. -/
structure RepToVote where
  rfvId : String
  vote : Vote
  deriving DecidableEq

/-- The outcome of a request. -/
structure AnnounceVote where
  rfvId : String
  vote : Vote
  deriving DecidableEq

/-- The union that carries the three. -/
inductive GroupVote where
  /-- A request for a vote. -/
  | rfv (m : ReqForVote)
  /-- A vote. -/
  | rtc (m : RepToVote)
  /-- An outcome. -/
  | ann (m : AnnounceVote)
  deriving DecidableEq

/-! ### Messages -/

/-- A message on the group's publish and subscribe ports. -/
inductive GroupMsg (Id : Type u) where
  /-- Data for the components. -/
  | msg (payload : Bytes)
  /-- A member leaves. -/
  | mlt (leaver : Id)
  /-- `HEARTBEAT`: `{ ownId }`. -/
  | heartbeat (peer : Id)
  /-- `REQVOTE`: `{ term ; ownId }`. -/
  | reqvote (term : ℕ) (node : Id)
  /-- `RSPVOTE`: `{ term; candId; bool; ownId }`. -/
  | rspvote (term : ℕ) (cand : Id) (vote : Bool) (node : Id)
  /-- `AUTHORITY`: `{ term; ldrId; ldrHost; ldrPort }`. -/
  | authority (term : ℕ) (leader : Id) (host port : ℕ)
  /-- A request for a vote, from the leader. -/
  | rcm (m : GroupVote)
  /-- The outcome of a vote, from the leader. -/
  | ann (m : GroupVote)
  deriving DecidableEq

/-- A request of the component to its group thread. -/
inductive CompReq where
  /-- A publisher to subscribe to, from the discovery service. -/
  | upd (host : String) (port : ℚ)
  /-- Publish data. -/
  | msg (payload : Bytes)
  /-- A message to the leader. -/
  | mtl (payload : Bytes)
  /-- A message from the leader to the member with this identity. -/
  | mfl (payload : Bytes) (identity : Bytes)
  /-- A request for a vote. -/
  | rfv (m : GroupVote)
  /-- A vote. -/
  | rtc (m : GroupVote)
  /-- The component leaves the group. -/
  | mlt
  deriving DecidableEq

/-- A message of the group thread to its component. -/
inductive CompMsg (Id : Type u) where
  /-- The request was carried out. -/
  | ack
  /-- The group has no leader. -/
  | nld
  /-- The request failed. -/
  | err (errno : ℕ)
  /-- Data from a member. -/
  | msg (payload : Bytes)
  /-- A message to the leader, and who sent it. -/
  | mtl (payload identity : Bytes)
  /-- A message from the leader. -/
  | mfl (payload : Bytes)
  /-- A request for a vote. -/
  | rcm (m : GroupVote)
  /-- The outcome of a vote. -/
  | ann (m : GroupVote)
  /-- A member joined. -/
  | mjd (id : Id)
  /-- A member left. -/
  | mlt (id : Id)
  /-- A leader was elected. -/
  | lel (id : Id)
  /-- The leader exited. -/
  | lex (id : Id)
  deriving DecidableEq

/-- A message of a member to the leader. -/
inductive LeaderMsg where
  /-- A message for the leader's component. -/
  | mtl (payload : Bytes)
  /-- A request for a vote. -/
  | rfv (m : GroupVote)
  /-- A vote. -/
  | rtc (m : GroupVote)
  deriving DecidableEq

/-- The exceptions that end a handler. -/
inductive PyExc where
  /-- `PortError`, which the ports raise when a socket fails. -/
  | portError (errno : ℕ)
  /-- `struct.error`: a number does not fit its field. -/
  | structError
  /-- `AssertionError`. -/
  | assertionError
  /-- `AttributeError`. -/
  | attributeError
  /-- `TypeError`. -/
  | typeError
  deriving DecidableEq

end Riaps.Coordination
