import Riaps.Foundation.Runs
import Riaps.Coordination.Messages

/-!
# The component's side of a group

The part of a group that runs in the component's thread. A request goes to the
group thread over a pair socket (`send_port`), which then takes frames from the
socket until one is an answer; a frame that is not is a message, and is handled
on the spot: its payload is queued and the component's handler is called, which
reads it with `recv`. Frames that come when no request is waiting are handled by
the component's polling loop.

So handlers run inside waiting requests, and requests inside handlers. Both are
on a stack, and what the topmost does next is an event: what a handler does is
not known, and any program is some sequence of events.
-/

namespace Riaps.Component

open Riaps.Foundation Riaps.Coordination

universe u v

/-- A frame from the group thread: a message, and the times of its receipt and its sending, which it has
if the group is timed. -/
structure Frame (Id : Type u) where
  msg : CompMsg Id
  recvTime : Bytes
  sendTime : Bytes
  deriving DecidableEq

/-- What `send_port` is called with, by the operations of a group. -/
inductive Posting where
  /-- `GROUP_MSG`. -/
  | msg (payload : Bytes)
  /-- `GROUP_MTL`. -/
  | mtl (payload : Bytes)
  /-- `GROUP_MFL`, for the member with this identity or, without one, for the sender of the latest
  message to the leader. -/
  | mfl (payload : Bytes) (identity : Option Bytes)
  /-- `GROUP_RFV`. -/
  | rfv (m : GroupVote)
  /-- `GROUP_RTC`. -/
  | rtc (m : GroupVote)
  deriving DecidableEq

/-- How a call of `send_port` ends. -/
inductive Outcome where
  /-- It returns. -/
  | returned (res : Bool)
  /-- It raises: `PortError` takes two arguments and is given three, which raises a `TypeError`. -/
  | raised
  deriving DecidableEq

/-- How `send_port` ends when it takes a frame, if it does. -/
def outcome {Id : Type u} : CompMsg Id → Option Outcome
  | .ack => some (.returned true)
  | .nld => some (.returned false)
  | .err _ => some .raised
  | _ => none

/-- A call of a handler of the component. -/
inductive HandlerCall (Id : Type u) where
  /-- `handleGroupMessage`. -/
  | groupMessage
  /-- `handleMessageToLeader`. -/
  | messageToLeader
  /-- `handleMessageFromLeader`. -/
  | messageFromLeader
  /-- `handleActionVoteRequest`. -/
  | actionVoteRequest (rfvId : String) (when_ : ℚ)
  /-- `handleVoteRequest`. -/
  | voteRequest (rfvId : String)
  /-- `handleVoteResult`. -/
  | voteResult (rfvId : String) (vote : Vote)
  /-- `handleMemberJoined`. -/
  | memberJoined (memberId : Id)
  /-- `handleMemberLeft`. -/
  | memberLeft (memberId : Id)
  /-- `handleLeaderElected`. -/
  | leaderElected (leaderId : Id)
  /-- `handleLeaderExited`. -/
  | leaderExited (leaderId : Id)
  /-- Another handler: of a port, of another group, or of a control command. -/
  | other
  deriving DecidableEq

/-- What is on the stack of the component's thread. -/
inductive Activation (Id : Type u) where
  /-- A handler, with the payload of the message that it was called for, and whether it has called
  `recv` yet. -/
  | handler (call : HandlerCall Id) (payload : Option Bytes) (read : Bool)
  /-- `send_port`, waiting for the answer to a request, by number. -/
  | sendPort (request : ℕ)
  deriving DecidableEq

/-- What a call of `recv` or `recv_pyobj` gives. -/
inductive Received (Obj : Type v) where
  /-- Bytes. -/
  | bytes (b : Bytes)
  /-- An object. -/
  | object (x : Obj)
  /-- An exception: there is no message, or it is no pickle. -/
  | raised
  deriving DecidableEq

/-- A call of `recv` or `recv_pyobj`: the payload its handler was called for, and what it gave. -/
structure Read (Obj : Type v) where
  payload : Option Bytes
  isPyobj : Bool
  result : Received Obj
  deriving DecidableEq

/-- The component's side of a group. -/
structure Group (Id : Type u) (Obj : Type v) where
  /-- What waits on `compSocket`, in order. -/
  inbox : List (Frame Id)
  msgQueue : List Bytes
  identity : Option Bytes
  recvTime : Option Bytes
  sendTime : Option Bytes
  /-- The stack, topmost first. -/
  stack : List (Activation Id)
  /-- The requests posted so far. -/
  posted : List CompReq
  /-- The answers of the group thread so far, the first to the first request. -/
  answers : List (CompMsg Id)
  /-- The calls of `send_port` that have ended: the number of the request, and how. -/
  calls : List (ℕ × Outcome)
  /-- The calls of `recv` and `recv_pyobj` so far. -/
  reads : List (Read Obj)
  deriving DecidableEq

namespace Group

variable {Id : Type u} {Obj : Type v}

/-- The group when the component has joined it. -/
def init : Group Id Obj where
  inbox := []
  msgQueue := []
  identity := none
  recvTime := none
  sendTime := none
  stack := []
  posted := []
  answers := []
  calls := []
  reads := []

/-- The parent component's handler is called. -/
def invoke (call : HandlerCall Id) (payload : Option Bytes) (s : Group Id Obj) : Group Id Obj :=
  { s with stack := .handler call payload false :: s.stack }

/-- The payload is added to the queue. -/
def enqueue (payload : Bytes) (s : Group Id Obj) : Group Id Obj := { s with msgQueue := s.msgQueue ++ [payload] }

/-- `if self.isTimed`: the times are kept. -/
def keepTimes (isTimed : Bool) (f : Frame Id) (s : Group Id Obj) : Group Id Obj :=
  if isTimed then { s with recvTime := some f.recvTime, sendTime := some f.sendTime } else s

/-- `handleMessage`. -/
def handleMessage (isTimed : Bool) (f : Frame Id) (s : Group Id Obj) : Group Id Obj :=
  match f.msg with
  | .msg payload => ((s.enqueue payload).keepTimes isTimed f).invoke .groupMessage (some payload)
  | .mtl payload identity =>
    (({ s with identity := some identity }.enqueue payload).keepTimes isTimed f).invoke .messageToLeader (some payload)
  | .mfl payload => ((s.enqueue payload).keepTimes isTimed f).invoke .messageFromLeader (some payload)
  | .rcm m =>
    let s := s.keepTimes isTimed f
    match m with
    | .rfv rfv =>
      let s := s.enqueue rfv.topic
      match rfv.subject with
      | .action => s.invoke (.actionVoteRequest rfv.rfvId rfv.release) (some rfv.topic)
      | .value => s.invoke (.voteRequest rfv.rfvId) (some rfv.topic)
    | _ => s
  | .ann m =>
    let s := s.keepTimes isTimed f
    match m with
    | .ann ann => s.invoke (.voteResult ann.rfvId ann.vote) none
    | _ => s
  | .mjd memberId => s.invoke (.memberJoined memberId) none
  | .mlt memberId => s.invoke (.memberLeft memberId) none
  | .lel leaderId => s.invoke (.leaderElected leaderId) none
  | .lex leaderId => s.invoke (.leaderExited leaderId) none
  -- an answer that no request waits for
  | .ack | .nld | .err _ => s

/-- The request that `send_port` posts, with the identity that is kept: none if it is for a member and
there is no identity, by an `AssertionError`. -/
def Posting.request (identity : Option Bytes) : Posting → Option CompReq
  | .msg payload => some (.msg payload)
  | .mtl payload => some (.mtl payload)
  | .mfl payload _ => identity.map (.mfl payload)
  | .rfv m => some (.rfv m)
  | .rtc m => some (.rtc m)

/-- The identity that is kept: `sendToMember` keeps the one that it is given. -/
def Posting.keep (identity : Option Bytes) : Posting → Option Bytes
  | .mfl _ (some identity) => some identity
  | _ => identity

/-- `send_port`, until it waits. -/
def sendPort (p : Posting) (s : Group Id Obj) : Group Id Obj :=
  let s := { s with identity := Posting.keep s.identity p }
  match Posting.request s.identity p with
  | some req => { s with posted := s.posted ++ [req], stack := .sendPort s.posted.length :: s.stack }
  | none => s

/-- `send_port`, waiting for the answer to request `i`, takes a frame. -/
def awaitReply (isTimed : Bool) (i : ℕ) (f : Frame Id) (s : Group Id Obj) : Group Id Obj :=
  match outcome f.msg with
  | some o => { s with stack := s.stack.tail, calls := s.calls ++ [(i, o)] }
  | none => s.handleMessage isTimed f

/-- What `recv_msg` makes of a payload, `loads` being `pickle.loads`. -/
def receive (loads : Bytes → Option Obj) (isPyobj : Bool) (msg : Bytes) : Received Obj :=
  if isPyobj then
    match loads msg with
    | some x => .object x
    | none => .raised
  else .bytes msg

/-- `recv_msg`, called by a handler. -/
def recvMsg (loads : Bytes → Option Obj) (isPyobj : Bool) (payload : Option Bytes) (s : Group Id Obj) : Group Id Obj :=
  match s.msgQueue with
  | [] => { s with reads := s.reads ++ [⟨payload, isPyobj, .raised⟩] }
  | msg :: msgQueue =>
    { s with msgQueue := msgQueue, reads := s.reads ++ [⟨payload, isPyobj, receive loads isPyobj msg⟩] }

/-! ### Events -/

/-- What happens next. -/
inductive Event (Id : Type u) where
  /-- The group thread puts a frame into the socket. -/
  | put (f : Frame Id)
  /-- The polling loop calls `handleMessage`. -/
  | poll
  /-- Another handler is called, by the polling loop or by what the running handler does. -/
  | call
  /-- The running handler calls `send_port`. -/
  | sendPort (p : Posting)
  /-- The waiting `send_port` takes a frame. -/
  | wait
  /-- The running handler calls `recv` or `recv_pyobj`. -/
  | recv (isPyobj : Bool)
  /-- The running handler returns. -/
  | return_
  /-- An exception leaves the running handler. -/
  | raise
  deriving DecidableEq

/-- The group thread puts an answer only when a request has none. -/
def put (f : Frame Id) (s : Group Id Obj) : Group Id Obj :=
  if (outcome f.msg).isSome then
    if s.answers.length < s.posted.length then { s with inbox := s.inbox ++ [f], answers := s.answers ++ [f.msg] }
    else s
  else { s with inbox := s.inbox ++ [f] }

/-- One event; nothing happens if the stack, or the socket, is not ready for it. An exception that leaves
a handler leaves the `send_port` that called it, too. -/
def step (isTimed : Bool) (loads : Bytes → Option Obj) (s : Group Id Obj) : Event Id → Group Id Obj
  | .put f => s.put f
  | .poll =>
    match s.stack, s.inbox with
    | [], f :: inbox => { s with inbox := inbox }.handleMessage isTimed f
    | _, _ => s
  | .call =>
    match s.stack with
    | [] | .handler .. :: _ => s.invoke .other none
    | .sendPort _ :: _ => s
  | .sendPort p =>
    match s.stack with
    | .handler .. :: _ => s.sendPort p
    | _ => s
  | .wait =>
    match s.stack, s.inbox with
    | .sendPort i :: _, f :: inbox => { s with inbox := inbox }.awaitReply isTimed i f
    | _, _ => s
  | .recv isPyobj =>
    match s.stack with
    | .handler call payload _ :: stack =>
      { s with stack := .handler call payload true :: stack }.recvMsg loads isPyobj payload
    | _ => s
  | .return_ =>
    match s.stack with
    | .handler .. :: stack => { s with stack := stack }
    | _ => s
  | .raise =>
    match s.stack with
    | .handler .. :: .sendPort _ :: stack | .handler .. :: stack => { s with stack := stack }
    | _ => s

/-! ### What a message does -/

/-- The handler that a message is for, and the payload that it reads. -/
def handlerOf : CompMsg Id → Option (HandlerCall Id × Option Bytes)
  | .msg payload => some (.groupMessage, some payload)
  | .mtl payload _ => some (.messageToLeader, some payload)
  | .mfl payload => some (.messageFromLeader, some payload)
  | .rcm (.rfv rfv) =>
    match rfv.subject with
    | .action => some (.actionVoteRequest rfv.rfvId rfv.release, some rfv.topic)
    | .value => some (.voteRequest rfv.rfvId, some rfv.topic)
  | .ann (.ann ann) => some (.voteResult ann.rfvId ann.vote, none)
  | .mjd memberId => some (.memberJoined memberId, none)
  | .mlt memberId => some (.memberLeft memberId, none)
  | .lel leaderId => some (.leaderElected leaderId, none)
  | .lex leaderId => some (.leaderExited leaderId, none)
  | .rcm _ | .ann _ | .ack | .nld | .err _ => none

/-- The payload of a message, if it has one for a handler. -/
def payloadOf (m : CompMsg Id) : Option Bytes := (handlerOf m).bind Prod.snd

/-- What `handleMessage` does with a message: the handler that it is for is called, if there is one, and
its payload is queued, if it has one. -/
structure Handled (m : CompMsg Id) (s s' : Group Id Obj) : Prop where
  stack : s'.stack = ((handlerOf m).map fun h => .handler h.1 h.2 false).toList ++ s.stack
  msgQueue : s'.msgQueue = s.msgQueue ++ (payloadOf m).toList
  inbox : s'.inbox = s.inbox
  posted : s'.posted = s.posted
  answers : s'.answers = s.answers
  calls : s'.calls = s.calls
  reads : s'.reads = s.reads

section Handled

variable {m : CompMsg Id} {call : HandlerCall Id}

/-- A message for no handler. -/
theorem Handled.ignored (h : handlerOf m = none) (isTimed : Bool) (f : Frame Id) (s : Group Id Obj) :
    Handled m s (s.keepTimes isTimed f) := by
  unfold keepTimes
  split_ifs <;> exact ⟨by simp [h], by simp [payloadOf, h], rfl, rfl, rfl, rfl, rfl⟩

/-- A message that only calls its handler. -/
theorem Handled.called (h : handlerOf m = some (call, none)) (s : Group Id Obj) : Handled m s (s.invoke call none) :=
  ⟨by simp [h, invoke], by simp [payloadOf, h, invoke], rfl, rfl, rfl, rfl, rfl⟩

/-- The same, with times. -/
theorem Handled.announced (h : handlerOf m = some (call, none)) (isTimed : Bool) (f : Frame Id) (s : Group Id Obj) :
    Handled m s ((s.keepTimes isTimed f).invoke call none) := by
  unfold keepTimes
  split_ifs
  · exact ⟨by simp [h, invoke], by simp [payloadOf, h, invoke], rfl, rfl, rfl, rfl, rfl⟩
  · exact .called h s

/-- A message with a payload for its handler. -/
theorem Handled.queued {payload : Bytes} (h : handlerOf m = some (call, some payload)) (identity : Option Bytes)
    (isTimed : Bool) (f : Frame Id) (s : Group Id Obj) :
    Handled m s
      ((({ s with identity := identity }.enqueue payload).keepTimes isTimed f).invoke call (some payload)) := by
  unfold keepTimes
  split_ifs <;> exact ⟨by simp [h, invoke, enqueue], by simp [payloadOf, h, invoke, enqueue], rfl, rfl, rfl, rfl, rfl⟩

theorem enqueue_keepTimes (payload : Bytes) (isTimed : Bool) (f : Frame Id) (s : Group Id Obj) :
    (s.keepTimes isTimed f).enqueue payload = (s.enqueue payload).keepTimes isTimed f := by
  unfold keepTimes
  split_ifs <;> rfl

end Handled

theorem handled_handleMessage (isTimed : Bool) (f : Frame Id) (s : Group Id Obj) :
    Handled f.msg s (s.handleMessage isTimed f) := by
  unfold handleMessage
  cases hm : f.msg with
  | msg payload => exact .queued rfl s.identity isTimed f s
  | mtl payload identity => exact .queued rfl (some identity) isTimed f s
  | mfl payload => exact .queued rfl s.identity isTimed f s
  | rcm m =>
    cases m with
    | rfv rfv =>
      simp only [enqueue_keepTimes]
      cases hsubject : rfv.subject with
      | action => exact .queued (by simp [handlerOf, hsubject]) s.identity isTimed f s
      | value => exact .queued (by simp [handlerOf, hsubject]) s.identity isTimed f s
    | rtc rtc => exact .ignored rfl isTimed f s
    | ann ann => exact .ignored rfl isTimed f s
  | ann m =>
    cases m with
    | ann ann => exact .announced rfl isTimed f s
    | rtc rtc => exact .ignored rfl isTimed f s
    | rfv rfv => exact .ignored rfl isTimed f s
  | mjd memberId => exact .called rfl s
  | mlt memberId => exact .called rfl s
  | lel leaderId => exact .called rfl s
  | lex leaderId => exact .called rfl s
  | ack => exact .ignored rfl false f s
  | nld => exact .ignored rfl false f s
  | err errno => exact .ignored rfl false f s

end Group

end Riaps.Component
