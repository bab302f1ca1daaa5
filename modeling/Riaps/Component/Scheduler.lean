import Mathlib.Data.List.Sort
import Mathlib.Data.Int.Order.Basic
import Riaps.Foundation.Runs
import Riaps.Foundation.Dict

/-!
# The schedulers of a component

The thread of a component polls the sockets of its input ports and groups and the
control socket, and hands the sockets that have messages to a scheduler, which
queues a job for each and runs the handlers of the jobs one after another. Between
two handlers it polls again. The round-robin scheduler keeps the jobs in a deque,
the priority scheduler in a heap.

The poller is level-triggered: it reports a socket as long as it has a message.
A handler receives one message from its socket, and waits for it if there is
none. What the thread does next is determined by where it is (`Pc`); messages and
commands arrive at any time, and sockets come and go as ports are reset and
groups are joined and left.
-/

namespace Riaps.Component

open Riaps.Foundation

universe u

variable {S : Type u}

/-- A message on the control socket. -/
inductive Control where
  /-- `kill`. -/
  | kill
  /-- Another command. -/
  | other
  /-- A command whose handler raises an `IndexError`, which the schedulers catch. -/
  | indexError
  /-- A command whose handler raises another exception, which ends the thread. -/
  | raising
  deriving DecidableEq

/-- `schedulerType`, where it is one of these. -/
inductive SchedulerType where
  | rr
  | priority
  deriving DecidableEq

/-- A scheduler with its queue. -/
inductive Scheduler (S : Type u) : Type u where
  /-- `rrScheduler`: `dq`, the left end first, of tags and sockets, and `last`. -/
  | rr (dq : List (ℤ × S)) (last : ℤ)
  /-- `priorityScheduler`: `pq`, in the order in which its entries come out, of priorities, counts and
  sockets, and the next count. -/
  | priority (pq : List (ℤ × ℕ × S)) (tc : ℕ)
  deriving DecidableEq

/-- Where the thread is. -/
inductive Pc (S : Type u) : Type u where
  /-- In `run`, before it polls. -/
  | polling
  /-- In the scheduler, before sockets are queued. -/
  | scheduling (sockets : List S)
  /-- Before a job is taken from the queue. -/
  | dispatching
  /-- In the handler of a socket, before it has received its message. -/
  | handling (socket : S)
  /-- Between two handlers, before the scheduler polls. -/
  | repolling
  /-- Stopped. -/
  | stopped
  /-- Ended by an exception. -/
  | failed
  deriving DecidableEq

/-- The state of a `ComponentThread`. -/
structure ComponentThread (S : Type u) where
  /-- `sock2PrioMap`: the sockets that the poller has, with their tags. -/
  sock2PrioMap : Dict S ℤ
  /-- The messages that have arrived, by socket, in order. -/
  arrivals : List S
  /-- The handlers that were invoked, by socket, in order. -/
  invocations : List S
  /-- The commands on the control socket. -/
  control : List Control
  scheduler : Scheduler S
  /-- The variable `tag`, or `pri`, of the scheduler. -/
  tag : Option ℤ
  pc : Pc S

namespace Scheduler

/-- `setupScheduler`. -/
def setupScheduler : SchedulerType → Scheduler S
  | .rr => .rr [] (-1)
  | .priority => .priority [] 0

/-- The sockets with a job in the queue. -/
def sockets : Scheduler S → List S
  | .rr dq _ => dq.map Prod.snd
  | .priority pq _ => pq.map fun e => e.2.2

/-- `sorted(jobs)`: two jobs with one tag are compared by their sockets, which raises a `TypeError`. -/
def sortJobs (jobs : List (ℤ × S)) : Option (List (ℤ × S)) :=
  if (jobs.map Prod.fst).Nodup then some (jobs.insertionSort fun a b => a.1 ≤ b.1) else none

/-- `jobs[-first:] + jobs[0:first]`: for 0, `jobs[-0:]` is the whole list. -/
def shuffle (first : ℕ) (jobs : List (ℤ × S)) : List (ℤ × S) :=
  (if first = 0 then jobs else jobs.drop (jobs.length - first)) ++ jobs.take first

/-- The jobs of a round of `rrScheduler`, sorted, in the order in which they are added to the deque. -/
def rrOrder (dq : List (ℤ × S)) (last : ℤ) (jobs : List (ℤ × S)) : List (ℤ × S) :=
  if jobs.length ≠ 1 ∧ dq ≠ [] then
    match jobs.findIdx? fun job => job.1 > last with
    | some first => shuffle first jobs
    | none => jobs
  else jobs

/-- `last` after the jobs were added. -/
def rrLast (dq : List (ℤ × S)) (last : ℤ) (jobs : List (ℤ × S)) : ℤ :=
  if jobs.length ≠ 1 ∧ dq = [] then
    match jobs.getLast? with
    | some job => job.1
    | none => last
  else last

/-- `heapq.heappush`: an entry comes out before those that are greater. -/
def heappush (e : ℤ × ℕ × S) : List (ℤ × ℕ × S) → List (ℤ × ℕ × S)
  | [] => [e]
  | e' :: pq => if e.1 < e'.1 ∨ e.1 = e'.1 ∧ e.2.1 < e'.2.1 then e :: e' :: pq else e' :: heappush e pq

/-- The entries of a round of `priorityScheduler` are pushed, each with the next count. -/
def pushAll (pq : List (ℤ × ℕ × S)) (tc : ℕ) : List (ℤ × S) → Scheduler S
  | [] => .priority pq tc
  | job :: jobs => pushAll (heappush (job.1, tc, job.2) pq) (tc + 1) jobs

/-- The jobs of a round are queued: `none` when the sort raises. -/
def add (jobs : List (ℤ × S)) : Scheduler S → Option (Scheduler S)
  | .rr dq last =>
    match sortJobs jobs with
    -- `extendleft` adds them one by one at the left
    | some jobs => some (.rr ((rrOrder dq last jobs).reverse ++ dq) (rrLast dq last jobs))
    | none => none
  | .priority pq tc => some (pushAll pq tc jobs)

/-- The next job: its tag, or priority, its socket, and the scheduler without it. -/
def pop : Scheduler S → Option (ℤ × S × Scheduler S)
  | .rr dq _ =>
    match dq.getLast? with
    | some (tag, socket) =>
      some (tag, socket, .rr dq.dropLast ((dq.dropLast.head?.map Prod.fst).getD tag))
    | none => none
  | .priority [] _ => none
  | .priority ((pri, _, socket) :: pq) tc => some (pri, socket, .priority pq tc)

/-- The inner loop is left, for sockets to be queued, only after a command. -/
def breaksAfterControl : Scheduler S → Bool
  | .rr .. => true
  | .priority .. => false

end Scheduler

namespace ComponentThread

variable [DecidableEq S]

/-- The thread when it starts its loop, with the ports' sockets. -/
def init (schedulerType : SchedulerType) (sock2PrioMap : Dict S ℤ) : ComponentThread S where
  sock2PrioMap := sock2PrioMap
  arrivals := []
  invocations := []
  control := []
  scheduler := .setupScheduler schedulerType
  tag := none
  pc := .polling

/-- The messages that a socket has. -/
def pending (s : ComponentThread S) (socket : S) : ℕ := s.arrivals.count socket - s.invocations.count socket

/-- The sockets, but for the control socket, that a poll reports. -/
def ready (s : ComponentThread S) : List S := s.sock2PrioMap.keys.filter fun socket => 0 < s.pending socket

/-- The jobs of the sockets that were reported, with the variable `tag`: a socket that is no longer there
gets the tag of the one before, and none when the variable has no value. -/
def jobsOf (sock2PrioMap : Dict S ℤ) : Option ℤ → List S → Option (Option ℤ × List (ℤ × S))
  | tag, [] => some (tag, [])
  | tag, socket :: sockets =>
    match (sock2PrioMap.get? socket).or tag with
    | some t => (jobsOf sock2PrioMap (some t) sockets).map fun r => (r.1, (t, socket) :: r.2)
    | none => none

/-- `runCommand`, with what the thread does after it, and what it does after an `IndexError`. -/
def runCommand (next caught : Pc S) (s : ComponentThread S) : ComponentThread S :=
  match s.control with
  | .kill :: control => { s with control := control, pc := .stopped }
  | .other :: control => { s with control := control, pc := next }
  | .indexError :: control => { s with control := control, pc := caught }
  | .raising :: control => { s with control := control, pc := .failed }
  | [] => s

/-- The scheduler returns to `run` when the queue is empty, and polls otherwise. -/
def afterJob (s : ComponentThread S) : ComponentThread S :=
  { s with pc := if s.scheduler.sockets = [] then .polling else .repolling }

/-- `executeHandlerFor`: an unbound socket is passed over. -/
def executeHandlerFor (socket : S) (s : ComponentThread S) : ComponentThread S :=
  if socket ∈ s.sock2PrioMap then { s with invocations := s.invocations ++ [socket], pc := .handling socket }
  else s.afterJob

/-- What the thread does next. -/
def proceed (s : ComponentThread S) : ComponentThread S :=
  match s.pc with
  | .polling =>
    let next := if s.ready = [] then .polling else .scheduling s.ready
    if s.control = [] then { s with pc := next, tag := none } else { s with tag := none }.runCommand next .failed
  | .scheduling sockets =>
    match jobsOf s.sock2PrioMap s.tag sockets with
    | none => { s with pc := .failed }
    | some (tag, jobs) =>
      match s.scheduler.add jobs with
      | none => { s with pc := .failed }
      | some scheduler => { s with scheduler := scheduler, tag := tag, pc := .dispatching }
  | .dispatching =>
    match s.scheduler.pop with
    | none => { s with pc := .polling }
    | some (tag, socket, scheduler) => { s with scheduler := scheduler, tag := some tag }.executeHandlerFor socket
  | .handling socket => if s.invocations.count socket ≤ s.arrivals.count socket then s.afterJob else s
  | .repolling =>
    let next := if s.ready = [] then .dispatching else .scheduling s.ready
    if s.control = [] then
      if s.ready = [] then s
      else { s with pc := if s.scheduler.breaksAfterControl then .dispatching else next }
    else s.runCommand next .polling
  | .stopped | .failed => s

/-- What happens. -/
inductive Event (S : Type u) : Type u where
  /-- A message arrives on a socket. -/
  | arrive (socket : S)
  /-- A command arrives. -/
  | command (c : Control)
  /-- The socket of a port or a group is registered. -/
  | register (socket : S) (tag : ℤ)
  /-- A socket is unregistered. -/
  | unregister (socket : S)
  /-- The thread proceeds. -/
  | proceed
  deriving DecidableEq

/-- One event. -/
def step (s : ComponentThread S) : Event S → ComponentThread S
  | .arrive socket => { s with arrivals := s.arrivals ++ [socket] }
  | .command c => { s with control := s.control ++ [c] }
  | .register socket tag => { s with sock2PrioMap := s.sock2PrioMap.set socket tag }
  | .unregister socket => { s with sock2PrioMap := s.sock2PrioMap.del socket }
  | .proceed => s.proceed

end ComponentThread

end Riaps.Component
