import Riaps.Foundation.Runs
import Mathlib.Tactic.Common

/-!
# The threads that watch over limits

An actor with a limit on its processor time or on its memory has a thread that watches over it and
sends the actor a notice when the limit is exceeded. The manager starts the thread with the actor,
stops it with the actor, starts it again, and ends it when the app is cleaned up. The two talk by
flags, `running`, `stopped` and `terminated`, and each may wait for a flag of the other.

A wait for a flag has two steps: the flag is looked at, and if it is not set the thread sleeps until
someone sets it, were it only for a moment. The thread that watches over memory sleeps in a read of
an event counter, to which the kernel adds, and also whoever wants to wake the thread.
-/

namespace Riaps.Deployment

open Riaps.Foundation

/-- `CPUMonitorThread` and `MemMonitorThread`. -/
inductive LimitKind where
  | cpu
  | mem
  deriving DecidableEq

/-- What the thread has found. -/
inductive Reading where
  /-- No load at all, which the next statement passes over. -/
  | zero
  | low
  /-- The limit is exceeded. -/
  | high
  /-- The counter was not zero, but the kernel has added nothing to it. -/
  | woken
  deriving DecidableEq

/-- Where the thread is in `run`. -/
inductive ThreadPc where
  /-- Not started. -/
  | fresh
  /-- Started, before `alive` is set. -/
  | starting
  /-- In the first measurement. -/
  | warm
  /-- At the head of the loop. -/
  | top
  /-- `running` was not set; `stopped` is to be set. -/
  | mark
  /-- At `running.wait`. -/
  | park
  /-- Asleep there. -/
  | asleep
  /-- At the first test of `terminated`. -/
  | test₁
  /-- In `cpu_percent`, or in the read of the counter. -/
  | work
  /-- At the second test of `terminated`. -/
  | test₂ (r : Reading)
  /-- At the second look at `running`, which only the one for memory takes. -/
  | again (r : Reading)
  /-- Before the notice is sent. -/
  | send (r : Reading)
  /-- At the last test of `terminated`. -/
  | test₃
  | ended
  deriving DecidableEq

/-- Where the manager is with the thread. -/
inductive ManagerPc where
  | idle
  /-- In `restart`, after `stopped.clear`. -/
  | restart
  /-- In `stop`, after `running.clear`. -/
  | stop
  /-- At `stopped.wait`. -/
  | wait
  /-- Asleep there. -/
  | asleep
  /-- In `terminate`, after `terminated.set`. -/
  | terminate
  /-- At the test of `stopped`. -/
  | release
  /-- After `stopped.clear`. -/
  | resume
  | join
  /-- The thread is no longer known. -/
  | done
  deriving DecidableEq

/-- A thread, and the manager as far as it deals with the thread. -/
structure LimitMonitor where
  running : Bool
  stopped : Bool
  terminated : Bool
  alive : Bool
  /-- `started` of the actor. -/
  started : Bool
  /-- What the kernel has added to the counter. -/
  limits : ℕ
  /-- What `stop` and `terminate` have added to it. -/
  wakes : ℕ
  thread : ThreadPc
  manager : ManagerPc
  /-- `start` was called of a thread that had been started. -/
  raised : Bool

namespace LimitMonitor

/-- What happens. -/
inductive Event where
  /-- The thread takes a step, other than one that follows. -/
  | step
  /-- `cpu_percent` returns. -/
  | measure (r : Reading)
  /-- The counter is read, if it is not zero. -/
  | read
  /-- The thread is ended by an exception, such as `cpu_percent` raises when the process is gone. -/
  | fail
  /-- The kernel adds to the counter. -/
  | limit
  /-- `startActor`. -/
  | startActor
  /-- `stopActor`. -/
  | stopActor
  /-- `cleanupActor`. -/
  | cleanupActor
  /-- The manager takes its next step. -/
  | go
  deriving DecidableEq

/-- What the thread does. -/
inductive Output where
  | measured
  /-- The notice that the limit is exceeded, with what it is about. -/
  | notice (r : Reading)
  deriving DecidableEq

/-- The thread is made. -/
def init : LimitMonitor where
  running := true
  stopped := false
  terminated := false
  alive := false
  started := false
  limits := 0
  wakes := 0
  thread := .fresh
  manager := .idle
  raised := false

/-- `running.set`. -/
def setRunning (s : LimitMonitor) : LimitMonitor :=
  { s with running := true, thread := if s.thread = .asleep then .test₁ else s.thread }

/-- `stopActor` is over. -/
def stopReturns (s : LimitMonitor) : LimitMonitor := { s with manager := .idle, started := false }

/-- `stopped.set`. -/
def setStopped (s : LimitMonitor) : LimitMonitor :=
  if s.manager = .asleep then { s with stopped := true }.stopReturns else { s with stopped := true }

/-- `efd.increment`; the thread for the processor has no counter. -/
def increment (k : LimitKind) (s : LimitMonitor) : LimitMonitor :=
  match k with
  | .cpu => s
  | .mem => { s with wakes := s.wakes + 1 }

/-- The thread goes on at `pc`, or ends if it is terminated. -/
def unlessTerminated (pc : ThreadPc) (s : LimitMonitor) : LimitMonitor :=
  { s with thread := if s.terminated then .ended else pc }

/-- `CPUMonitorThread.run` and `MemMonitorThread.run`, a step that always can be taken. -/
def run₁ (k : LimitKind) (s : LimitMonitor) : LimitMonitor :=
  match s.thread with
  | .starting =>
    { s with
      alive := true
      thread := match k with | .cpu => .warm | .mem => .top }
  | .warm => { s with thread := .top }
  | .top => { s with thread := if s.running then .test₁ else .mark }
  | .mark => { s with thread := .park }.setStopped
  | .park => { s with thread := if s.running then .test₁ else .asleep }
  | .test₁ => s.unlessTerminated .work
  | .test₂ r =>
    s.unlessTerminated (match k, r with
      | .mem, r => .again r
      | .cpu, .zero => .top
      | .cpu, .low => .test₃
      | .cpu, r => .send r)
  | .again r => { s with thread := if s.running then .send r else .top }
  | .send _ => { s with thread := .test₃ }
  | .test₃ => s.unlessTerminated .top
  | .fresh | .asleep | .work | .ended => s

/-- `restart`, `stop`, `terminate` and `join`, from their second statements on. -/
def go (k : LimitKind) (s : LimitMonitor) : LimitMonitor :=
  match s.manager with
  | .restart => { s.setRunning with manager := .idle, started := true }
  | .stop => { s.increment k with manager := .wait }
  | .wait => if s.stopped then s.stopReturns else { s with manager := .asleep }
  | .terminate => { s.increment k with manager := .release }
  | .release => if s.stopped then { s with stopped := false, manager := .resume } else { s with manager := .join }
  | .resume => { s.setRunning with manager := .join }
  | .join => if s.thread = .ended then { s with manager := .done } else s
  | .idle | .asleep | .done => s

/-- `startActor`. -/
def startActor (s : LimitMonitor) : LimitMonitor :=
  if s.alive then { s with stopped := false, manager := .restart }
  else if s.thread = .fresh then { s with thread := .starting, started := true }
  else { s with raised := true }

/-- `stopActor`. -/
def stopActor (s : LimitMonitor) : LimitMonitor :=
  if s.started then { s with running := false, manager := .stop } else s

/-- `cleanupActor`. -/
def cleanupActor (s : LimitMonitor) : LimitMonitor :=
  if s.alive then { s with terminated := true, manager := .terminate } else { s with manager := .done }

/-- One event. -/
def step (k : LimitKind) (s : LimitMonitor) : Event → LimitMonitor
  | .step => s.run₁ k
  | .measure r => if k = .cpu ∧ s.thread = .work ∧ r ≠ .woken then { s with thread := .test₂ r } else s
  | .read =>
    if k = .mem ∧ s.thread = .work ∧ 0 < s.limits + s.wakes then
      { s with thread := .test₂ (if 0 < s.limits then .high else .woken), limits := 0, wakes := 0 }
    else s
  | .fail => if s.thread = .work ∨ s.thread = .warm then { s with thread := .ended } else s
  | .limit => { s with limits := s.limits + 1 }
  | .startActor => if s.manager = .idle then s.startActor else s
  | .stopActor => if s.manager = .idle then s.stopActor else s
  | .cleanupActor => if s.manager = .idle then s.cleanupActor else s
  | .go => s.go k

/-- What comes of an event. -/
def out (k : LimitKind) (s : LimitMonitor) : Event → List Output
  | .step =>
    match s.thread with
    | .send r => [.notice r]
    | _ => []
  | .measure r => if k = .cpu ∧ s.thread = .work ∧ r ≠ .woken then [.measured] else []
  | .read => if k = .mem ∧ s.thread = .work ∧ 0 < s.limits + s.wakes then [.measured] else []
  | _ => []

/-! ### What both keep -/

/-- The manager is in `stop`. -/
def Stopping (s : LimitMonitor) : Prop := s.manager = .stop ∨ s.manager = .wait ∨ s.manager = .asleep

/-- The thread is at `running.wait`. -/
def Parked (s : LimitMonitor) : Prop := s.thread = .park ∨ s.thread = .asleep

/-- The flags are what the two have made them. -/
structure Inv (k : LimitKind) (s : LimitMonitor) : Prop where
  alive : s.alive = false ↔ s.thread = .fresh ∨ s.thread = .starting
  stopped : s.stopped = true → Parked s ∧ s.running = false
  waiting : s.thread = .mark ∨ s.thread = .asleep → s.running = false
  parked : ¬ Stopping s → s.running = true ∨ Parked s
  stopping : Stopping s → s.running = false ∧ s.terminated = false
  terminated : s.terminated = true → s.manager = .terminate ∨ s.manager = .release ∨ s.manager = .resume ∨
    s.manager = .join ∨ s.manager = .done
  returned : s.manager = .idle ∨ s.manager = .terminate ∨ s.manager = .release → s.running = false → s.stopped = true
  cleared : s.manager = .restart ∨ s.manager = .resume ∨ s.manager = .asleep → s.stopped = false
  terminating : s.manager = .terminate ∨ s.manager = .release ∨ s.manager = .resume ∨ s.manager = .join →
    s.terminated = true
  known : s.manager = .restart ∨ s.manager = .terminate ∨ s.manager = .release ∨ s.manager = .resume ∨
    s.manager = .join → s.alive = true
  joining : s.manager = .join → s.running = true
  awake : k = .mem → s.manager = .wait ∨ s.manager = .asleep → s.thread = .test₁ ∨ s.thread = .work →
    0 < s.limits + s.wakes
  begun : s.started = true ∨ Stopping s → s.thread ≠ .fresh
  woken : k = .mem → s.manager = .release ∨ s.manager = .resume ∨ s.manager = .join → s.thread = .work →
    0 < s.limits + s.wakes

variable {k : LimitKind} {s : LimitMonitor}

theorem inv_init (k : LimitKind) : Inv k init := by
  constructor <;> simp [init, Stopping, Parked]

/-- The thread, which was at work, goes on elsewhere, and the flags stay. It comes to wait only if `running` is not set,
and to the tests that follow `running.wait` only if it is. -/
theorem Inv.goesOn (h : Inv k s) (pc : ThreadPc) (hfrom : s.thread ≠ .fresh ∧ s.thread ≠ .starting ∧ ¬ Parked s)
    (hto : pc ≠ .fresh ∧ pc ≠ .starting) (hwaiting : pc = .mark ∨ pc = .asleep → s.running = false)
    (htest : pc = .test₁ → s.running = true) (hwork : pc = .work → s.thread = .test₁ ∧ s.terminated ≠ true) :
    Inv k { s with thread := pc } := by
  obtain ⟨hfresh, hstarting, hparked⟩ := hfrom
  refine { h with alive := ?_, stopped := ?_, waiting := hwaiting, parked := ?_, awake := ?_, begun := ?_, woken := ?_ }
  · exact h.alive.trans (iff_of_false (not_or.mpr ⟨hfresh, hstarting⟩) (not_or.mpr hto))
  · exact fun hstopped => absurd (h.stopped hstopped).1 hparked
  · exact fun hne => .inl ((h.parked hne).resolve_right hparked)
  · rintro hmem hwait (hpc | hpc)
    · have hrunning := (h.stopping (.inr hwait)).1
      rw [htest hpc] at hrunning
      contradiction
    · exact h.awake hmem hwait (.inl (hwork hpc).1)
  · exact fun _ => hto.1
  · exact fun _ hcleanup hpc => absurd (h.terminating (.inr hcleanup)) (hwork hpc).2

theorem Inv.unlessTerminated (h : Inv k s) (pc : ThreadPc)
    (hfrom : s.thread ≠ .fresh ∧ s.thread ≠ .starting ∧ ¬ Parked s)
    (hto : pc ≠ .fresh ∧ pc ≠ .starting ∧ ¬ (pc = .mark ∨ pc = .asleep) ∧ pc ≠ .test₁)
    (hwork : pc = .work → s.thread = .test₁) : Inv k (s.unlessTerminated pc) := by
  obtain ⟨hfresh, hstarting, hwaiting, htest⟩ := hto
  rw [LimitMonitor.unlessTerminated]
  split_ifs with hterminated
  · exact h.goesOn .ended hfrom (by simp) (by simp) (by simp) (by simp)
  · exact h.goesOn pc hfrom ⟨hfresh, hstarting⟩ (fun hpc => absurd hpc hwaiting) (fun hpc => absurd hpc htest)
      fun hpc => ⟨hwork hpc, hterminated⟩

theorem Inv.run₁ (h : Inv k s) : Inv k (s.run₁ k) := by
  rw [LimitMonitor.run₁.eq_def]
  cases hthread : s.thread with
  | fresh | asleep | work | ended => exact h
  | starting | mark | park =>
    -- `alive` or `stopped` is set, or the thread waits
    constructor <;> grind -linarith [Inv, Stopping, Parked, setStopped, stopReturns]
  | warm => exact h.goesOn .top (by simp [hthread, Parked]) (by simp) (by simp) (by simp) (by simp)
  | top =>
    dsimp only
    split_ifs with hrunning
    · exact h.goesOn .test₁ (by simp [hthread, Parked]) (by simp) (by simp) (fun _ => hrunning) (by simp)
    · refine h.goesOn .mark (by simp [hthread, Parked]) (by simp) (fun _ => ?_) (by simp) (by simp)
      exact Bool.eq_false_iff.mpr hrunning
  | test₁ => exact h.unlessTerminated .work (by simp [hthread, Parked]) (by simp) fun _ => hthread
  | test₂ r => cases k <;> cases r <;> exact h.unlessTerminated _ (by simp [hthread, Parked]) (by simp) (by simp)
  | again r =>
    dsimp only
    split_ifs
    · exact h.goesOn (.send r) (by simp [hthread, Parked]) (by simp) (by simp) (by simp) (by simp)
    · exact h.goesOn .top (by simp [hthread, Parked]) (by simp) (by simp) (by simp) (by simp)
  | send r => exact h.goesOn .test₃ (by simp [hthread, Parked]) (by simp) (by simp) (by simp) (by simp)
  | test₃ => exact h.unlessTerminated .top (by simp [hthread, Parked]) (by simp) (by simp)

theorem Inv.go (h : Inv k s) : Inv k (s.go k) := by
  cases hmanager : s.manager <;> simp only [LimitMonitor.go, hmanager]
  case stop | terminate =>
    cases k <;> simp only [increment] <;> constructor <;> grind -linarith [Inv, Stopping, Parked]
  all_goals
    constructor <;> grind -linarith [Inv, Stopping, Parked, setRunning, stopReturns]

theorem Inv.step (h : Inv k s) (e : Event) : Inv k (s.step k e) := by
  cases e with
  | step => exact h.run₁
  | go => exact h.go
  | measure r | read | fail | limit =>
    constructor <;> grind -linarith [Inv, Stopping, Parked, LimitMonitor.step]
  | startActor | stopActor | cleanupActor =>
    constructor <;>
      grind -linarith [Inv, Stopping, Parked, LimitMonitor.step, LimitMonitor.startActor, LimitMonitor.stopActor,
        LimitMonitor.cleanupActor]

theorem inv_run_init (k : LimitKind) (past : List Event) : Inv k (run (step k) init past) :=
  inv_run (fun _ e h => h.step e) (inv_init k) past

/-! ### A monitor that is stopped is quiet -/

/-- The thread waits, and nothing is about to wake it. -/
structure Quiet (s : LimitMonitor) : Prop where
  parked : Parked s
  running : s.running = false
  manager : s.manager = .idle ∨ Stopping s

theorem Quiet.step (h : Quiet s) {e : Event} (he : e ≠ .startActor ∧ e ≠ .cleanupActor) :
    Quiet (s.step k e) ∧ out k s e = [] := by
  obtain ⟨hparked, hrunning, hmanager⟩ := h
  have hwork : s.thread ≠ .work := by rcases hparked with h | h <;> rw [h] <;> exact nofun
  have hwarm : s.thread ≠ .warm := by rcases hparked with h | h <;> rw [h] <;> exact nofun
  cases e with
  | step =>
    rcases hparked with hthread | hthread <;> simp only [LimitMonitor.step, run₁, out, hthread, hrunning]
    · exact ⟨⟨.inr rfl, rfl, hmanager⟩, trivial⟩
    · exact ⟨⟨.inr hthread, hrunning, hmanager⟩, trivial⟩
  | measure r | read =>
    simp only [LimitMonitor.step, out, hwork, false_and, and_false, if_false]
    exact ⟨⟨hparked, hrunning, hmanager⟩, trivial⟩
  | fail =>
    simp only [LimitMonitor.step, out, hwork, hwarm, or_self, if_false]
    exact ⟨⟨hparked, hrunning, hmanager⟩, trivial⟩
  | limit => exact ⟨⟨hparked, hrunning, hmanager⟩, rfl⟩
  | startActor => exact absurd rfl he.1
  | cleanupActor => exact absurd rfl he.2
  | stopActor =>
    refine ⟨?_, rfl⟩
    simp only [LimitMonitor.step, LimitMonitor.stopActor]
    split_ifs
    · exact ⟨hparked, rfl, .inr (.inl rfl)⟩
    all_goals exact ⟨hparked, hrunning, hmanager⟩
  | go =>
    refine ⟨?_, rfl⟩
    simp only [LimitMonitor.step, LimitMonitor.go]
    rcases hmanager with hidle | hstop | hwait | hasleep
    · rw [hidle]
      exact ⟨hparked, hrunning, .inl hidle⟩
    · rw [hstop]
      cases k <;> exact ⟨hparked, hrunning, .inr (.inr (.inl rfl))⟩
    · rw [hwait]
      dsimp only
      split_ifs
      · exact ⟨hparked, hrunning, .inl rfl⟩
      · exact ⟨hparked, hrunning, .inr (.inr (.inr rfl))⟩
    · rw [hasleep]
      exact ⟨hparked, hrunning, .inr (.inr (.inr hasleep))⟩

/-- **A stopped monitor is quiet.** When `stopActor` has returned the thread neither measures nor sends a notice,
whatever it and the kernel do, until the actor is started or cleaned up. -/
theorem nothing_while_stopped (k : LimitKind) (past : List Event) (hs : s = run (step k) init past)
    (hidle : s.manager = .idle) (hstop : s.running = false) (rest : List Event)
    (hrest : ∀ e ∈ rest, e ≠ .startActor ∧ e ≠ .cleanupActor) :
    collect (step k) (out k) s rest = [] := by
  have hinv : Inv k s := hs ▸ inv_run_init k past
  have hparked := (hinv.stopped (hinv.returned (.inl hidle) hstop)).1
  have h : Quiet s := ⟨hparked, hstop, .inl hidle⟩
  clear hs hidle hstop hinv hparked
  induction rest generalizing s with
  | nil => rfl
  | cons e rest ih =>
    obtain ⟨he, hrest⟩ := List.forall_mem_cons.mp hrest
    obtain ⟨hquiet, hout⟩ := h.step (k := k) he
    rw [collect_cons, hout, List.nil_append]
    exact ih hrest hquiet

/-- The thread for memory is started, and stopped when it is in its read. -/
def paused : List Event :=
  [.startActor, .step, .step, .step, .stopActor, .go, .read, .step, .step, .step, .step, .go]

theorem nothing_while_paused :
    collect (step .mem) (out .mem) (run (step .mem) init paused) [.limit, .step, .read, .step, .go] = [] :=
  nothing_while_stopped .mem paused rfl rfl rfl [.limit, .step, .read, .step, .go] (by decide)

/-! ### A stop returns, or hangs -/

/-- What the thread and the manager do of themselves. -/
def Event.Own : Event → Prop
  | .step | .measure _ | .read | .go => True
  | .fail | .limit | .startActor | .stopActor | .cleanupActor => False

/-- The thread can come to the head of its loop. -/
def Under (s : LimitMonitor) : Prop :=
  s.thread ≠ .fresh ∧ s.thread ≠ .park ∧ s.thread ≠ .asleep ∧ s.thread ≠ .ended

instance (s : LimitMonitor) : Decidable (Under s) := inferInstanceAs (Decidable (_ ∧ _ ∧ _ ∧ _))

/-- The thread has come to a halt for a stop, or it will. -/
def parks (s : LimitMonitor) : Bool := s.stopped || decide (Under s)

theorem parks_iff : s.parks = true ↔ s.stopped = true ∨ Under s := by simp [parks]

/-- How far the thread is from `stopped.set`, or from its end. -/
def distance : ThreadPc → ℕ
  | .starting => 10
  | .warm => 9
  | .test₁ => 8
  | .work => 7
  | .test₂ _ => 6
  | .again _ => 5
  | .send _ => 4
  | .test₃ => 3
  | .top => 2
  | .mark => 1
  | .fresh | .park | .asleep | .ended => 0

/-- What the thread does next, if it finds no load. -/
def next (k : LimitKind) (s : LimitMonitor) : Event :=
  match s.thread, k with
  | .work, .cpu => .measure .low
  | .work, .mem => .read
  | _, _ => .step

theorem own_next (k : LimitKind) (s : LimitMonitor) : (next k s).Own := by
  unfold next
  split <;> trivial

/-- What comes of a step of its own first. -/
theorem exists_own_of_step {pc : ManagerPc} {e : Event} (he : e.Own)
    (h : ∃ rest, (∀ e ∈ rest, e.Own) ∧ (run (step k) (s.step k e) rest).manager = pc) :
    ∃ rest, (∀ e ∈ rest, e.Own) ∧ (run (step k) s rest).manager = pc := by
  obtain ⟨rest, hown, hpc⟩ := h
  exact ⟨e :: rest, List.forall_mem_cons.mpr ⟨he, hown⟩, hpc⟩

/-- A step of the thread towards `stopped.set`. -/
theorem step_next (h : Inv k s) (hwait : s.manager = .wait ∨ s.manager = .asleep) (hunder : Under s)
    (hmark : s.thread ≠ .mark) :
    Under (s.step k (next k s)) ∧ (s.step k (next k s)).manager = s.manager ∧
      distance (s.step k (next k s)).thread < distance s.thread := by
  have hstop : Stopping s := .inr hwait
  obtain ⟨hrunning, hterminated⟩ := h.stopping hstop
  obtain ⟨hfresh, hpark, hasleep, hended⟩ := hunder
  cases hthread : s.thread with
  | fresh | park | asleep | ended | mark => contradiction
  | work =>
    cases k with
    | cpu => simp [next, hthread, step, Under, distance]
    | mem =>
      have hcount := h.awake rfl hwait (.inr hthread)
      simp [next, hthread, step, Under, distance, hcount]
  | starting => cases k <;> simp [next, hthread, step, run₁, Under, distance]
  | warm | top | send r => simp [next, hthread, step, run₁, Under, distance, hrunning]
  | test₁ | test₃ => simp [next, hthread, step, run₁, unlessTerminated, Under, distance, hterminated]
  | again r => simp [next, hthread, step, run₁, Under, distance, hrunning]
  | test₂ r =>
    cases k with
    | mem => simp [next, hthread, step, run₁, unlessTerminated, Under, distance, hterminated]
    | cpu => cases r <;> simp [next, hthread, step, run₁, unlessTerminated, Under, distance, hterminated]

/-- The thread comes to `stopped.set`, and the manager goes on. -/
theorem exists_stopped (h : Inv k s) (hwait : s.manager = .wait ∨ s.manager = .asleep) (hunder : Under s) :
    ∃ rest, (∀ e ∈ rest, e.Own) ∧ (run (step k) s rest).manager = .idle := by
  induction hn : distance s.thread using Nat.strongRecOn generalizing s with
  | ind n ih =>
    by_cases hmark : s.thread = .mark
    · rcases hwait with hwait | hwait
      · refine ⟨[.step, .go], by simp [Event.Own], ?_⟩
        simp [step, run₁, hmark, setStopped, hwait, go, stopReturns]
      · refine ⟨[.step], by simp [Event.Own], ?_⟩
        simp [step, run₁, hmark, setStopped, hwait, stopReturns]
    · obtain ⟨hunder', hmanager, hlt⟩ := step_next h hwait hunder hmark
      rw [← hmanager] at hwait
      exact exists_own_of_step (own_next k s) (ih _ (hn ▸ hlt) (h.step _) hwait hunder' rfl)

/-- The thread will never set `stopped`. -/
structure Hung (s : LimitMonitor) : Prop where
  stopping : Stopping s
  stopped : s.stopped = false
  running : s.running = false
  thread : Parked s ∨ s.thread = .ended

theorem Hung.step (h : Hung s) (e : Event) : Hung (s.step k e) := by
  obtain ⟨hstopping, hstopped, hrunning, hthread⟩ := h
  have hidle : s.manager ≠ .idle := by rcases hstopping with h | h | h <;> rw [h] <;> exact nofun
  have hwork : s.thread ≠ .work := by rcases hthread with (h | h) | h <;> rw [h] <;> exact nofun
  have hwarm : s.thread ≠ .warm := by rcases hthread with (h | h) | h <;> rw [h] <;> exact nofun
  cases e with
  | step =>
    simp only [LimitMonitor.step, run₁]
    rcases hthread with (hpc | hpc) | hpc <;> simp only [hpc, hrunning]
    · exact ⟨hstopping, hstopped, rfl, .inl (.inr rfl)⟩
    · exact ⟨hstopping, hstopped, hrunning, .inl (.inr hpc)⟩
    · exact ⟨hstopping, hstopped, hrunning, .inr hpc⟩
  | measure r | read =>
    simp only [LimitMonitor.step, hwork, false_and, and_false, if_false]
    exact ⟨hstopping, hstopped, hrunning, hthread⟩
  | fail =>
    simp only [LimitMonitor.step, hwork, hwarm, or_self, if_false]
    exact ⟨hstopping, hstopped, hrunning, hthread⟩
  | limit => exact ⟨hstopping, hstopped, hrunning, hthread⟩
  | startActor | stopActor | cleanupActor =>
    simp only [LimitMonitor.step, if_neg hidle]
    exact ⟨hstopping, hstopped, hrunning, hthread⟩
  | go =>
    simp only [LimitMonitor.step, LimitMonitor.go]
    rcases hstopping with hstop | hwait | hasleep
    · rw [hstop]
      cases k <;> exact ⟨.inr (.inl rfl), hstopped, hrunning, hthread⟩
    · rw [hwait]
      dsimp only
      rw [if_neg (by rw [hstopped]; exact nofun)]
      exact ⟨.inr (.inr rfl), hstopped, hrunning, hthread⟩
    · rw [hasleep]
      exact ⟨.inr (.inr hasleep), hstopped, hrunning, hthread⟩

theorem Hung.all (h : Hung s) (k : LimitKind) (rest : List Event) : Hung (run (LimitMonitor.step k) s rest) :=
  inv_run (I := Hung) (fun _ e h => h.step e) h rest

/-- Unless `stopped` is set or the thread is under way, -/
theorem hung_of_not (h : Inv k s) (hstop : Stopping s) (hnot : ¬ (s.stopped = true ∨ Under s)) : Hung s := by
  refine ⟨hstop, Bool.eq_false_iff.mpr fun e => hnot (.inl e), (h.stopping hstop).1, ?_⟩
  by_contra hne
  refine hnot (.inr ⟨h.begun (.inr hstop), ?_, ?_, fun e => hne (.inr e)⟩)
  · exact fun e => hne (.inl (.inl e))
  · exact fun e => hne (.inl (.inr e))

/-- and then the manager comes to its wait and goes on from there. -/
theorem exists_returned (h : Inv k s) (hstop : Stopping s) (hset : s.stopped = true ∨ Under s) :
    ∃ rest, (∀ e ∈ rest, e.Own) ∧ (run (step k) s rest).manager = .idle := by
  have hwait : ∃ pre, (∀ e ∈ pre, Event.Own e) ∧ Inv k (run (step k) s pre) ∧
      ((run (step k) s pre).manager = .wait ∨ (run (step k) s pre).manager = .asleep) ∧
      (run (step k) s pre).thread = s.thread ∧ (run (step k) s pre).stopped = s.stopped := by
    rcases hstop with hstop | hwait
    · refine ⟨[.go], by simp [Event.Own], h.step .go, ?_⟩
      cases k <;> simp [step, go, hstop, increment]
    · exact ⟨[], by simp, h, hwait, rfl, rfl⟩
  obtain ⟨pre, hpre, hinv, hwait, hthread, hstopped⟩ := hwait
  rcases hset with hset | hunder
  · rw [← hstopped] at hset
    rcases hwait with hwait | hasleep
    · refine ⟨pre ++ [.go], ?_, ?_⟩
      · exact List.forall_mem_append.mpr ⟨hpre, by simp [Event.Own]⟩
      · rw [run_append]
        simp [step, go, hwait, hset, stopReturns]
    · rw [hinv.cleared (.inr (.inr hasleep))] at hset
      contradiction
  · have hunder' : Under (run (step k) s pre) := by
      rw [Under, hthread]
      exact hunder
    obtain ⟨rest, hrest, hidle⟩ := exists_stopped hinv hwait hunder'
    refine ⟨pre ++ rest, List.forall_mem_append.mpr ⟨hpre, hrest⟩, ?_⟩
    rw [run_append]
    exact hidle

/-- A stop that hangs does not return. -/
theorem Hung.not_returned (h : Hung s) (k : LimitKind) :
    ¬ ∃ rest : List Event, (∀ e ∈ rest, e.Own) ∧ (run (LimitMonitor.step k) s rest).manager = .idle := by
  rintro ⟨rest, -, hidle⟩
  rcases (h.all k rest).stopping with h | h | h <;> rw [hidle] at h <;> contradiction

/-- **When a stop hangs.** It returns if `stopped` is set or the thread is under way. It hangs for ever when the thread
has been ended by an exception, and when the thread was at `running.wait` and had not come to look at the flag since an
earlier stop: the start in between has taken `stopped` back, and the thread will sleep. -/
theorem stop_returns_iff (k : LimitKind) (past : List Event) (hs : s = run (step k) init past) (hstop : Stopping s) :
    ((∃ rest, (∀ e ∈ rest, e.Own) ∧ (run (step k) s rest).manager = .idle) ↔ s.stopped = true ∨ Under s) ∧
      (¬ (s.stopped = true ∨ Under s) → ∀ rest, Stopping (run (step k) s rest)) := by
  have hinv : Inv k s := hs ▸ inv_run_init k past
  refine ⟨⟨fun hreturns => ?_, exists_returned hinv hstop⟩, fun hnot rest => ?_⟩
  · by_contra hnot
    exact (hung_of_not hinv hstop hnot).not_returned k hreturns
  · exact ((hung_of_not hinv hstop hnot).all k rest).stopping

/-- The thread for the processor is stopped, started and stopped before it looks at `running` again. -/
def overtaken : List Event :=
  [.startActor, .step, .step, .stopActor, .go, .step, .step, .go, .startActor, .go, .stopActor]

/-- It is at `running.wait`, and the stop hangs. -/
theorem stop_overtaken :
    (run (step .cpu) init overtaken).thread = .park ∧ ∀ rest, Stopping (run (step .cpu) init (overtaken ++ rest)) := by
  refine ⟨rfl, fun rest => ?_⟩
  rw [run_append]
  refine (stop_returns_iff .cpu overtaken rfl (.inl rfl)).2 ?_ rest
  rintro (hstopped | ⟨-, hpark, -, -⟩)
  · contradiction
  · exact hpark rfl

/-! ### A cleanup returns -/

/-- How far a terminated thread is from its end. -/
def remaining : ThreadPc → ℕ
  | .again _ | .warm => 3
  | .top | .park | .send _ | .work => 2
  | .test₁ | .test₂ _ | .test₃ => 1
  | .fresh | .starting | .mark | .asleep | .ended => 0

/-- A step of a terminated thread towards its end. -/
theorem step_next_join (h : Inv k s) (hjoin : s.manager = .join) (hended : s.thread ≠ .ended) :
    (s.step k (next k s)).manager = .join ∧ remaining (s.step k (next k s)).thread < remaining s.thread := by
  have hrunning := h.joining hjoin
  have hterminated := h.terminating (.inr (.inr (.inr hjoin)))
  have halive := h.known (.inr (.inr (.inr (.inr hjoin))))
  cases hthread : s.thread with
  | ended => contradiction
  | fresh =>
    rw [h.alive.mpr (.inl hthread)] at halive
    contradiction
  | starting =>
    rw [h.alive.mpr (.inr hthread)] at halive
    contradiction
  | mark =>
    rw [h.waiting (.inl hthread)] at hrunning
    contradiction
  | asleep =>
    rw [h.waiting (.inr hthread)] at hrunning
    contradiction
  | work =>
    cases k with
    | cpu => simp [next, hthread, step, remaining, hjoin]
    | mem =>
      have hcount := h.woken rfl (.inr (.inr hjoin)) hthread
      simp [next, hthread, step, remaining, hcount, hjoin]
  | warm | top | park | send r | again r => simp [next, hthread, step, run₁, remaining, hrunning, hjoin]
  | test₁ | test₂ r | test₃ => simp [next, hthread, step, run₁, unlessTerminated, remaining, hterminated, hjoin]

theorem exists_joined (h : Inv k s) (hjoin : s.manager = .join) :
    ∃ rest, (∀ e ∈ rest, e.Own) ∧ (run (step k) s rest).manager = .done := by
  induction hn : remaining s.thread using Nat.strongRecOn generalizing s with
  | ind n ih =>
    by_cases hended : s.thread = .ended
    · refine ⟨[.go], by simp [Event.Own], ?_⟩
      simp [step, go, hjoin, hended]
    · obtain ⟨hmanager, hlt⟩ := step_next_join h hjoin hended
      exact exists_own_of_step (own_next k s) (ih _ (hn ▸ hlt) (h.step _) hmanager rfl)

theorem exists_done_of_resume (h : Inv k s) (hresume : s.manager = .resume) :
    ∃ rest, (∀ e ∈ rest, e.Own) ∧ (run (step k) s rest).manager = .done := by
  have hjoin : (s.step k .go).manager = .join := by simp [step, go, hresume]
  exact exists_own_of_step (e := .go) trivial (exists_joined (h.step .go) hjoin)

theorem exists_done_of_release (h : Inv k s) (hrelease : s.manager = .release) :
    ∃ rest, (∀ e ∈ rest, e.Own) ∧ (run (step k) s rest).manager = .done := by
  refine exists_own_of_step (e := .go) trivial ?_
  by_cases hstopped : s.stopped = true
  · exact exists_done_of_resume (h.step .go) (by simp [step, go, hrelease, hstopped])
  · exact exists_joined (h.step .go) (by simp [step, go, hrelease, hstopped])

/-- **A cleanup returns.** Once `cleanupActor` has begun, wherever the thread is, the thread comes to its end and the
manager goes on. -/
theorem cleanup_returns (k : LimitKind) (past : List Event) (hs : s = run (step k) init past)
    (hcleanup : s.manager = .terminate ∨ s.manager = .release ∨ s.manager = .resume ∨ s.manager = .join) :
    ∃ rest, (∀ e ∈ rest, e.Own) ∧ (run (step k) s rest).manager = .done := by
  have hinv : Inv k s := hs ▸ inv_run_init k past
  rcases hcleanup with h | h | h | h
  · have hrelease : (s.step k .go).manager = .release := by simp [step, go, h]
    exact exists_own_of_step (e := .go) trivial (exists_done_of_release (hinv.step .go) hrelease)
  · exact exists_done_of_release hinv h
  · exact exists_done_of_resume hinv h
  · exact exists_joined hinv h

/-- The thread for the processor is in its first measurement when the app is cleaned up. -/
def cleaned : List Event := [.startActor, .step, .cleanupActor]

theorem cleanup_cleaned :
    ∃ rest, (∀ e ∈ rest, e.Own) ∧ (run (step .cpu) (run (step .cpu) init cleaned) rest).manager = .done :=
  cleanup_returns .cpu cleaned rfl (by decide)

/-! ### False alarms -/

/-- A stop adds to the counter when the thread is about to read it. -/
def Prompt (s : LimitMonitor) (e : Event) : Prop := e = .go → s.manager = .stop → s.thread = .test₁ ∨ s.thread = .work

/-- What a stop has added to the counter is read before the next start. -/
structure Genuine (k : LimitKind) (s : LimitMonitor) : Prop where
  wakes : 0 < s.wakes →
    k = .mem ∧ (s.terminated = true ∨ s.thread = .ended ∨ Stopping s ∧ (s.thread = .test₁ ∨ s.thread = .work))
  woken : s.thread = .test₂ .woken → k = .mem ∧ (s.terminated = true ∨ Stopping s)
  again : s.thread = .again .woken → Stopping s
  send : s.thread ≠ .send .woken

theorem Genuine.run₁ (h : Genuine k s) (hs : Inv k s) : Genuine k (s.run₁ k) := by
  cases hthread : s.thread <;> simp only [LimitMonitor.run₁, hthread]
  all_goals
    constructor <;> grind -linarith [Inv, Genuine, Stopping, Parked, setStopped, unlessTerminated, stopReturns]

theorem Genuine.go (h : Genuine k s) (hs : Inv k s) (hprompt : Prompt s .go) : Genuine k (s.go k) := by
  cases hmanager : s.manager <;> simp only [LimitMonitor.go, hmanager]
  case stop | terminate =>
    cases k <;> simp only [increment] <;> constructor <;> grind -linarith [Inv, Genuine, Stopping, Parked, Prompt]
  all_goals
    constructor <;> grind -linarith [Inv, Genuine, Stopping, Parked, setRunning, stopReturns]

theorem Genuine.step (h : Genuine k s) (hs : Inv k s) {e : Event} (hprompt : Prompt s e) : Genuine k (s.step k e) := by
  cases e with
  | step => exact h.run₁ hs
  | go => exact h.go hs hprompt
  | measure r | read | fail | limit =>
    constructor <;> grind -linarith [Inv, Genuine, Stopping, Parked, LimitMonitor.step]
  | startActor | stopActor | cleanupActor =>
    constructor <;>
      grind -linarith [Inv, Genuine, Stopping, Parked, LimitMonitor.step, LimitMonitor.startActor,
        LimitMonitor.stopActor, LimitMonitor.cleanupActor]

/-- **No false alarms.** If each stop adds to the counter when the thread is about to read it, a notice is only sent
when the limit has been exceeded since the last reading. -/
theorem no_false_alarm (k : LimitKind) (past : List Event) (h : AllSteps (step k) Prompt init past) :
    .notice .woken ∉ collect (step k) (out k) init past := by
  have hinit : Genuine k init := by constructor <;> simp [init]
  have hrun := AllSteps.inv_collect (step k) (out k)
    (I := fun s outs => Inv k s ∧ Genuine k s ∧ .notice .woken ∉ outs) ?_ ⟨inv_init k, hinit, List.not_mem_nil⟩ h
  · simpa using hrun.2.2
  · rintro s e outs ⟨hinv, hgenuine, houts⟩ hprompt
    refine ⟨hinv.step e, hgenuine.step hinv hprompt, fun hmem => ?_⟩
    rcases List.mem_append.mp hmem with hmem | hmem
    · exact houts hmem
    · cases e with
      | step =>
        rw [out] at hmem
        split at hmem
        · next r hthread =>
          obtain rfl : Reading.woken = r := by simpa using hmem
          exact hgenuine.send hthread
        · simp at hmem
      | measure r | read =>
        rw [out] at hmem
        split_ifs at hmem <;> simp at hmem
      | fail | limit | startActor | stopActor | cleanupActor | go => simp [out] at hmem

theorem no_false_alarm_paused : .notice .woken ∉ collect (step .mem) (out .mem) init (paused.take 9) := by
  refine no_false_alarm .mem _ ?_
  simp [paused, allSteps_cons, allSteps_nil, Prompt, step, init, startActor, run₁, stopActor, unlessTerminated, go,
    increment]

end LimitMonitor

end Riaps.Deployment
