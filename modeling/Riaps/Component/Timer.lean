import Riaps.Foundation.Runs
import Riaps.Coordination.Messages

/-!
# The timer thread

The thread behind a timer port: it waits for a command or, when its timeout is
set, for the timeout to elapse, and sends a tick to the component when that
happens and the timer is active and running. A periodic timer sets its timeout
again after every firing, a sporadic one has to be started again.

`tick_safety` rests on one invariant: a stopped timer does not tick until it is
started (`Idle`). Halted, and cancelled if it is sporadic, the timer does not
run; deactivated, it may still count as running, but its timeout is not set and
nothing sets it, since a `CANCEL` looks at `last` first.
-/

namespace Riaps.Component

open Riaps.Foundation Riaps.Coordination

/-- `TimerThread.Command`. -/
inductive Command where
  /-- `TERMINATE`. -/
  | terminate
  /-- `ACTIVATE`. -/
  | activate
  /-- `DEACTIVATE`. -/
  | deactivate
  /-- `START`. -/
  | start
  /-- `CANCEL`. -/
  | cancel
  /-- `HALT`. -/
  | halt
  deriving DecidableEq

/-- Where the thread is. -/
inductive TimerStatus where
  /-- In its loop. -/
  | looping
  /-- Out of it, after `TERMINATE`. -/
  | terminated
  /-- Out of it, by a `TypeError`: it was started, or cancelled, without a number to wait. -/
  | failed
  deriving DecidableEq

/-- What happens to the thread. A command, and a timeout, come at a time. -/
inductive TimerEvent where
  /-- A command is received. -/
  | command (c : Command) (now : ℚ)
  /-- The timeout elapses. -/
  | elapsed (now : ℚ)
  /-- `setPeriod`, called by the component. -/
  | setPeriod (period : ℚ)
  /-- `setDelay`, called by the component. -/
  | setDelay (delay : ℚ)
  deriving DecidableEq

/-- The state of a timer thread: times in seconds, the timeout in milliseconds. -/
structure TimerThread where
  periodic : Bool
  period : Option ℚ
  delay : Option ℚ
  timeout : Option ℤ
  active : Bool
  /-- `_running`. -/
  running : Bool
  skip : Bool
  last : Option ℚ
  status : TimerStatus
  /-- The ticks sent so far, in order. -/
  ticks : List ℚ
  deriving DecidableEq

namespace TimerThread

/-- The thread as it enters its loop, for the port's period in milliseconds. -/
def init (period : ℚ) : TimerThread where
  periodic := period ≠ 0
  period := if period = 0 then none else some (period * (1 / 1000))
  delay := none
  timeout := none
  active := false
  running := false
  skip := false
  last := none
  status := .looping
  ticks := []

/-- `self.timeout = int(seconds * 1000)`, where `seconds` may be `None`. -/
def setTimeout (seconds : Option ℚ) (t : TimerThread) : TimerThread :=
  match seconds with
  | some x => { t with timeout := some (pyInt (x * 1000)) }
  | none => { t with status := .failed }

/-- The branch for a timeout. -/
def handleTimeout (now : ℚ) (t : TimerThread) : TimerThread :=
  if t.active = false then { t with timeout := none }
  else
    let t := { t with last := some now }
    let t :=
      if t.running then
        if t.periodic ∧ t.skip then { t with skip := false } else { t with ticks := t.ticks ++ [now] }
      else t
    if t.periodic then t.setTimeout t.period else { t with running := false, timeout := none }

/-- The branches for the commands. -/
def handleCommand (c : Command) (now : ℚ) (t : TimerThread) : TimerThread :=
  match c with
  | .terminate => { t with status := .terminated }
  | .activate => { t with active := true, last := none }
  | .deactivate => { t with active := false, timeout := none, last := none }
  | .start =>
    if t.active then
      let t := if t.periodic then t.setTimeout t.period else t.setTimeout t.delay
      if t.status = .looping then { t with running := true } else t
    else t
  | .cancel =>
    if t.periodic then
      match t.last with
      | some last =>
        -- skip the next firing: the timeout is set to the rest of the period, which may be negative
        let t := t.setTimeout (t.period.map fun period => last + period - now)
        if t.status = .looping then { t with skip := true } else t
      | none => t
    else { t with running := false, timeout := none }
  | .halt => { t with timeout := none, running := false }

/-- A poll with the timeout `timeout` ends without a message: one of `None` waits for ever,
and so does a negative one. -/
def canElapse (t : TimerThread) : Bool :=
  match t.timeout with
  | some timeout => 0 ≤ timeout
  | none => false

/-- One pass of the loop of `run`, or a call of the component. -/
def step (t : TimerThread) (e : TimerEvent) : TimerThread :=
  if t.status ≠ .looping then t
  else
    match e with
    | .command c now => t.handleCommand c now
    | .elapsed now => if t.canElapse then t.handleTimeout now else t
    | .setPeriod period => if 0 < period then { t with period := some period } else t
    | .setDelay delay => if 0 < delay then { t with delay := some delay } else t

/-- The event is a `START` that is accepted. -/
def accepts (t : TimerThread) : TimerEvent → Bool
  | .command .start _ => t.status = .looping ∧ t.active
  | _ => false

/-- The event stops the timer: `HALT`, `DEACTIVATE`, or `CANCEL` of a sporadic timer. -/
def stops (t : TimerThread) : TimerEvent → Bool
  | .command .halt _ | .command .deactivate _ => true
  | .command .cancel _ => !t.periodic
  | _ => false

/-! ### Small facts -/

section Fields

variable (seconds : Option ℚ) (t : TimerThread)

@[simp] theorem periodic_setTimeout : (t.setTimeout seconds).periodic = t.periodic := by cases seconds <;> rfl

@[simp] theorem running_setTimeout : (t.setTimeout seconds).running = t.running := by cases seconds <;> rfl

@[simp] theorem ticks_setTimeout : (t.setTimeout seconds).ticks = t.ticks := by cases seconds <;> rfl

end Fields

/-- Commands send no tick, and leave a timer of the kind it is. -/
theorem handleCommand_same (c : Command) (now : ℚ) (t : TimerThread) :
    (t.handleCommand c now).ticks = t.ticks ∧ (t.handleCommand c now).periodic = t.periodic := by
  cases c with
  | start =>
    simp only [handleCommand]
    split_ifs <;> simp
  | cancel =>
    simp only [handleCommand]
    split
    · split
      · split_ifs <;> simp
      · exact ⟨rfl, rfl⟩
    · exact ⟨rfl, rfl⟩
  | _ => exact ⟨rfl, rfl⟩

theorem periodic_handleTimeout (now : ℚ) (t : TimerThread) : (t.handleTimeout now).periodic = t.periodic := by
  by_cases hactive : t.active
  · by_cases hrun : t.running
    · by_cases hskip : t.periodic ∧ t.skip
      · simp [handleTimeout, hactive, hrun, hskip]
      · by_cases hper : t.periodic <;> simp_all [handleTimeout]
    · by_cases hper : t.periodic <;> simp [handleTimeout, hactive, hrun, hper]
  · simp [handleTimeout, hactive]

/-- A firing sends one tick, if the timer is active and running and does not skip. -/
theorem ticks_handleTimeout (now : ℚ) (t : TimerThread) :
    (t.handleTimeout now).ticks =
      t.ticks ++ if t.active ∧ t.running ∧ ¬ (t.periodic ∧ t.skip) then [now] else [] := by
  unfold handleTimeout
  by_cases hactive : t.active
  · by_cases hrun : t.running
    · by_cases hskip : t.periodic ∧ t.skip
      · simp [hactive, hrun, hskip]
      · by_cases hper : t.periodic <;> simp_all
    · by_cases hper : t.periodic <;> simp [hactive, hrun, hper]
  · simp [hactive]

/-- What a step sends: a tick when the timeout elapses in an active, running timer. -/
theorem ticks_step (t : TimerThread) (e : TimerEvent) :
    (t.step e).ticks = t.ticks ∨
      t.active ∧ t.running ∧ t.canElapse ∧ ∃ now, e = .elapsed now ∧ (t.step e).ticks = t.ticks ++ [now] := by
  unfold step
  split
  · exact Or.inl rfl
  · cases e with
    | command c now => exact Or.inl (handleCommand_same c now t).1
    | elapsed now =>
      simp only
      split
      · rename_i hel
        by_cases hfire : t.active ∧ t.running ∧ ¬ (t.periodic ∧ t.skip)
        · exact Or.inr ⟨hfire.1, hfire.2.1, hel, now, rfl, by rw [ticks_handleTimeout, if_pos hfire]⟩
        · exact Or.inl (by rw [ticks_handleTimeout, if_neg hfire, List.append_nil])
      · exact Or.inl rfl
    | setPeriod period => exact Or.inl (by simp only; split <;> rfl)
    | setDelay delay => exact Or.inl (by simp only; split <;> rfl)

theorem ticks_step_command (t : TimerThread) (c : Command) (now : ℚ) : (t.step (.command c now)).ticks = t.ticks := by
  rcases ticks_step t (.command c now) with h | ⟨-, -, -, now, he, -⟩
  · exact h
  · cases he

/-! ### Stopped timers -/

/-- A timer that does not tick until it is started. -/
def Idle (t : TimerThread) : Prop := t.running = false ∨ t.timeout = none ∧ t.last = none

theorem idle_init (period : ℚ) : Idle (init period) := Or.inl rfl

theorem ticks_step_of_idle {t : TimerThread} (h : Idle t) (e : TimerEvent) : (t.step e).ticks = t.ticks := by
  rcases ticks_step t e with hstep | ⟨-, hrun, hel, -⟩
  · exact hstep
  · rcases h with h | ⟨h, -⟩
    · rw [h] at hrun
      cases hrun
    · rw [canElapse, h] at hel
      cases hel

/-- An idle timer stays so, but for a `START` that is accepted. -/
theorem idle_step {t : TimerThread} (h : Idle t) {e : TimerEvent} (he : t.accepts e = false) : Idle (t.step e) := by
  unfold step
  by_cases hs : t.status = .looping
  swap
  · rwa [if_pos hs]
  rw [if_neg (not_not.mpr hs)]
  cases e with
  | elapsed now =>
    by_cases hel : t.canElapse
    · rcases h with h | ⟨h, -⟩
      · left
        by_cases hactive : t.active <;> by_cases hper : t.periodic <;> simp [handleTimeout, hel, hactive, hper, h]
      · rw [canElapse, h] at hel
        cases hel
    · simpa [hel] using h
  | setPeriod period =>
    simp only
    split_ifs <;> exact h
  | setDelay delay =>
    simp only
    split_ifs <;> exact h
  | command c now =>
    cases c with
    | terminate => exact h
    | activate => exact h.imp id fun h => ⟨h.1, rfl⟩
    | deactivate => exact Or.inr ⟨rfl, rfl⟩
    | halt => exact Or.inl rfl
    | start =>
      have hactive : t.active = false := by simpa [accepts, hs] using he
      simpa [handleCommand, hactive] using h
    | cancel =>
      simp only [handleCommand]
      by_cases hper : t.periodic
      · rw [if_pos hper]
        rcases h with h | ⟨h, hlast⟩
        · left
          split
          · split_ifs <;> simp [h]
          · exact h
        · rw [hlast]
          exact Or.inr ⟨h, hlast⟩
      · rw [if_neg hper]
        exact Or.inl rfl

theorem command_of_stops {t : TimerThread} {e : TimerEvent} (he : t.stops e) : ∃ c now, e = .command c now := by
  cases e with
  | command c now => exact ⟨c, now, rfl⟩
  | _ => cases he

/-- What stops a timer makes it idle. -/
theorem idle_of_stops {t : TimerThread} {e : TimerEvent} (he : t.stops e) (hs : t.status = .looping) :
    Idle (t.step e) := by
  unfold step
  rw [if_neg (not_not.mpr hs)]
  cases e with
  | command c now =>
    cases c with
    | halt => exact Or.inl rfl
    | deactivate => exact Or.inr ⟨rfl, rfl⟩
    | cancel =>
      have hper : t.periodic = false := by simpa [stops] using he
      simp only [handleCommand, hper, Bool.false_eq_true, if_false]
      exact Or.inl rfl
    | _ => cases he
  | _ => cases he

/-- The firing of a sporadic timer makes it idle. -/
theorem idle_of_ticks {t : TimerThread} (hper : t.periodic = false) {e : TimerEvent}
    (h : (t.step e).ticks ≠ t.ticks) : Idle (t.step e) := by
  rcases ticks_step t e with hstep | ⟨hactive, hrun, hel, now, rfl, -⟩
  · exact absurd hstep h
  · left
    unfold step at h ⊢
    split_ifs at h ⊢ with hs
    · exact absurd rfl h
    · simp [handleTimeout, hactive, hrun, hper]

@[simp] theorem periodic_step (t : TimerThread) (e : TimerEvent) : (t.step e).periodic = t.periodic := by
  unfold step
  split
  · rfl
  · cases e with
    | command c now => exact (handleCommand_same c now t).2
    | elapsed now =>
      simp only
      split
      · exact periodic_handleTimeout now t
      · rfl
    | setPeriod period => simp only; split <;> rfl
    | setDelay delay => simp only; split <;> rfl

/-! ### Runs -/

/-- No `START` is accepted along the run. -/
def NoStart (t : TimerThread) (es : List TimerEvent) : Prop := AllSteps step (fun u e => u.accepts e = false) t es

/-- A thread that has left its loop does nothing. -/
theorem run_of_ended {t : TimerThread} (h : t.status ≠ .looping) (es : List TimerEvent) : run step t es = t := by
  induction es with
  | nil => rfl
  | cons e es ih =>
    have hstep : t.step e = t := if_pos h
    rw [run_cons, hstep, ih]

/-- An idle timer that is not started sends nothing. -/
theorem ticks_run_of_idle {t : TimerThread} (h : Idle t) {es : List TimerEvent} (hes : t.NoStart es) :
    (run step t es).ticks = t.ticks := by
  have hinv := hes.inv (I := fun u => Idle u ∧ u.ticks = t.ticks)
    (fun u e hu he => ⟨idle_step hu.1 he, (ticks_step_of_idle hu.1 e).trans hu.2⟩) ⟨h, rfl⟩
  exact hinv.2

/-- A sporadic timer that is not started again sends one tick at most. -/
theorem length_ticks_run {t : TimerThread} (hper : t.periodic = false) {es : List TimerEvent} (hes : t.NoStart es) :
    (run step t es).ticks.length ≤ t.ticks.length + 1 := by
  have hinv := hes.inv (I := fun u => u.periodic = false ∧
      (u.ticks = t.ticks ∨ Idle u ∧ u.ticks.length = t.ticks.length + 1)) (fun u e hu he => ?_)
    ⟨hper, Or.inl rfl⟩
  · rcases hinv.2 with h | ⟨-, h⟩
    · rw [h]
      omega
    · omega
  · obtain ⟨hper', h⟩ := hu
    refine ⟨by rw [periodic_step, hper'], ?_⟩
    rcases h with h | ⟨hidle, hlen⟩
    · by_cases hsent : (u.step e).ticks = u.ticks
      · exact Or.inl (hsent.trans h)
      · right
        refine ⟨idle_of_ticks hper' hsent, ?_⟩
        rcases ticks_step u e with hstep | ⟨-, -, -, now, -, hstep⟩
        · exact absurd hstep hsent
        · rw [hstep, h, List.length_append, List.length_singleton]
    · exact Or.inr ⟨idle_step hidle he, by rw [ticks_step_of_idle hidle, hlen]⟩

/-- **Tick safety**, in every state a timer thread gets to: a tick is sent only while the
timer is active and running; once it is stopped, none is sent until a `START` is accepted,
and none before the first; and a sporadic timer sends at most one for a `START`. -/
theorem tick_safety (period : ℚ) (es : List TimerEvent) :
    let t := run step (init period) es
    (∀ e, (t.step e).ticks ≠ t.ticks → t.active ∧ t.running) ∧
    (∀ e fs, t.stops e → (t.step e).NoStart fs → (run step (t.step e) fs).ticks = t.ticks) ∧
    ((init period).NoStart es → t.ticks = []) ∧
    (t.periodic = false → ∀ e fs, t.accepts e → (t.step e).NoStart fs →
      (run step (t.step e) fs).ticks.length ≤ t.ticks.length + 1) := by
  intro t
  refine ⟨fun e h => ?_, fun e fs he hfs => ?_, fun hes => ?_, fun hper e fs he hfs => ?_⟩
  · rcases ticks_step t e with hstep | ⟨hactive, hrun, -⟩
    · exact absurd hstep h
    · exact ⟨hactive, hrun⟩
  · obtain ⟨c, now, rfl⟩ := command_of_stops he
    by_cases hs : t.status = .looping
    · rw [← ticks_step_command t c now]
      exact ticks_run_of_idle (idle_of_stops he hs) hfs
    · have hstep : t.step (.command c now) = t := if_pos hs
      rw [hstep, run_of_ended hs]
  · exact ticks_run_of_idle (idle_init period) hes
  · obtain ⟨now, rfl⟩ : ∃ now, e = .command .start now := by
      unfold accepts at he
      split at he
      · exact ⟨_, rfl⟩
      · cases he
    rw [← ticks_step_command t .start now]
    exact length_ticks_run (by rw [periodic_step, hper]) hfs

end TimerThread

end Riaps.Component
