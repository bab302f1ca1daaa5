import Mathlib.Tactic.Linarith
import Riaps.Component.Timer

/-!
# Running timers

A component asks its timer whether it is running, and starts it if it is not. The answer
is a flag that is set apart from the timeout that it stands for. A `DEACTIVATE` clears the
timeout and leaves the flag; and a `CANCEL` sets the timeout to what is left of the period
since the last firing, which is negative when the period is over, and a poll with a negative
timeout waits for ever.

`truthful_iff` says that these are the only ways in which a running timer comes to wait for
nothing, but for a period that is itself negative.
-/

namespace Riaps.Component

open Riaps.Foundation Riaps.Coordination

/-- What is cut down to a whole number is not negative, if it is more than -1. -/
theorem pyInt_nonneg_iff (x : ℚ) : 0 ≤ pyInt x ↔ -1 < x := by
  unfold pyInt
  split_ifs with hx
  · exact ⟨fun _ => by linarith, fun _ => Int.floor_nonneg.mpr hx⟩
  · have hceil : -1 < ⌈x⌉ ↔ ((-1 : ℤ) : ℚ) < x := Int.lt_ceil
    rw [Int.cast_neg, Int.cast_one] at hceil
    rw [← hceil]
    omega

namespace TimerThread

variable {t : TimerThread}

/-! ### What an event does -/

theorem step_command (hs : t.status = .looping) (c : Command) (now : ℚ) :
    t.step (.command c now) = t.handleCommand c now := if_neg (not_not.mpr hs)

theorem step_elapsed (hs : t.status = .looping) (hel : t.canElapse) (now : ℚ) :
    t.step (.elapsed now) = t.handleTimeout now := by
  rw [step, if_neg (not_not.mpr hs)]
  exact if_pos hel

theorem step_elapsed_of_not (hel : ¬t.canElapse) (now : ℚ) : t.step (.elapsed now) = t := by
  by_cases hs : t.status = .looping
  · rw [step, if_neg (not_not.mpr hs)]
    exact if_neg hel
  · exact if_pos hs

theorem step_setPeriod (hs : t.status = .looping) (period : ℚ) :
    t.step (.setPeriod period) = if 0 < period then { t with period := some period } else t := if_neg (not_not.mpr hs)

theorem step_setDelay (hs : t.status = .looping) (delay : ℚ) :
    t.step (.setDelay delay) = if 0 < delay then { t with delay := some delay } else t := if_neg (not_not.mpr hs)

/-- A periodic timer that fires waits for the next period. -/
theorem handleTimeout_periodic (hactive : t.active) (hper : t.periodic) {p : ℚ} (hp : t.period = some p) (now : ℚ) :
    t.handleTimeout now =
      { t with
        last := some now
        ticks := if t.running ∧ ¬t.skip then t.ticks ++ [now] else t.ticks
        skip := t.skip && !t.running
        timeout := some (pyInt (p * 1000)) } := by
  cases hrun : t.running <;> cases hskip : t.skip <;>
    simp [handleTimeout, setTimeout, hactive, hper, hp, hrun, hskip]

/-- A sporadic one stops. -/
theorem handleTimeout_sporadic (hactive : t.active) (hper : t.periodic = false) (now : ℚ) :
    t.handleTimeout now =
      { t with
        last := some now
        ticks := if t.running then t.ticks ++ [now] else t.ticks
        running := false
        timeout := none } := by
  cases hrun : t.running <;> simp [handleTimeout, hactive, hper, hrun]

/-- What a timer that is started waits for. -/
def interval (t : TimerThread) : Option ℚ := if t.periodic then t.period else t.delay

theorem start_eq (hs : t.status = .looping) (hactive : t.active) {x : ℚ} (hx : t.interval = some x) (now : ℚ) :
    t.handleCommand .start now = { t with timeout := some (pyInt (x * 1000)), running := true } := by
  unfold interval at hx
  cases hper : t.periodic <;> simp_all [handleCommand, setTimeout]

theorem start_none (hactive : t.active) (hx : t.interval = none) (now : ℚ) :
    t.handleCommand .start now = { t with status := .failed } := by
  unfold interval at hx
  cases hper : t.periodic <;> simp_all [handleCommand, setTimeout]

theorem start_inactive (hactive : t.active = false) (now : ℚ) : t.handleCommand .start now = t := by
  simp [handleCommand, hactive]

theorem cancel_eq (hs : t.status = .looping) (hper : t.periodic) {last p : ℚ} (hlast : t.last = some last)
    (hp : t.period = some p) (now : ℚ) :
    t.handleCommand .cancel now = { t with timeout := some (pyInt ((last + p - now) * 1000)), skip := true } := by
  simp [handleCommand, setTimeout, hper, hlast, hp, hs]

/-- A periodic timer that has not fired yet is not cancelled. -/
theorem cancel_none (hper : t.periodic) (hlast : t.last = none) (now : ℚ) : t.handleCommand .cancel now = t := by
  simp [handleCommand, hper, hlast]

theorem cancel_sporadic (hper : t.periodic = false) (now : ℚ) :
    t.handleCommand .cancel now = { t with running := false, timeout := none } := by
  simp [handleCommand, hper]

/-! ### Every state -/

/-- What the fields of a timer have to do with each other. -/
structure Sound (t : TimerThread) : Prop where
  /-- An inactive timer waits for a command, and has not fired since it was active. -/
  inactive : t.active = false → t.timeout = none ∧ t.last = none
  period : t.periodic → ∃ p, t.period = some p
  delay : ∀ d, t.delay = some d → 0 < d

theorem sound_init (period : ℚ) : Sound (init period) where
  inactive _ := ⟨rfl, rfl⟩
  period hper := by
    have hne : period ≠ 0 := by simpa [init] using hper
    exact ⟨_, if_neg hne⟩
  delay _ h := nomatch h

theorem Sound.handleTimeout (h : Sound t) (now : ℚ) : Sound (t.handleTimeout now) := by
  cases hactive : t.active with
  | false =>
    have hwait : t.handleTimeout now = { t with timeout := none } := by simp [TimerThread.handleTimeout, hactive]
    rw [hwait]
    exact ⟨fun _ => ⟨rfl, (h.inactive hactive).2⟩, h.period, h.delay⟩
  | true =>
    have hinactive : t.active = false → False := by simp [hactive]
    cases hper : t.periodic with
    | false =>
      rw [handleTimeout_sporadic hactive hper]
      exact ⟨fun hoff => (hinactive hoff).elim, h.period, h.delay⟩
    | true =>
      obtain ⟨p, hp⟩ := h.period hper
      rw [handleTimeout_periodic hactive hper hp]
      exact ⟨fun hoff => (hinactive hoff).elim, h.period, h.delay⟩

theorem Sound.handleCommand (h : Sound t) (hs : t.status = .looping) (c : Command) (now : ℚ) :
    Sound (t.handleCommand c now) := by
  cases c with
  | terminate => exact ⟨h.inactive, h.period, h.delay⟩
  | activate => exact ⟨fun hoff => (Bool.false_ne_true hoff.symm).elim, h.period, h.delay⟩
  | deactivate => exact ⟨fun _ => ⟨rfl, rfl⟩, h.period, h.delay⟩
  | halt => exact ⟨fun hoff => ⟨rfl, (h.inactive hoff).2⟩, h.period, h.delay⟩
  | start =>
    cases hactive : t.active with
    | false =>
      rw [start_inactive hactive]
      exact h
    | true =>
      have hinactive : t.active = false → False := by simp [hactive]
      cases hx : t.interval with
      | none =>
        rw [start_none hactive hx]
        exact ⟨h.inactive, h.period, h.delay⟩
      | some x =>
        rw [start_eq hs hactive hx]
        exact ⟨fun hoff => (hinactive hoff).elim, h.period, h.delay⟩
  | cancel =>
    cases hper : t.periodic with
    | false =>
      rw [cancel_sporadic hper]
      exact ⟨fun hoff => ⟨rfl, (h.inactive hoff).2⟩, h.period, h.delay⟩
    | true =>
      cases hlast : t.last with
      | none =>
        rw [cancel_none hper hlast]
        exact h
      | some last =>
        obtain ⟨p, hp⟩ := h.period hper
        rw [cancel_eq hs hper hlast hp]
        -- a timer that has fired is active
        exact ⟨fun hoff => by simp [(h.inactive hoff).2] at hlast, h.period, h.delay⟩

theorem sound_step (h : Sound t) (e : TimerEvent) : Sound (t.step e) := by
  by_cases hs : t.status = .looping
  swap
  · have hstep : t.step e = t := if_pos hs
    rwa [hstep]
  cases e with
  | command c now =>
    rw [step_command hs]
    exact h.handleCommand hs c now
  | elapsed now =>
    by_cases hel : t.canElapse
    · rw [step_elapsed hs hel]
      exact h.handleTimeout now
    · rwa [step_elapsed_of_not hel]
  | setPeriod period =>
    rw [step_setPeriod hs]
    split_ifs
    · exact ⟨h.inactive, fun _ => ⟨period, rfl⟩, h.delay⟩
    · exact h
  | setDelay delay =>
    rw [step_setDelay hs]
    split_ifs with hpos
    · refine ⟨h.inactive, h.period, fun d hd => ?_⟩
      obtain rfl := Option.some.inj hd
      exact hpos
    · exact h

/-! ### Running timers -/

/-- What `running` says is true: a timer that runs is active, and waits for a time that will be over. Then it sends a
tick, or skips it as it was told. -/
structure Truthful (t : TimerThread) : Prop where
  armed : t.status = .looping → t.running → t.active ∧ t.canElapse
  fires : t.status = .looping → t.running → ∀ now,
    (t.step (.elapsed now)).ticks = if t.periodic ∧ t.skip then t.ticks else t.ticks ++ [now]

theorem truthful_of_armed (h : t.status = .looping → t.running → t.active ∧ t.canElapse) : Truthful t := by
  refine ⟨h, fun hs hrun now => ?_⟩
  obtain ⟨hactive, hel⟩ := h hs hrun
  rw [step_elapsed hs hel, ticks_handleTimeout]
  by_cases hskip : t.periodic ∧ t.skip
  · simp [hskip]
  · simp [hactive, hrun, hskip]

theorem truthful_of_not_running (h : t.running = false) : Truthful t :=
  truthful_of_armed fun _ hrun => by simp [h] at hrun

/-- A running, active timer whose timeout is set is truthful exactly if its timeout is not negative. -/
theorem truthful_set_iff (hs : t.status = .looping) (hactive : t.active) (timeout : ℤ) (skip : Bool) (last : Option ℚ)
    (ticks : List ℚ) :
    Truthful { t with timeout := some timeout, running := true, skip := skip, last := last, ticks := ticks } ↔
      0 ≤ timeout := by
  constructor
  · intro h
    have hel := (h.armed hs rfl).2
    simpa [canElapse] using hel
  · exact fun hpos => truthful_of_armed fun _ _ => ⟨hactive, decide_eq_true hpos⟩

/-- A period, or what is left of one, that a poll can wait for. -/
def Waitable (seconds : ℚ) : Prop := -1 < seconds * 1000

instance (seconds : ℚ) : Decidable (Waitable seconds) := inferInstanceAs (Decidable (_ < _))

/-- The timer is not deactivated while it runs; it is not cancelled, while it runs, a millisecond or more after the
period since its last firing is over; and its period, if it has one, is not negative when it is started or fires. -/
def KeepsTruth (t : TimerThread) (e : TimerEvent) : Prop :=
  t.status = .looping → match e with
    | .command .deactivate _ => t.running = false
    | .command .cancel now =>
      t.running → t.periodic → ∀ last ∈ t.last, ∀ period ∈ t.period, Waitable (last + period - now)
    | .command .start _ => t.active → t.periodic → ∀ period ∈ t.period, Waitable period
    | .elapsed _ => t.running → t.periodic → ∀ period ∈ t.period, Waitable period
    | _ => True

instance decidableKeepsTruth (t : TimerThread) : ∀ e, Decidable (t.KeepsTruth e)
  | .command .deactivate _ => inferInstanceAs (Decidable (_ → t.running = false))
  | .command .cancel now => inferInstanceAs (Decidable (_ → t.running → t.periodic →
      ∀ last ∈ t.last, ∀ period ∈ t.period, Waitable (last + period - now)))
  | .command .start _ => inferInstanceAs (Decidable (_ → t.active → t.periodic → ∀ period ∈ t.period, Waitable period))
  | .elapsed _ => inferInstanceAs (Decidable (_ → t.running → t.periodic → ∀ period ∈ t.period, Waitable period))
  | .command .terminate _ | .command .activate _ | .command .halt _ | .setPeriod _ | .setDelay _ =>
    inferInstanceAs (Decidable (_ → True))

theorem truthful_start_iff (h : Sound t) (ht : Truthful t) (hs : t.status = .looping) (now : ℚ) :
    Truthful (t.handleCommand .start now) ↔ (t.active → t.periodic → ∀ period ∈ t.period, Waitable period) := by
  cases hactive : t.active with
  | false =>
    rw [start_inactive hactive]
    exact iff_of_true ht fun hon => (Bool.false_ne_true hon).elim
  | true =>
    cases hper : t.periodic with
    | false =>
      refine iff_of_true ?_ fun _ hon => (Bool.false_ne_true hon).elim
      cases hd : t.delay with
      | none =>
        rw [start_none hactive (by simp [interval, hper, hd])]
        exact truthful_of_armed fun hloop => by cases hloop
      | some d =>
        rw [start_eq hs hactive (x := d) (by simp [interval, hper, hd])]
        refine (truthful_set_iff hs hactive _ _ _ _).mpr ((pyInt_nonneg_iff _).mpr ?_)
        linarith [h.delay d hd]
    | true =>
      obtain ⟨p, hp⟩ := h.period hper
      rw [start_eq hs hactive (x := p) (by simp [interval, hper, hp]), truthful_set_iff hs hactive, pyInt_nonneg_iff]
      simp [hp, Waitable]

theorem truthful_cancel_iff (h : Sound t) (ht : Truthful t) (hs : t.status = .looping) (now : ℚ) :
    Truthful (t.handleCommand .cancel now) ↔
      (t.running → t.periodic → ∀ last ∈ t.last, ∀ period ∈ t.period, Waitable (last + period - now)) := by
  cases hper : t.periodic with
  | false =>
    rw [cancel_sporadic hper]
    exact iff_of_true (truthful_of_not_running rfl) fun _ hon => (Bool.false_ne_true hon).elim
  | true =>
    cases hlast : t.last with
    | none =>
      rw [cancel_none hper hlast]
      exact iff_of_true ht fun _ _ last hmem => nomatch hmem
    | some last =>
      obtain ⟨p, hp⟩ := h.period hper
      rw [cancel_eq hs hper hlast hp]
      cases hrun : t.running with
      | false => exact iff_of_true (truthful_of_not_running rfl) fun hon => (Bool.false_ne_true hon).elim
      | true =>
        rw [truthful_set_iff hs (ht.armed hs hrun).1, pyInt_nonneg_iff]
        simp [hp, Waitable]

theorem truthful_elapsed_iff (h : Sound t) (ht : Truthful t) (hs : t.status = .looping) (now : ℚ) :
    Truthful (t.step (.elapsed now)) ↔ (t.running → t.periodic → ∀ period ∈ t.period, Waitable period) := by
  cases hrun : t.running with
  | false =>
    refine iff_of_true (truthful_of_not_running ?_) fun hon => (Bool.false_ne_true hon).elim
    by_cases hel : t.canElapse
    · rw [step_elapsed hs hel]
      by_cases hactive : t.active <;> by_cases hper : t.periodic <;> simp [handleTimeout, hactive, hper, hrun]
    · rw [step_elapsed_of_not hel, hrun]
  | true =>
    obtain ⟨hactive, hel⟩ := ht.armed hs hrun
    rw [step_elapsed hs hel]
    cases hper : t.periodic with
    | false =>
      rw [handleTimeout_sporadic hactive hper]
      exact iff_of_true (truthful_of_not_running rfl) fun _ hon => (Bool.false_ne_true hon).elim
    | true =>
      obtain ⟨p, hp⟩ := h.period hper
      rw [handleTimeout_periodic hactive hper hp, hrun, truthful_set_iff hs hactive, pyInt_nonneg_iff]
      simp [hp, Waitable]

/-- A step keeps the answer true exactly if it is none of those. -/
theorem truthful_step_iff (h : Sound t) (ht : Truthful t) (e : TimerEvent) : Truthful (t.step e) ↔ t.KeepsTruth e := by
  by_cases hs : t.status = .looping
  swap
  · have hstep : t.step e = t := if_pos hs
    rw [hstep]
    exact iff_of_true ht fun hloop => absurd hloop hs
  cases e with
  | elapsed now => exact (truthful_elapsed_iff h ht hs now).trans ⟨fun hk _ => hk, fun hk => hk hs⟩
  | setPeriod period =>
    refine iff_of_true ?_ fun _ => trivial
    rw [step_setPeriod hs]
    split_ifs
    · exact truthful_of_armed fun hloop hrun => ht.armed hloop hrun
    · exact ht
  | setDelay delay =>
    refine iff_of_true ?_ fun _ => trivial
    rw [step_setDelay hs]
    split_ifs
    · exact truthful_of_armed fun hloop hrun => ht.armed hloop hrun
    · exact ht
  | command c now =>
    rw [step_command hs]
    cases c with
    | terminate => exact iff_of_true (truthful_of_armed fun hloop => by cases hloop) fun _ => trivial
    | activate =>
      exact iff_of_true (truthful_of_armed fun hloop hrun => ⟨rfl, (ht.armed hloop hrun).2⟩) fun _ => trivial
    | halt => exact iff_of_true (truthful_of_not_running rfl) fun _ => trivial
    | start => exact (truthful_start_iff h ht hs now).trans ⟨fun hk _ => hk, fun hk => hk hs⟩
    | cancel => exact (truthful_cancel_iff h ht hs now).trans ⟨fun hk _ => hk, fun hk => hk hs⟩
    | deactivate =>
      constructor
      · intro hk _
        by_contra hrun
        have hoff := (hk.armed hs (Bool.eq_true_of_not_eq_false hrun)).1
        cases hoff
      · exact fun hk => truthful_of_not_running (hk hs)

/-- **When `running` tells the truth**: in all states of exactly the runs whose steps keep it. -/
theorem truthful_iff (period : ℚ) (es : List TimerEvent) :
    Always step Truthful (init period) es ↔ AllSteps step KeepsTruth (init period) es :=
  always_iff_allSteps (P := Truthful) (fun _ e h _ => sound_step h e) (fun _ e h ht => truthful_step_iff h ht e)
    (sound_init period) (truthful_of_not_running rfl) es

/-- A timer is deactivated while it runs; another, of one second, is cancelled late, after it was started again. -/
theorem not_truthful :
    ¬Always step Truthful (init 1000) [.command .activate 0, .command .start 0, .command .deactivate (1 / 2)] ∧
      ¬Always step Truthful (init 1000) [.command .activate 0, .command .start 0, .elapsed 1,
        .command .start (19 / 10), .command .cancel (5 / 2)] := by
  constructor
  · intro h
    exact absurd (h.last.armed (by decide +kernel) (by decide +kernel)).1 (by decide +kernel)
  · intro h
    exact absurd (h.last.armed (by decide +kernel) (by decide +kernel)).2 (by decide +kernel)

end TimerThread

end Riaps.Component
