import Mathlib.Tactic.NormNum
import Riaps.Component.Running

/-!
# Cancelled firings

A `CANCEL` of a periodic timer sets a flag, for the next firing to be skipped, and the
timeout to what is left of the period since the last firing. A `Schedule` is a timer
with what a `CANCEL` is for: whether a firing is suppressed, and when it was due before.
A suppressed firing sends no tick, the others do, each a period after the one before, and
a timer that is halted or deactivated starts anew (`OnSchedule`).

The code looks at the last firing, so a `CANCEL` in the first period is ignored, and one
after the end of the period leaves a timer that waits for ever; and the flag is still set
when the timer was halted in the meantime. `cancels_iff` has the runs in which none of this
happens.
-/

namespace Riaps.Component

open Riaps.Foundation Riaps.Coordination

namespace TimerThread

/-- A firing is to come. -/
def willFire (t : TimerThread) : Bool := t.status = .looping ∧ t.active ∧ t.running ∧ t.canElapse

/-- When the timeout elapses, if the timer waits from the time `since`. -/
def dueFrom (since : ℚ) (t : TimerThread) : ℚ := since + t.timeout.getD 0 / 1000

/-- What is left of the period that began with the last firing, in whole milliseconds; or of the timeout, if it has not
fired. -/
def rest (now : ℚ) (t : TimerThread) : ℤ :=
  match t.last, t.period with
  | some last, some period => pyInt ((last + period - now) * 1000)
  | _, _ => t.timeout.getD 0

end TimerThread

/-- A timer, with what its `CANCEL`s are for. -/
structure Schedule where
  timer : TimerThread
  /-- The time from which the thread waits. -/
  since : ℚ
  /-- When its timeout was to elapse before it was cancelled. -/
  due : ℚ
  /-- The next firing is to be skipped. -/
  suppressed : Bool

namespace Schedule

open TimerThread

/-- A timer as it enters its loop. -/
def init (period now : ℚ) : Schedule := ⟨.init period, now, now, false⟩

/-- The schedule goes on from `now`. -/
def goOn (now : ℚ) (suppressed : Bool) (t : TimerThread) : Schedule := ⟨t, now, t.dueFrom now, suppressed⟩

/-- One event. A `CANCEL` suppresses the firing that is to come, if there is one, and leaves it when it is due. -/
def step (w : Schedule) (e : TimerEvent) : Schedule :=
  match e with
  | .command .cancel now =>
    if w.timer.willFire then ⟨w.timer.step e, now, w.due, true⟩ else goOn now w.suppressed (w.timer.step e)
  | .command .halt now | .command .deactivate now => goOn now false (w.timer.step e)
  | .command _ now => goOn now w.suppressed (w.timer.step e)
  | .elapsed now => if w.timer.canElapse then goOn now false (w.timer.step e) else w
  | .setPeriod _ | .setDelay _ => { w with timer := w.timer.step e }

/-- Firings come as they should. -/
structure OnSchedule (w : Schedule) : Prop where
  /-- A running timer does not wait for ever. -/
  waits : w.timer.status = .looping → w.timer.active → w.timer.running → ∀ timeout ∈ w.timer.timeout, 0 ≤ timeout
  /-- A firing sends a tick exactly if it is not suppressed, -/
  fires : w.timer.willFire → ∀ now,
    (w.timer.step (.elapsed now)).ticks = if w.suppressed then w.timer.ticks else w.timer.ticks ++ [now]
  /-- and the next one comes after a period. -/
  again : w.timer.willFire → ∀ now, (w.timer.step (.elapsed now)).active ∧ (w.timer.step (.elapsed now)).running ∧
    ∀ period ∈ w.timer.period, (w.timer.step (.elapsed now)).timeout = some (pyInt (period * 1000))
  /-- To the millisecond, a firing is due when it was due before it was suppressed. -/
  punctual : w.timer.willFire → |w.timer.dueFrom w.since - w.due| < 1 / 1000

/-- What is left of the period is over when the timeout is, to the millisecond, and not over yet. -/
def InPeriod (w : Schedule) (now : ℚ) : Prop :=
  0 ≤ w.timer.rest now ∧ |now + w.timer.rest now / 1000 - w.due| < 1 / 1000

/-- A timer that is to fire is cancelled only after its first firing, and in time; no flag is left over when a timer is
started that is not to fire; and no period is negative. -/
def KeepsSchedule (w : Schedule) (e : TimerEvent) : Prop :=
  w.timer.status = .looping → match e with
    | .command .cancel now => w.timer.willFire → (w.timer.last ≠ none ∨ w.timer.skip) ∧ w.InPeriod now
    | .command .start _ =>
      w.timer.active → (∀ period ∈ w.timer.period, Waitable period) ∧ (w.timer.skip → w.timer.willFire)
    | .elapsed _ => w.timer.willFire → ∀ period ∈ w.timer.period, Waitable period
    | _ => True

instance (w : Schedule) (now : ℚ) : Decidable (w.InPeriod now) := inferInstanceAs (Decidable (_ ∧ _))

instance decidableKeepsSchedule (w : Schedule) : ∀ e, Decidable (w.KeepsSchedule e)
  | .command .cancel now => inferInstanceAs (Decidable (_ → w.timer.willFire →
      (w.timer.last ≠ none ∨ w.timer.skip) ∧ w.InPeriod now))
  | .command .start _ => inferInstanceAs (Decidable (_ → w.timer.active →
      (∀ period ∈ w.timer.period, Waitable period) ∧ (w.timer.skip → w.timer.willFire)))
  | .elapsed _ => inferInstanceAs (Decidable (_ → w.timer.willFire → ∀ period ∈ w.timer.period, Waitable period))
  | .command .terminate _ | .command .activate _ | .command .halt _ | .command .deactivate _ | .setPeriod _
  | .setDelay _ => inferInstanceAs (Decidable (_ → True))

/-! ### What a firing does -/

theorem willFire_iff {t : TimerThread} :
    t.willFire = true ↔ t.status = .looping ∧ t.active ∧ t.running ∧ t.canElapse := decide_eq_true_iff

theorem willFire_of_timeout {t : TimerThread} (hs : t.status = .looping) (hactive : t.active) (hrun : t.running)
    {timeout : ℤ} (htimeout : t.timeout = some timeout) : t.willFire = true ↔ 0 ≤ timeout := by
  simp [willFire_iff, canElapse, hs, hactive, hrun, htimeout]

/-- The firing of a periodic timer. -/
theorem step_of_willFire {t : TimerThread} (h : Sound t) (hper : t.periodic) (hfire : t.willFire) :
    ∃ p, t.period = some p ∧ ∀ now, t.step (.elapsed now) =
      { t with
        last := some now
        ticks := if t.skip then t.ticks else t.ticks ++ [now]
        skip := false
        timeout := some (pyInt (p * 1000)) } := by
  obtain ⟨hs, hactive, hrun, hel⟩ := willFire_iff.mp hfire
  obtain ⟨p, hp⟩ := h.period hper
  refine ⟨p, hp, fun now => ?_⟩
  rw [step_elapsed hs hel, handleTimeout_periodic hactive hper hp]
  cases hskip : t.skip <;> simp [hrun]

variable {w : Schedule}

/-- A firing is suppressed by the flag. -/
theorem fires_iff (h : Sound w.timer) (hper : w.timer.periodic) (hfire : w.timer.willFire) :
    (∀ now, (w.timer.step (.elapsed now)).ticks = if w.suppressed then w.timer.ticks else w.timer.ticks ++ [now]) ↔
      w.timer.skip = w.suppressed := by
  obtain ⟨p, -, hstep⟩ := step_of_willFire h hper hfire
  constructor
  · intro hticks
    have h0 := hticks 0
    rw [hstep] at h0
    cases hskip : w.timer.skip <;> cases hsup : w.suppressed <;> simp_all
  · intro hskip now
    rw [hstep, hskip]

/-- The schedule in terms of the flag: a firing a period later follows. -/
theorem onSchedule_iff (h : Sound w.timer) (hper : w.timer.periodic) :
    w.OnSchedule ↔
      (w.timer.status = .looping → w.timer.active → w.timer.running → ∀ timeout ∈ w.timer.timeout, 0 ≤ timeout) ∧
      (w.timer.willFire → w.timer.skip = w.suppressed ∧ |w.timer.dueFrom w.since - w.due| < 1 / 1000) := by
  constructor
  · exact fun hw => ⟨hw.waits, fun hfire => ⟨(fires_iff h hper hfire).mp (hw.fires hfire), hw.punctual hfire⟩⟩
  · rintro ⟨hwaits, hfires⟩
    refine ⟨hwaits, fun hfire => (fires_iff h hper hfire).mpr (hfires hfire).1, fun hfire now => ?_,
      fun hfire => (hfires hfire).2⟩
    obtain ⟨p, hp, hstep⟩ := step_of_willFire h hper hfire
    obtain ⟨-, hactive, hrun, -⟩ := willFire_iff.mp hfire
    rw [hstep]
    refine ⟨hactive, hrun, fun period hperiod => ?_⟩
    obtain rfl := Option.some.inj (hp.symm.trans hperiod)
    rfl

/-- Where no firing is to come the schedule is kept, but for a timer that waits for ever. -/
theorem onSchedule_of_not_running (h : Sound w.timer) (hper : w.timer.periodic)
    (hidle : w.timer.status = .looping → w.timer.active → w.timer.running → False) : w.OnSchedule := by
  refine (onSchedule_iff h hper).mpr ⟨fun hs hactive hrun => (hidle hs hactive hrun).elim, fun hfire => ?_⟩
  obtain ⟨hs, hactive, hrun, -⟩ := willFire_iff.mp hfire
  exact (hidle hs hactive hrun).elim

/-- What goes on from `now` is due when it will elapse. -/
theorem onSchedule_goOn {t : TimerThread} (h : Sound t) (hper : t.periodic) (now : ℚ) (suppressed : Bool) :
    (goOn now suppressed t).OnSchedule ↔
      (t.status = .looping → t.active → t.running → ∀ timeout ∈ t.timeout, 0 ≤ timeout) ∧
      (t.willFire → t.skip = suppressed) := by
  rw [onSchedule_iff h hper]
  have hdue : |t.dueFrom now - t.dueFrom now| < 1 / 1000 := by norm_num
  exact and_congr_right fun _ => ⟨fun hf hfire => (hf hfire).1, fun hf hfire => ⟨hf hfire, hdue⟩⟩

/-- What is so in every state of a periodic timer. -/
structure Tracked (w : Schedule) : Prop where
  sound : Sound w.timer
  periodic : w.timer.periodic
  /-- A firing that is suppressed is to come. -/
  pending : w.timer.status = .looping → w.suppressed → w.timer.active ∧ w.timer.running ∧ w.timer.timeout ≠ none
  /-- A running timer whose timeout is not set was activated and not started. -/
  fresh : w.timer.status = .looping → w.timer.active → w.timer.running → w.timer.timeout = none → w.timer.last = none

theorem tracked_init {period : ℚ} (hperiod : period ≠ 0) (now : ℚ) : Tracked (init period now) where
  sound := sound_init period
  periodic := decide_eq_true hperiod
  pending _ h := by cases h
  fresh _ h := by cases h

/-- The timer of a schedule is a timer. -/
theorem timer_step (w : Schedule) (e : TimerEvent) : (w.step e).timer = w.timer.step e := by
  cases e with
  | command c now =>
    cases c with
    | cancel =>
      rw [step]
      split <;> rfl
    | _ => rfl
  | elapsed now =>
    rw [step]
    split_ifs with hel
    · rfl
    · exact (step_elapsed_of_not hel now).symm
  | setPeriod | setDelay => rfl

/-- A timer that has left its loop is tracked. -/
theorem tracked_of_ended (h : Sound w.timer) (hper : w.timer.periodic) (hs : w.timer.status ≠ .looping) : Tracked w :=
  ⟨h, hper, fun hloop => absurd hloop hs, fun hloop => absurd hloop hs⟩

theorem step_of_ended {t : TimerThread} (hs : t.status ≠ .looping) (e : TimerEvent) : t.step e = t := if_pos hs

theorem cancel_step {t : TimerThread} (h : Sound t) (hper : t.periodic) (hs : t.status = .looping) (now : ℚ) :
    t.step (.command .cancel now) = t ∧ t.last = none ∨ t.last ≠ none ∧
      t.step (.command .cancel now) = { t with timeout := some (t.rest now), skip := true } := by
  rw [step_command hs]
  cases hlast : t.last with
  | none => exact .inl ⟨cancel_none hper hlast now, rfl⟩
  | some last =>
    obtain ⟨p, hp⟩ := h.period hper
    refine .inr ⟨by simp, ?_⟩
    rw [cancel_eq hs hper hlast hp, rest, hlast, hp]

theorem start_step {t : TimerThread} (h : Sound t) (hper : t.periodic) (hs : t.status = .looping) (hactive : t.active)
    (now : ℚ) : ∃ p, t.period = some p ∧
      t.step (.command .start now) = { t with timeout := some (pyInt (p * 1000)), running := true } := by
  obtain ⟨p, hp⟩ := h.period hper
  refine ⟨p, hp, ?_⟩
  rw [step_command hs, start_eq hs hactive (x := p) (by simp [interval, hper, hp])]

theorem fresh_step {t : TimerThread} (h : Sound t) (hper : t.periodic) (hs : t.status = .looping)
    (hfresh : t.active → t.running → t.timeout = none → t.last = none) (e : TimerEvent) :
    (t.step e).active → (t.step e).running → (t.step e).timeout = none → (t.step e).last = none := by
  cases e with
  | elapsed now =>
    by_cases hel : t.canElapse
    · rw [step_elapsed hs hel]
      cases hactive : t.active with
      | false =>
        intro hon
        simp [handleTimeout, hactive] at hon
      | true =>
        obtain ⟨p, hp⟩ := h.period hper
        rw [handleTimeout_periodic hactive hper hp]
        exact fun _ _ hnone => by cases hnone
    · rwa [step_elapsed_of_not hel]
  | setPeriod period =>
    rw [step_setPeriod hs]
    split_ifs <;> exact hfresh
  | setDelay delay =>
    rw [step_setDelay hs]
    split_ifs <;> exact hfresh
  | command c now =>
    cases c with
    | start =>
      cases hactive : t.active with
      | false =>
        rw [step_command hs, start_inactive hactive]
        exact fun hon => hfresh hon
      | true =>
        obtain ⟨p, -, hstep⟩ := start_step h hper hs hactive now
        rw [hstep]
        exact fun _ _ hnone => by cases hnone
    | cancel =>
      rcases cancel_step h hper hs now with ⟨hstep, -⟩ | ⟨-, hstep⟩
      · rwa [hstep]
      · rw [hstep]
        exact fun _ _ hnone => by cases hnone
    | terminate =>
      rw [step_command hs]
      exact hfresh
    | activate =>
      rw [step_command hs]
      exact fun _ _ _ => rfl
    | deactivate =>
      rw [step_command hs]
      exact fun hon => by cases hon
    | halt =>
      rw [step_command hs]
      exact fun _ hrun => by cases hrun

theorem pending_step (h : Tracked w) (hs : w.timer.status = .looping) (e : TimerEvent)
    (hloop : (w.step e).timer.status = .looping) (hsup : (w.step e).suppressed) :
    (w.step e).timer.active ∧ (w.step e).timer.running ∧ (w.step e).timer.timeout ≠ none := by
  have hpending := h.pending hs
  rw [timer_step] at hloop ⊢
  cases e with
  | elapsed now =>
    rw [step] at hsup
    split_ifs at hsup with hel
    · cases hsup
    · rw [step_elapsed_of_not hel]
      exact hpending hsup
  | setPeriod period =>
    rw [step_setPeriod hs]
    split_ifs <;> exact hpending hsup
  | setDelay delay =>
    rw [step_setDelay hs]
    split_ifs <;> exact hpending hsup
  | command c now =>
    cases c with
    | halt | deactivate => cases hsup
    | terminate =>
      rw [step_command hs] at hloop
      cases hloop
    | activate =>
      rw [step_command hs]
      exact ⟨rfl, (hpending hsup).2⟩
    | start =>
      obtain ⟨hactive, -⟩ := hpending hsup
      obtain ⟨p, -, hstep⟩ := start_step h.sound h.periodic hs hactive now
      rw [hstep]
      exact ⟨hactive, rfl, by simp⟩
    | cancel =>
      have hbefore : w.timer.active ∧ w.timer.running ∧ w.timer.timeout ≠ none := by
        rw [step] at hsup
        split_ifs at hsup with hfire
        · obtain ⟨-, hactive, hrun, hel⟩ := willFire_iff.mp hfire
          refine ⟨hactive, hrun, fun hnone => ?_⟩
          rw [canElapse, hnone] at hel
          cases hel
        · exact hpending hsup
      rcases cancel_step h.sound h.periodic hs now with ⟨hstep, -⟩ | ⟨-, hstep⟩
      · rwa [hstep]
      · rw [hstep]
        exact ⟨hbefore.1, hbefore.2.1, by simp⟩

theorem Tracked.periodic_step (h : Tracked w) (e : TimerEvent) : (w.timer.step e).periodic := by
  rw [TimerThread.periodic_step]
  exact h.periodic

theorem tracked_step (h : Tracked w) (e : TimerEvent) : Tracked (w.step e) := by
  have hsound : Sound (w.step e).timer := by
    rw [timer_step]
    exact sound_step h.sound e
  have hper : (w.step e).timer.periodic := by
    rw [timer_step]
    exact h.periodic_step e
  by_cases hs : w.timer.status = .looping
  swap
  · refine tracked_of_ended hsound hper ?_
    rw [timer_step, step_of_ended hs]
    exact hs
  refine ⟨hsound, hper, pending_step h hs e, fun _ => ?_⟩
  rw [timer_step]
  exact fresh_step h.sound h.periodic hs (h.fresh hs) e

/-! ### What keeps the schedule -/

/-- A suppression that is pending is of a firing that is to come. -/
theorem willFire_of_suppressed (h : Tracked w) (hw : w.OnSchedule) (hs : w.timer.status = .looping)
    (hsup : w.suppressed) : w.timer.willFire := by
  obtain ⟨hactive, hrun, htimeout⟩ := h.pending hs hsup
  obtain ⟨timeout, htimeout⟩ := Option.ne_none_iff_exists'.mp htimeout
  exact (willFire_of_timeout hs hactive hrun htimeout).mpr (hw.waits hs hactive hrun timeout htimeout)

theorem skip_of_onSchedule (h : Tracked w) (hw : w.OnSchedule) (hfire : w.timer.willFire) :
    w.timer.skip = w.suppressed := (fires_iff h.sound h.periodic hfire).mp (hw.fires hfire)

theorem start_iff (h : Tracked w) (hw : w.OnSchedule) (hs : w.timer.status = .looping) (now : ℚ) :
    (w.step (.command .start now)).OnSchedule ↔
      (w.timer.active → (∀ period ∈ w.timer.period, Waitable period) ∧ (w.timer.skip → w.timer.willFire)) := by
  show (goOn now w.suppressed (w.timer.step (.command .start now))).OnSchedule ↔ _
  rw [onSchedule_goOn (sound_step h.sound _) (h.periodic_step _)]
  cases hactive : w.timer.active with
  | false =>
    rw [step_command hs, start_inactive hactive]
    refine iff_of_true ⟨fun _ hon => ?_, fun hfire => ?_⟩ fun hon => (Bool.false_ne_true hon).elim
    · simp [hactive] at hon
    · obtain ⟨-, hon, -⟩ := willFire_iff.mp hfire
      simp [hactive] at hon
  | true =>
    obtain ⟨p, hp, hstep⟩ := start_step h.sound h.periodic hs hactive now
    -- the flag is as it should be, or it is left over
    have hleft : w.timer.skip = w.suppressed ↔ (w.timer.skip → w.timer.willFire) := by
      by_cases hfire : w.timer.willFire
      · exact iff_of_true (skip_of_onSchedule h hw hfire) fun _ => hfire
      · have hnone : w.suppressed = false := by
          by_contra hsup
          exact hfire (willFire_of_suppressed h hw hs (Bool.eq_true_of_not_eq_false hsup))
        rw [hnone]
        cases w.timer.skip <;> simp [hfire]
    rw [hstep, ← hleft]
    have hwill := willFire_of_timeout (t := { w.timer with timeout := some (pyInt (p * 1000)), running := true }) hs
      hactive rfl rfl
    rw [hwill, pyInt_nonneg_iff]
    simp only [hs, hactive, hp, Option.mem_def, Option.some.injEq, forall_eq', true_implies, pyInt_nonneg_iff]
    exact and_congr_right fun hpos => ⟨fun hf => hf hpos, fun hf _ => hf⟩

theorem cancel_iff (h : Tracked w) (hw : w.OnSchedule) (hs : w.timer.status = .looping) (now : ℚ) :
    (w.step (.command .cancel now)).OnSchedule ↔
      (w.timer.willFire → (w.timer.last ≠ none ∨ w.timer.skip) ∧ w.InPeriod now) := by
  have hsound := sound_step h.sound (.command .cancel now)
  have hper := h.periodic_step (.command .cancel now)
  rw [step]
  by_cases hfire : w.timer.willFire
  · obtain ⟨-, hactive, hrun, hel⟩ := willFire_iff.mp hfire
    rw [if_pos hfire, onSchedule_iff hsound hper]
    simp only [hfire, true_implies]
    rcases cancel_step h.sound h.periodic hs now with ⟨hstep, hlast⟩ | ⟨hlast, hstep⟩
    · -- it has not fired yet: nothing is done
      have hrest : w.timer.rest now = w.timer.timeout.getD 0 := by rw [rest, hlast]
      have hpos : 0 ≤ w.timer.timeout.getD 0 := by
        cases htimeout : w.timer.timeout with
        | none => exact le_rfl
        | some timeout => exact hw.waits hs hactive hrun timeout htimeout
      rw [hstep, InPeriod, hrest, hlast]
      constructor
      · rintro ⟨-, hfires⟩
        exact ⟨.inr (hfires hfire).1, hpos, (hfires hfire).2⟩
      · rintro ⟨hskip, -, hdue⟩
        exact ⟨hw.waits, fun _ => ⟨hskip.resolve_left (not_not.mpr rfl), hdue⟩⟩
    · have hwill := willFire_of_timeout (t := { w.timer with timeout := some (w.timer.rest now), skip := true }) hs
        hactive hrun rfl
      rw [hstep, hwill, InPeriod]
      simp only [hs, hactive, hrun, true_implies, Option.mem_def, Option.some.injEq, forall_eq', dueFrom,
        Option.getD_some, true_and, ne_eq, hlast, not_false_eq_true, true_or]
      exact and_congr_right fun hpos => ⟨fun hf => hf hpos, fun hf _ => hf⟩
  · rw [if_neg hfire]
    refine iff_of_true ((onSchedule_goOn hsound hper now w.suppressed).mpr ?_) fun hf => absurd hf hfire
    rcases cancel_step h.sound h.periodic hs now with ⟨hstep, -⟩ | ⟨hlast, hstep⟩
    · rw [hstep]
      exact ⟨hw.waits, fun hf => absurd hf hfire⟩
    · -- a timer that has fired, and is not to fire again, does not run
      have hidle : w.timer.active → w.timer.running → False := by
        intro hactive hrun
        cases htimeout : w.timer.timeout with
        | none => exact hlast (h.fresh hs hactive hrun htimeout)
        | some timeout =>
          exact hfire ((willFire_of_timeout hs hactive hrun htimeout).mpr (hw.waits hs hactive hrun timeout htimeout))
      rw [hstep]
      refine ⟨fun _ hactive hrun => (hidle hactive hrun).elim, fun hf => ?_⟩
      obtain ⟨-, hactive, hrun, -⟩ := willFire_iff.mp hf
      exact (hidle hactive hrun).elim

theorem elapsed_iff (h : Tracked w) (hw : w.OnSchedule) (hs : w.timer.status = .looping) (now : ℚ) :
    (w.step (.elapsed now)).OnSchedule ↔ (w.timer.willFire → ∀ period ∈ w.timer.period, Waitable period) := by
  rw [step]
  by_cases hel : w.timer.canElapse
  swap
  · rw [if_neg hel]
    exact iff_of_true hw fun hfire => absurd (willFire_iff.mp hfire).2.2.2 hel
  rw [if_pos hel, onSchedule_goOn (sound_step h.sound _) (h.periodic_step _)]
  by_cases hfire : w.timer.willFire
  · obtain ⟨-, hactive, hrun, -⟩ := willFire_iff.mp hfire
    obtain ⟨p, hp, hstep⟩ := step_of_willFire h.sound h.periodic hfire
    rw [hstep]
    simp only [hs, hactive, hrun, hp, hfire, true_implies, Option.mem_def, Option.some.injEq, forall_eq',
      pyInt_nonneg_iff, implies_true, and_true]
    exact Iff.rfl
  · refine iff_of_true ?_ fun hf => absurd hf hfire
    have hidle : (w.timer.step (.elapsed now)).active → (w.timer.step (.elapsed now)).running → False := by
      rw [step_elapsed hs hel]
      cases hactive : w.timer.active with
      | false =>
        intro hon
        simp [handleTimeout, hactive] at hon
      | true =>
        obtain ⟨p, hp⟩ := h.sound.period h.periodic
        rw [handleTimeout_periodic hactive h.periodic hp]
        exact fun _ hrun => hfire (willFire_iff.mpr ⟨hs, hactive, hrun, hel⟩)
    refine ⟨fun _ hactive hrun => (hidle hactive hrun).elim, fun hf => ?_⟩
    obtain ⟨-, hactive, hrun, -⟩ := willFire_iff.mp hf
    exact (hidle hactive hrun).elim

theorem onSchedule_activate (h : Tracked w) (hw : w.OnSchedule) (hs : w.timer.status = .looping) (now : ℚ) :
    (w.step (.command .activate now)).OnSchedule := by
  show (goOn now w.suppressed (w.timer.step (.command .activate now))).OnSchedule
  rw [onSchedule_goOn (sound_step h.sound _) (h.periodic_step _), step_command hs]
  show (_ → _ → _ → ∀ timeout ∈ w.timer.timeout, 0 ≤ timeout) ∧ (_ → w.timer.skip = w.suppressed)
  cases hactive : w.timer.active with
  | false =>
    obtain ⟨hnone, -⟩ := h.sound.inactive hactive
    refine ⟨fun _ _ _ timeout htimeout => ?_, fun hfire => ?_⟩
    · rw [hnone] at htimeout
      cases htimeout
    · have hel : w.timer.canElapse := (willFire_iff.mp hfire).2.2.2
      rw [canElapse, hnone] at hel
      cases hel
  | true =>
    refine ⟨fun _ _ hrun => hw.waits hs hactive hrun, fun hfire => ?_⟩
    obtain ⟨-, -, hrun, hel⟩ := willFire_iff.mp hfire
    exact skip_of_onSchedule h hw (willFire_iff.mpr ⟨hs, hactive, hrun, hel⟩)

/-- Where the period or the delay is set anew, the firing that is to come is as it was. -/
theorem onSchedule_of_same (h : Tracked w) (hw : w.OnSchedule) {t : TimerThread} (hsound : Sound t)
    (hstatus : t.status = w.timer.status) (hactive : t.active = w.timer.active) (hrun : t.running = w.timer.running)
    (htimeout : t.timeout = w.timer.timeout) (hskip : t.skip = w.timer.skip) (hper : t.periodic = w.timer.periodic) :
    ({ w with timer := t } : Schedule).OnSchedule := by
  have hfire : t.willFire = w.timer.willFire := by
    rw [willFire, willFire, canElapse, canElapse, hstatus, hactive, hrun, htimeout]
  refine (onSchedule_iff hsound (hper.trans h.periodic)).mpr ⟨?_, fun hf => ⟨?_, ?_⟩⟩
  · show t.status = .looping → t.active → t.running → ∀ timeout ∈ t.timeout, 0 ≤ timeout
    rw [hstatus, hactive, hrun, htimeout]
    exact hw.waits
  · exact hskip.trans (skip_of_onSchedule h hw (hfire ▸ hf))
  · have hdue : t.dueFrom w.since = w.timer.dueFrom w.since := by rw [dueFrom, dueFrom, htimeout]
    show |t.dueFrom w.since - w.due| < 1 / 1000
    rw [hdue]
    exact hw.punctual (hfire ▸ hf)

/-- A step keeps the schedule exactly if it is as it should be. -/
theorem onSchedule_step_iff (h : Tracked w) (hw : w.OnSchedule) (e : TimerEvent) :
    (w.step e).OnSchedule ↔ w.KeepsSchedule e := by
  have hstep := tracked_step h e
  by_cases hs : w.timer.status = .looping
  swap
  · refine iff_of_true ?_ fun hloop => absurd hloop hs
    refine onSchedule_of_not_running hstep.sound hstep.periodic fun hloop => ?_
    rw [timer_step, step_of_ended hs] at hloop
    exact absurd hloop hs
  cases e with
  | elapsed now => exact (elapsed_iff h hw hs now).trans ⟨fun hk _ => hk, fun hk => hk hs⟩
  | setPeriod period =>
    refine iff_of_true (onSchedule_of_same h hw hstep.sound ?_ ?_ ?_ ?_ ?_ ?_) fun _ => trivial
    all_goals
      rw [step_setPeriod hs]
      split_ifs <;> rfl
  | setDelay delay =>
    refine iff_of_true (onSchedule_of_same h hw hstep.sound ?_ ?_ ?_ ?_ ?_ ?_) fun _ => trivial
    all_goals
      rw [step_setDelay hs]
      split_ifs <;> rfl
  | command c now =>
    cases c with
    | start => exact (start_iff h hw hs now).trans ⟨fun hk _ => hk, fun hk => hk hs⟩
    | cancel => exact (cancel_iff h hw hs now).trans ⟨fun hk _ => hk, fun hk => hk hs⟩
    | activate => exact iff_of_true (onSchedule_activate h hw hs now) fun _ => trivial
    | terminate | deactivate | halt =>
      refine iff_of_true (onSchedule_of_not_running hstep.sound hstep.periodic ?_) fun _ => trivial
      rw [timer_step, step_command hs]
      intro hloop hactive hrun
      first | cases hloop | cases hactive | cases hrun

/-- **Which runs keep the schedule**: a `CANCEL` suppresses the next firing of a periodic timer and no other, whatever
comes after it, in all states of exactly the runs whose steps keep it. -/
theorem cancels_iff {period : ℚ} (hperiod : period ≠ 0) (now : ℚ) (es : List TimerEvent) :
    Always step OnSchedule (init period now) es ↔ AllSteps step KeepsSchedule (init period now) es :=
  always_iff_allSteps (P := OnSchedule) (fun _ e h _ => tracked_step h e) (fun _ e h hw => onSchedule_step_iff h hw e)
    (tracked_init hperiod now)
    (onSchedule_of_not_running (sound_init period) (decide_eq_true hperiod) fun _ hactive => by cases hactive) es

/-- A timer of one second is cancelled after its first firing, twice, and fires; then it is halted and started. -/
theorem cancels_once : Always step OnSchedule (init 1000 0) [.command .activate 0, .command .start 0, .elapsed 1,
    .command .cancel (3 / 2), .command .cancel (7 / 4), .elapsed 2, .elapsed 3, .command .halt (7 / 2),
    .command .start 4, .elapsed 5] :=
  (cancels_iff (by decide) 0 _).mpr (by decide +kernel)

/-- It is cancelled in the first period; or late, after it was started again; or halted before the firing that was
cancelled, and started. -/
theorem not_cancels :
    ¬Always step OnSchedule (init 1000 0) [.command .activate 0, .command .start 0, .command .cancel (1 / 2)] ∧
      ¬Always step OnSchedule (init 1000 0) [.command .activate 0, .command .start 0, .elapsed 1,
        .command .start (19 / 10), .command .cancel (5 / 2)] ∧
      ¬Always step OnSchedule (init 1000 0) [.command .activate 0, .command .start 0, .elapsed 1,
        .command .cancel (3 / 2), .command .halt (8 / 5), .command .start 2] := by
  refine ⟨fun h => ?_, fun h => ?_, fun h => ?_⟩
  · -- the tick comes though it is suppressed
    exact absurd (h.last.fires (by decide +kernel) 1) (by decide +kernel)
  · exact absurd (h.last.waits (by decide +kernel) (by decide +kernel) (by decide +kernel) (-500) (by decide +kernel))
      (by decide)
  · -- the tick does not come though it is not suppressed any more
    exact absurd (h.last.fires (by decide +kernel) 3) (by decide +kernel)

end Schedule

end Riaps.Component
