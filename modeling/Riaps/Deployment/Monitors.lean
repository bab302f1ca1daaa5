import Riaps.Deployment.DeploymentManager

/-!
# The manager and its threads

The deployment manager and the threads that wait for its processes run side by
side. A thread sends the manager the name of its process, the manager handles
one message after another and replies to the thread that sent it. `System` is
the manager with its threads, the messages and the replies that are on their
way; one step is a call that the manager serves, a message that it handles, a
step of a thread, or the end of a process, in any order.

A thread shares two flags with the manager. What the manager does to a thread is
`monitor` and `release`, and what both of them keep, it keeps (`Managed`).
-/

namespace Riaps.Deployment

open Riaps.Foundation

/-! ### Flags -/

/-- The flag is set here. -/
def MonitorState.flagged : MonitorState → Bool
  | .reporting | .receiving | .answered => true
  | _ => false

namespace ProcessMonitor

variable {t : ProcessMonitor}

theorem run_flagged (ended : List Proc) (reply : Bool) (h : t.unexpected = t.state.flagged) :
    (t.run ended reply).unexpected = (t.run ended reply).state.flagged := by
  obtain ⟨proc_name, proc, released, unexpected, state⟩ := t
  dsimp only at h
  subst h
  cases state with
  | waiting p =>
    unfold run
    dsimp only
    split_ifs <;> rfl
  | woken => cases released <;> rfl
  | receiving => cases reply <;> rfl
  | _ => rfl

/-- Only a thread that was released ends. -/
theorem released_of_run_closed {ended : List Proc} {reply : Bool} (hrun : (t.run ended reply).state = .closed)
    (h : t.state = .closed → t.released = true) : t.released = true := by
  obtain ⟨proc_name, proc, released, unexpected, state⟩ := t
  cases state with
  | waiting p =>
    unfold run at hrun
    dsimp only at hrun
    split_ifs at hrun
  | woken =>
    cases released with
    | true => rfl
    | false => exact MonitorState.noConfusion hrun
  | receiving => cases reply <;> exact MonitorState.noConfusion hrun
  | closed => exact h rfl
  | _ => exact MonitorState.noConfusion hrun

end ProcessMonitor

namespace ProcessManager

/-- The flags are what the states of the threads say, and a thread in the map is not released. -/
structure Sound (pm : ProcessManager) : Prop where
  flagged : ∀ (i : ℕ) (t : ProcessMonitor), pm.threads[i]? = some t → t.unexpected = t.state.flagged
  closed : ∀ (i : ℕ) (t : ProcessMonitor), pm.threads[i]? = some t → t.state = .closed → t.released = true
  unreleased : ∀ qualName i (t : ProcessMonitor),
    pm.monitors.get? qualName = some i → pm.threads[i]? = some t → t.released = false

theorem Sound.init : Sound init where
  flagged i t h := by simp [ProcessManager.init] at h
  closed i t h := by simp [ProcessManager.init] at h
  unreleased qualName i t h := by simp [ProcessManager.init] at h

/-- The threads after `monitor`. -/
theorem of_getElem?_monitor {qualName : Text} {proc : Proc} {pm : ProcessManager} {i : ℕ} {t : ProcessMonitor}
    (h : (pm.monitor qualName proc).threads[i]? = some t) :
    (∃ t₀, pm.threads[i]? = some t₀ ∧ (t = t₀ ∨ t = t₀.setup proc)) ∨ t = ⟨qualName, proc, false, false, .looping⟩ := by
  cases hget : pm.threads[i]? with
  | some t₀ =>
    rw [getElem?_monitor hget] at h
    refine .inl ⟨t₀, rfl, ?_⟩
    rw [← Option.some.inj h]
    split_ifs
    · exact .inr rfl
    · exact .inl rfl
  | none =>
    refine .inr ?_
    have hlen := List.getElem?_eq_none_iff.mp hget
    unfold monitor at h
    cases hname : pm.monitors.get? qualName with
    | some j =>
      rw [hname] at h
      have hlt := (List.getElem?_eq_some_iff.mp h).1
      simp only [modify, List.length_modify] at hlt
      omega
    | none =>
      rw [hname] at h
      dsimp only [start] at h
      rw [List.getElem?_append_right hlen] at h
      exact (List.mem_singleton.mp (List.mem_of_getElem? h))

/-- The threads after `release`. -/
theorem of_getElem?_release {qualName : Text} {pm : ProcessManager} {i : ℕ} {t : ProcessMonitor}
    (h : (pm.release qualName).threads[i]? = some t) :
    ∃ t₀, pm.threads[i]? = some t₀ ∧
      t = if pm.monitors.get? qualName = some i ∧ pm.error i = false then t₀.release else t₀ := by
  cases hget : pm.threads[i]? with
  | some t₀ =>
    rw [getElem?_release hget] at h
    exact ⟨t₀, rfl, (Option.some.inj h).symm⟩
  | none =>
    have hlen := List.getElem?_eq_none_iff.mp hget
    have hlt := (List.getElem?_eq_some_iff.mp h).1
    rw [length_release] at hlt
    omega

/-- A name that is in the map after `release` was in it, and if it is that name, its thread reports. -/
theorem of_get?_release {qualName name : Text} {pm : ProcessManager} {i : ℕ}
    (h : (pm.release qualName).monitors.get? name = some i) :
    pm.monitors.get? name = some i ∧ (name = qualName → pm.error i = true) := by
  by_cases hname : name = qualName
  · subst hname
    unfold release at h
    cases hget : pm.monitors.get? name with
    | some j =>
      rw [hget] at h
      dsimp only at h
      split_ifs at h with herror
      · rw [hget] at h
        exact ⟨h, fun _ => Option.some.inj h ▸ herror⟩
      · rw [remove, Dict.get?_del, if_pos rfl] at h
        exact absurd h (Option.some_ne_none i).symm
    | none =>
      rw [hget] at h
      exact absurd (hget.symm.trans h) (Option.some_ne_none i).symm
  · rw [get?_release_of_ne hname] at h
    exact ⟨h, fun he => absurd he hname⟩

/-! ### What the manager does to the threads -/

/-- What `monitor` and `release` keep. -/
structure Managed (J : ProcessManager → Prop) : Prop where
  monitor : ∀ pm qualName proc, J pm → J (pm.monitor qualName proc)
  release : ∀ pm qualName, J pm → J (pm.release qualName)

theorem managed_sound : Managed Sound where
  monitor pm qualName proc h := by
    refine ⟨fun i t ht => ?_, fun i t ht hclosed => ?_, fun name i t hname ht => ?_⟩
    · rcases of_getElem?_monitor ht with ⟨t₀, ht₀, rfl | rfl⟩ | rfl
      · exact h.flagged i _ ht₀
      · exact h.flagged i t₀ ht₀
      · rfl
    · rcases of_getElem?_monitor ht with ⟨t₀, ht₀, rfl | rfl⟩ | rfl
      · exact h.closed i _ ht₀ hclosed
      · exact h.closed i t₀ ht₀ hclosed
      · exact MonitorState.noConfusion hclosed
    · rcases of_getElem?_monitor ht with ⟨t₀, ht₀, hrest⟩ | rfl
      · have hold : pm.monitors.get? name = some i := by
          rw [get?_monitor] at hname
          split_ifs at hname with he
          · subst he
            cases hget : pm.monitors.get? name with
            | some j => simpa [hget] using hname
            | none =>
              -- a thread that is new was not there
              have hlt := (List.getElem?_eq_some_iff.mp ht₀).1
              rw [hget, Option.getD_none, Option.some.injEq] at hname
              omega
          · exact hname
        have hreleased := h.unreleased name i t₀ hold ht₀
        rcases hrest with rfl | rfl
        · exact hreleased
        · exact hreleased
      · rfl
  release pm qualName h := by
    refine ⟨fun i t ht => ?_, fun i t ht hclosed => ?_, fun name i t hname ht => ?_⟩
    · obtain ⟨t₀, ht₀, rfl⟩ := of_getElem?_release ht
      split_ifs
      · exact h.flagged i t₀ ht₀
      · exact h.flagged i t₀ ht₀
    · obtain ⟨t₀, ht₀, rfl⟩ := of_getElem?_release ht
      split_ifs with hrelease
      · rfl
      · rw [if_neg hrelease] at hclosed
        exact h.closed i _ ht₀ hclosed
    · obtain ⟨t₀, ht₀, rfl⟩ := of_getElem?_release ht
      obtain ⟨hold, herror⟩ := of_get?_release hname
      rw [if_neg]
      · exact h.unreleased name i t₀ hold ht₀
      · rintro ⟨hname', hno⟩
        rw [herror (eq_of_get?_monitors hname' hold)] at hno
        exact Bool.noConfusion hno

/-- A step of a thread keeps the flags right. -/
theorem Sound.run {pm : ProcessManager} (h : Sound pm) (ended : List Proc) (reply : Bool) (i : ℕ) :
    Sound (pm.run ended reply i) := by
  have hof : ∀ (j : ℕ) (t : ProcessMonitor), (pm.run ended reply i).threads[j]? = some t →
      ∃ t₀, pm.threads[j]? = some t₀ ∧ (t = t₀ ∨ t = t₀.run ended reply) := by
    intro j t ht
    by_cases hij : j = i
    · subst hij
      rw [ProcessManager.run, getElem?_modify_self] at ht
      obtain ⟨t₀, ht₀, rfl⟩ := Option.map_eq_some_iff.mp ht
      exact ⟨t₀, ht₀, .inr rfl⟩
    · rw [ProcessManager.run, getElem?_modify_of_ne hij] at ht
      exact ⟨t, ht, .inl rfl⟩
  refine ⟨fun j t ht => ?_, fun j t ht hclosed => ?_, fun name j t hname ht => ?_⟩
  · obtain ⟨t₀, ht₀, rfl | rfl⟩ := hof j t ht
    · exact h.flagged j _ ht₀
    · exact ProcessMonitor.run_flagged ended reply (h.flagged j t₀ ht₀)
  · obtain ⟨t₀, ht₀, rfl | rfl⟩ := hof j t ht
    · exact h.closed j _ ht₀ hclosed
    · rw [ProcessMonitor.run_released]
      exact ProcessMonitor.released_of_run_closed hclosed (h.closed j t₀ ht₀)
  · obtain ⟨t₀, ht₀, rfl | rfl⟩ := hof j t ht
    · exact h.unreleased name j _ hname ht₀
    · rw [ProcessMonitor.run_released]
      exact h.unreleased name j t₀ hname ht₀

end ProcessManager

namespace DeploymentManager

variable {s : DeploymentManager} {J : ProcessManager → Prop}

section Managed

variable (hJ : ProcessManager.Managed J) (h : J s.procm)

include hJ h

theorem managed_startActor (appName : AppName) (appModel actorName : Text) (actorArgs : List Text) (pid : Option ℕ) :
    J (s.startActor appName appModel actorName actorArgs pid).1.procm := by
  cases pid with
  | none => exact h
  | some pid => exact hJ.monitor _ _ _ h

theorem managed_startDevice (appName : AppName) (appModel typeName instName : Text) (actorArgs : List Text)
    (pid : Option ℕ) : J (s.startDevice appName appModel typeName instName actorArgs pid).1.procm := by
  cases pid with
  | none => exact h
  | some pid => exact hJ.monitor _ _ _ h

theorem managed_startDisco (pid : Option ℕ) : J (s.startDisco pid).1.procm := by
  cases pid with
  | none => exact h
  | some pid => exact hJ.monitor _ _ _ h

theorem managed_stopActor (r : Stop) (appName : AppName) (actorName : Text) :
    J (s.stopActor r appName actorName).1.procm := by
  unfold stopActor
  dsimp only
  cases s.launchMap.get? (qualName appName actorName) with
  | none => exact h
  | some proc =>
    dsimp only
    by_cases hactor : qualName appName actorName ∈ s.actors
    · rw [if_neg (not_not_intro hactor)]
      split_ifs
      · exact h
      · exact hJ.release _ _ h
      · cases s.appDbase.getAppActor appName actorName with
        | none => exact hJ.release _ _ h
        | some act => exact hJ.release _ _ h
    · rw [if_pos hactor]
      exact h

theorem managed_stopDevice (r : Stop) (appName : AppName) (instName : Text) :
    J (s.stopDevice r appName instName).1.procm := by
  rcases s.stopDevice_cases r appName instName with ⟨-, heq⟩ | ⟨proc, -, -, heq⟩ | ⟨proc, -, -, -, heq⟩ <;> rw [heq]
  · exact h
  · exact h
  · exact hJ.release _ _ h

/-- A call does nothing else to the threads, -/
theorem managed_call (c : Call) : J (s.call c).1.procm := by
  cases c with
  | startActor appName appModel actorName actorArgs pid => exact managed_startActor hJ h ..
  | startDevice appName appModel typeName instName actorArgs pid => exact managed_startDevice hJ h ..
  | setupDisco pid => exact setupDisco_rule (P := fun s => J s.procm) h (managed_startDisco hJ h pid)
  | haltActor r appName actorName => exact managed_stopActor hJ h ..
  | stopDevice r appName instName => exact managed_stopDevice hJ h ..

/-- nor does a message. -/
theorem managed_handleProcmon (r : Stop) (key : Text) (pid : Option ℕ) : J (s.handleProcmon r key pid).1.procm := by
  unfold handleProcmon
  split_ifs
  · exact managed_startDisco hJ h pid
  · split
    · exact h
    · split
      · split_ifs
        · have hstop := managed_stopActor (s := s) hJ h r
          exact andThen_rule (P := fun s => J s.procm) (hstop _ _) (managed_startActor hJ (hstop _ _) ..)
        · exact h
      · have hstop := managed_stopDevice (s := s) hJ h r
        exact andThen_rule (P := fun s => J s.procm) (hstop _ _) (managed_startDevice hJ (hstop _ _) ..)
      · exact h

end Managed

end DeploymentManager

/-! ### The system -/

/-- The manager with its threads, and what is on its way between them. -/
structure System where
  depm : DeploymentManager
  /-- Of each message that the manager has not handled, the thread that sent it. -/
  inbox : List ℕ
  /-- Of each reply that was not received, the thread that it is for. -/
  replies : List ℕ
  /-- The threads that sent a message, one entry for each. -/
  sent : List ℕ

namespace System

open DeploymentManager

/-- A manager that has just been started. -/
def init (appDbase : AppDbase) : System := ⟨.init appDbase, [], [], []⟩

/-- Thread `i`. -/
def thread (i : ℕ) (m : System) : Option ProcessMonitor := m.depm.procm.threads[i]?

/-- The manager handles the message of a thread, and replies if it gets that far. Whether its loop goes on after that is
not followed here. -/
def handleProcmon (i : ℕ) (r : Stop) (pid : Option ℕ) (m : System) : System :=
  match m.thread i with
  | none => m
  | some t =>
    if i ∈ m.inbox then
      let (depm, ok) := m.depm.handleProcmon r t.proc_name pid
      { m with
        depm := depm
        inbox := m.inbox.erase i
        replies := if ok then m.replies ++ [i] else m.replies }
    else m

/-- A thread takes a step. -/
def runThread (i : ℕ) (m : System) : System :=
  match m.thread i with
  | none => m
  | some t =>
    { depm := { m.depm with procm := m.depm.procm.run m.depm.ended (i ∈ m.replies) i }
      inbox := if t.state = .reporting then m.inbox ++ [i] else m.inbox
      replies := if t.state = .receiving then m.replies.erase i else m.replies
      sent := if t.state = .reporting then m.sent ++ [i] else m.sent }

/-- What happens in the system. -/
inductive Event where
  | call (c : Call)
  | handleProcmon (i : ℕ) (r : Stop) (pid : Option ℕ)
  | run (i : ℕ)
  | ended (proc : Proc)
  deriving DecidableEq

/-- One event. -/
def step (m : System) : Event → System
  | .call c => { m with depm := (m.depm.call c).1 }
  | .handleProcmon i r pid => m.handleProcmon i r pid
  | .run i => m.runThread i
  | .ended proc => { m with depm := m.depm.step (.ended proc) }

/-! ### Every state -/

variable {m : System}

/-- A thread that is known by its state before a call or a message has that state after it. -/
theorem managed_state (i : ℕ) (x : MonitorState) :
    ProcessManager.Managed fun pm => ∃ t : ProcessMonitor, pm.threads[i]? = some t ∧ t.state = x where
  monitor pm qualName proc h := by
    obtain ⟨t, ht, rfl⟩ := h
    refine ⟨_, ProcessManager.getElem?_monitor ht, ?_⟩
    split_ifs <;> rfl
  release pm qualName h := by
    obtain ⟨t, ht, rfl⟩ := h
    refine ⟨_, ProcessManager.getElem?_release ht, ?_⟩
    split_ifs <;> rfl

/-- What holds of the system: a thread that has a message or a reply on its way waits for it, and has one. -/
structure Good (m : System) : Prop where
  tables : Tables m.depm
  sound : m.depm.procm.Sound
  mail : ∀ i, m.inbox.count i + m.replies.count i = 0 ∨
    m.inbox.count i + m.replies.count i = 1 ∧ ∃ t, m.thread i = some t ∧ t.state = .receiving

theorem Good.init (appDbase : AppDbase) : Good (init appDbase) where
  tables := Tables.init appDbase
  sound := ProcessManager.Sound.init
  mail _ := .inl rfl

/-- The thread after its step. -/
theorem thread_run_self {i : ℕ} {t : ProcessMonitor} (h : m.thread i = some t) :
    (m.step (.run i)).thread i = some (t.run m.depm.ended (i ∈ m.replies)) := by
  unfold step runThread
  dsimp only
  rw [h]
  unfold thread
  dsimp only [ProcessManager.run]
  rw [ProcessManager.getElem?_modify_self]
  exact congrArg (Option.map _) h

theorem thread_run_of_ne {i j : ℕ} (h : i ≠ j) : (m.step (.run j)).thread i = m.thread i := by
  unfold step runThread
  dsimp only
  cases hj : m.thread j with
  | none => rfl
  | some t =>
    unfold thread
    dsimp only [ProcessManager.run]
    rw [ProcessManager.getElem?_modify_of_ne h]

/-- A step of a thread. -/
theorem step_run {i : ℕ} {t : ProcessMonitor} (h : m.thread i = some t) :
    m.step (.run i) =
      { depm := { m.depm with procm := m.depm.procm.run m.depm.ended (i ∈ m.replies) i }
        inbox := if t.state = .reporting then m.inbox ++ [i] else m.inbox
        replies := if t.state = .receiving then m.replies.erase i else m.replies
        sent := if t.state = .reporting then m.sent ++ [i] else m.sent } := by
  unfold step runThread
  dsimp only
  rw [h]

theorem step_run_none {i : ℕ} (h : m.thread i = none) : m.step (.run i) = m := by
  unfold step runThread
  dsimp only
  rw [h]

/-- A message is handled. -/
theorem step_handleProcmon {i : ℕ} {t : ProcessMonitor} (h : m.thread i = some t) (hi : i ∈ m.inbox) (r : Stop)
    (pid : Option ℕ) :
    m.step (.handleProcmon i r pid) =
      { m with
        depm := (m.depm.handleProcmon r t.proc_name pid).1
        inbox := m.inbox.erase i
        replies := if (m.depm.handleProcmon r t.proc_name pid).2 then m.replies ++ [i] else m.replies } := by
  unfold step handleProcmon
  dsimp only
  rw [h]
  dsimp only
  rw [if_pos hi]

/-- A message that is not there is not handled. -/
theorem step_handleProcmon_of_notMem {i : ℕ} (h : i ∉ m.inbox) (r : Stop) (pid : Option ℕ) :
    m.step (.handleProcmon i r pid) = m := by
  unfold step handleProcmon
  dsimp only
  cases m.thread i with
  | none => rfl
  | some t =>
    dsimp only
    rw [if_neg h]

/-- What happens to a message: nothing, or it is handled. -/
theorem step_handleProcmon_cases (m : System) (i : ℕ) (r : Stop) (pid : Option ℕ) :
    m.step (.handleProcmon i r pid) = m ∨
      ∃ t, m.thread i = some t ∧ i ∈ m.inbox ∧
        m.step (.handleProcmon i r pid) =
          { m with
            depm := (m.depm.handleProcmon r t.proc_name pid).1
            inbox := m.inbox.erase i
            replies := if (m.depm.handleProcmon r t.proc_name pid).2 then m.replies ++ [i] else m.replies } := by
  by_cases hi : i ∈ m.inbox
  · cases ht : m.thread i with
    | none =>
      refine .inl ?_
      unfold step handleProcmon
      dsimp only
      rw [ht]
    | some t => exact .inr ⟨t, rfl, hi, step_handleProcmon ht hi r pid⟩
  · exact .inl (step_handleProcmon_of_notMem hi r pid)

theorem Good.mail_of_state (h : Good m) {i : ℕ} {t : ProcessMonitor} (ht : m.thread i = some t)
    (hstate : t.state ≠ .receiving) : i ∉ m.inbox ∧ i ∉ m.replies := by
  rcases h.mail i with hzero | ⟨-, t', ht', hstate'⟩
  · rw [← List.count_eq_zero, ← List.count_eq_zero]
    omega
  · rw [ht] at ht'
    rw [← Option.some.inj ht'] at hstate'
    exact absurd hstate' hstate

theorem Good.handleProcmon (h : Good m) (i : ℕ) (r : Stop) (pid : Option ℕ) :
    Good (m.step (.handleProcmon i r pid)) := by
  by_cases hi : i ∈ m.inbox
  · have hpos := List.count_pos_iff.mpr hi
    rcases h.mail i with hzero | ⟨hone, t, ht, hstate⟩
    · omega
    rw [step_handleProcmon ht hi]
    refine ⟨h.tables.handleProcmon .., managed_handleProcmon ProcessManager.managed_sound h.sound .., fun j => ?_⟩
    dsimp only
    have hrec : ∀ k, (∃ t, m.thread k = some t ∧ t.state = .receiving) →
        ∃ t', (m.depm.handleProcmon r t.proc_name pid).1.procm.threads[k]? = some t' ∧ t'.state = .receiving :=
      fun k hk => managed_handleProcmon (managed_state k .receiving) hk ..
    by_cases hij : j = i
    · subst hij
      rw [List.count_erase_self]
      split_ifs
      · refine .inr ⟨?_, hrec j ⟨t, ht, hstate⟩⟩
        rw [List.count_append, List.count_singleton_self]
        omega
      · refine .inl ?_
        omega
    · rw [List.count_erase_of_ne hij]
      have hreplies : (if (m.depm.handleProcmon r t.proc_name pid).2 = true then m.replies ++ [i]
          else m.replies).count j = m.replies.count j := by
        split_ifs
        · simp [List.count_append, Ne.symm hij]
        · rfl
      rw [hreplies]
      exact (h.mail j).imp_right fun hone => ⟨hone.1, hrec j hone.2⟩
  · rw [step_handleProcmon_of_notMem hi]
    exact h

theorem Good.run (h : Good m) (i : ℕ) : Good (m.step (.run i)) := by
  cases ht : m.thread i with
  | none =>
    rw [step_run_none ht]
    exact h
  | some t =>
    have hthread := thread_run_self ht
    have hother : ∀ j ≠ i, (m.step (.run i)).thread j = m.thread j := fun j hj => thread_run_of_ne hj
    refine ⟨?_, ?_, fun j => ?_⟩
    · rw [step_run ht]
      exact { h.tables with }
    · rw [step_run ht]
      exact h.sound.run ..
    · by_cases hij : j = i
      · subst hij
        rw [hthread, step_run ht]
        dsimp only
        by_cases hreceiving : t.state = .receiving
        · rw [if_neg (by simp [hreceiving]), if_pos hreceiving]
          by_cases hreply : j ∈ m.replies
          · -- the reply is taken
            refine .inl ?_
            have hpos := List.count_pos_iff.mpr hreply
            rw [List.count_erase_self]
            rcases h.mail j with hzero | ⟨hone, -⟩ <;> omega
          · rw [List.erase_of_not_mem hreply]
            refine (h.mail j).imp_right fun hone => ⟨hone.1, _, rfl, ?_⟩
            simp [ProcessMonitor.run, hreceiving, hreply]
        · obtain ⟨hinbox, hreplies⟩ := h.mail_of_state ht hreceiving
          rw [if_neg hreceiving, List.count_eq_zero.mpr hreplies]
          by_cases hreporting : t.state = .reporting
          · -- the message goes out
            rw [if_pos hreporting, List.count_append, List.count_eq_zero.mpr hinbox, List.count_singleton_self]
            exact .inr ⟨rfl, _, rfl, by simp [ProcessMonitor.run, hreporting]⟩
          · rw [if_neg hreporting, List.count_eq_zero.mpr hinbox]
            exact .inl rfl
      · rw [hother j hij, step_run ht]
        dsimp only
        have hinbox : (if t.state = .reporting then m.inbox ++ [i] else m.inbox).count j = m.inbox.count j := by
          split_ifs
          · simp [List.count_append, Ne.symm hij]
          · rfl
        have hreplies : (if t.state = .receiving then m.replies.erase i else m.replies).count j =
            m.replies.count j := by
          split_ifs
          · exact List.count_erase_of_ne hij
          · rfl
        rw [hinbox, hreplies]
        exact h.mail j

theorem Good.step (h : Good m) (e : Event) : Good (m.step e) := by
  cases e with
  | call c =>
    refine ⟨h.tables.call c, managed_call ProcessManager.managed_sound h.sound c, fun i => ?_⟩
    exact (h.mail i).imp_right fun hone => ⟨hone.1, managed_call (managed_state i .receiving) hone.2 c⟩
  | handleProcmon i r pid => exact h.handleProcmon i r pid
  | run i => exact h.run i
  | ended proc => exact ⟨h.tables.step (.ended proc), h.sound, h.mail⟩

end System

end Riaps.Deployment
