import Riaps.Deployment.AppDbase

/-!
# The process manager

The deployment manager has a thread for each process that it started, which
waits for the process to end. If that was not expected, the thread tells the
manager, waits for the reply and then waits again, for the process that the
manager started in place of the old one, as it should be. A process is released
before it is terminated: its end is expected then.

A thread is modelled by where it is between two of its steps, each of which the
manager can come in between. (The flag that would terminate a thread is set by
no one.)
-/

namespace Riaps.Deployment

open Riaps.Foundation

/-! ### Processes -/

/-- A process that was started, and what it was started with. -/
structure Proc where
  /-- The number of processes that were started before. -/
  num : ℕ
  pid : ℕ
  /-- The qualified name of its actor, or device. -/
  key : Text
  model : Text
  args : List Text
  isdevice : Bool
  deriving DecidableEq

/-! ### Threads -/

/-- Where a thread is. -/
inductive MonitorState where
  /-- At the top of its loop. -/
  | looping
  /-- In `proc.wait()`. -/
  | waiting (proc : Proc)
  /-- The process has ended: whether it was released is asked next. -/
  | woken
  /-- It was not: the flag is set next. -/
  | surprised
  /-- The message goes out next. -/
  | reporting
  /-- In `recv_pyobj()`. -/
  | receiving
  /-- The flag is cleared next. -/
  | answered
  /-- The thread has ended. -/
  | closed
  deriving DecidableEq

/-- A `ProcessMonitor`. -/
structure ProcessMonitor where
  proc_name : Text
  proc : Proc
  released : Bool
  unexpected : Bool
  state : MonitorState
  deriving DecidableEq

namespace ProcessMonitor

/-- `setup`. -/
def setup (proc : Proc) (t : ProcessMonitor) : ProcessMonitor := { t with proc := proc }

/-- `release`. -/
def release (t : ProcessMonitor) : ProcessMonitor := { t with released := true }

/-- `error`. -/
def error (t : ProcessMonitor) : Bool := t.unexpected

/-- `run`, to the next step, with the processes that have ended and whether a reply has come. -/
def run (ended : List Proc) (reply : Bool) (t : ProcessMonitor) : ProcessMonitor :=
  match t.state with
  | .looping => { t with state := .waiting t.proc }
  | .waiting proc => if proc ∈ ended then { t with state := .woken } else t
  | .woken => { t with state := if t.released then .closed else .surprised }
  | .surprised => { t with unexpected := true, state := .reporting }
  | .reporting => { t with state := .receiving }
  | .receiving => if reply then { t with state := .answered } else t
  | .answered => { t with unexpected := false, state := .looping }
  | .closed => t

@[simp] theorem setup_proc_name (proc : Proc) (t : ProcessMonitor) : (t.setup proc).proc_name = t.proc_name := rfl

@[simp] theorem release_proc_name (t : ProcessMonitor) : t.release.proc_name = t.proc_name := rfl

@[simp] theorem run_proc_name (ended : List Proc) (reply : Bool) (t : ProcessMonitor) :
    (t.run ended reply).proc_name = t.proc_name := by
  unfold run
  split <;> first | rfl | (split_ifs <;> rfl)

@[simp] theorem run_released (ended : List Proc) (reply : Bool) (t : ProcessMonitor) :
    (t.run ended reply).released = t.released := by
  unfold run
  split <;> first | rfl | (split_ifs <;> rfl)

end ProcessMonitor

/-! ### The process manager -/

/-- The state of a `ProcessManager`. -/
structure ProcessManager where
  /-- All threads that there were. -/
  threads : List ProcessMonitor
  /-- `monitors`: of a name, its thread. -/
  monitors : Dict Text ℕ
  /-- A thread in the map has its name. -/
  monitored : ∀ qualName i, monitors.get? qualName = some i → ∃ t, threads[i]? = some t ∧ t.proc_name = qualName

namespace ProcessManager

/-- With no thread. -/
def init : ProcessManager := ⟨[], .empty, by simp⟩

/-- A thread, in the map or not, does something that leaves its name. -/
def modify (i : ℕ) (f : ProcessMonitor → ProcessMonitor) (hf : ∀ t, (f t).proc_name = t.proc_name)
    (pm : ProcessManager) :
    ProcessManager where
  threads := pm.threads.modify i f
  monitors := pm.monitors
  monitored := by
    intro qualName j h
    obtain ⟨t, ht, hname⟩ := pm.monitored qualName j h
    rw [List.getElem?_modify, ht]
    by_cases hij : i = j
    · exact ⟨f t, by simp [hij], (hf t).trans hname⟩
    · exact ⟨t, by simp [hij], hname⟩

/-- A thread for a name. -/
def start (qualName : Text) (proc : Proc) (pm : ProcessManager) : ProcessManager where
  threads := pm.threads ++ [⟨qualName, proc, false, false, .looping⟩]
  monitors := pm.monitors.set qualName pm.threads.length
  monitored := by
    intro name i h
    rw [Dict.get?_set] at h
    split_ifs at h with hname
    · obtain rfl := Option.some.inj h
      exact ⟨_, List.getElem?_concat_length, hname.symm⟩
    · obtain ⟨t, ht, hrest⟩ := pm.monitored name i h
      exact ⟨t, by rw [List.getElem?_append_left (List.getElem?_eq_some_iff.mp ht).1, ht], hrest⟩

/-- `del self.monitors[qualName]`. -/
def remove (qualName : Text) (pm : ProcessManager) : ProcessManager where
  threads := pm.threads
  monitors := pm.monitors.del qualName
  monitored := by
    intro name i h
    rw [Dict.get?_del] at h
    split_ifs at h
    exact pm.monitored name i h

/-- `monitor`. -/
def monitor (qualName : Text) (proc : Proc) (pm : ProcessManager) : ProcessManager :=
  match pm.monitors.get? qualName with
  | some i => pm.modify i (.setup proc) (ProcessMonitor.setup_proc_name proc)
  | none => pm.start qualName proc

/-- Thread `i` reports an end that was not expected. -/
def error (i : ℕ) (pm : ProcessManager) : Bool := (pm.threads[i]?).any ProcessMonitor.error

/-- `release`: a thread that reports keeps its process, and its entry. -/
def release (qualName : Text) (pm : ProcessManager) : ProcessManager :=
  match pm.monitors.get? qualName with
  | some i => if pm.error i then pm else (pm.modify i .release ProcessMonitor.release_proc_name).remove qualName
  | none => pm

/-- A step of thread `i`. -/
def run (ended : List Proc) (reply : Bool) (i : ℕ) (pm : ProcessManager) : ProcessManager :=
  pm.modify i (.run ended reply) (ProcessMonitor.run_proc_name ended reply)

/-! ### The map -/

/-- A name that is monitored has a thread, its own if it had one. -/
theorem get?_monitor (qualName : Text) (proc : Proc) (pm : ProcessManager) (name : Text) :
    (pm.monitor qualName proc).monitors.get? name =
      if name = qualName then some ((pm.monitors.get? qualName).getD pm.threads.length) else pm.monitors.get? name := by
  unfold monitor
  cases hget : pm.monitors.get? qualName with
  | some i =>
    show pm.monitors.get? name = _
    by_cases hname : name = qualName
    · simp [hname, hget]
    · simp [hname]
  | none => simp [start, Dict.get?_set]

/-- Another name keeps its thread. -/
theorem get?_release_of_ne {qualName name : Text} (h : name ≠ qualName) (pm : ProcessManager) :
    (pm.release qualName).monitors.get? name = pm.monitors.get? name := by
  unfold release
  split
  · split_ifs
    · rfl
    · rw [remove, Dict.get?_del, if_neg h]
      rfl
  · rfl

/-- Two names have two threads. -/
theorem eq_of_get?_monitors {pm : ProcessManager} {qualName name : Text} {i : ℕ}
    (h : pm.monitors.get? qualName = some i) (h' : pm.monitors.get? name = some i) : name = qualName := by
  obtain ⟨t, ht, rfl⟩ := pm.monitored qualName i h
  obtain ⟨t', ht', rfl⟩ := pm.monitored name i h'
  rw [ht] at ht'
  rw [Option.some.inj ht']

/-! ### The threads -/

theorem getElem?_modify_self (i : ℕ) (f : ProcessMonitor → ProcessMonitor) (hf : ∀ t, (f t).proc_name = t.proc_name)
    (pm : ProcessManager) : (pm.modify i f hf).threads[i]? = (pm.threads[i]?).map f := by
  simp [modify]

theorem getElem?_modify_of_ne {i j : ℕ} (h : j ≠ i) (f : ProcessMonitor → ProcessMonitor)
    (hf : ∀ t, (f t).proc_name = t.proc_name) (pm : ProcessManager) :
    (pm.modify i f hf).threads[j]? = pm.threads[j]? := by
  simp [modify, h.symm]

/-- The thread of a name has a new process, or is new; -/
theorem getElem?_monitor {qualName : Text} {proc : Proc} {pm : ProcessManager} {i : ℕ} {t : ProcessMonitor}
    (h : pm.threads[i]? = some t) :
    (pm.monitor qualName proc).threads[i]? =
      some (if pm.monitors.get? qualName = some i then t.setup proc else t) := by
  unfold monitor
  cases hget : pm.monitors.get? qualName with
  | some j =>
    dsimp only
    by_cases hij : j = i
    · rw [hij, getElem?_modify_self, h, if_pos rfl, Option.map_some]
    · rw [getElem?_modify_of_ne (Ne.symm hij), h, if_neg fun he => hij (Option.some.inj he)]
  | none =>
    rw [if_neg (Option.some_ne_none i).symm, start, List.getElem?_append_left (List.getElem?_eq_some_iff.mp h).1, h]

/-- or is released, if it does not report. -/
theorem getElem?_release {qualName : Text} {pm : ProcessManager} {i : ℕ} {t : ProcessMonitor}
    (h : pm.threads[i]? = some t) :
    (pm.release qualName).threads[i]? =
      some (if pm.monitors.get? qualName = some i ∧ pm.error i = false then t.release else t) := by
  unfold release
  cases hget : pm.monitors.get? qualName with
  | some j =>
    dsimp only
    by_cases hij : j = i
    · subst hij
      by_cases herror : pm.error j = true
      · rw [if_pos herror, h, if_neg (by simp [herror])]
      · rw [if_neg herror, if_pos ⟨rfl, Bool.eq_false_iff.mpr herror⟩]
        show (pm.modify j .release ProcessMonitor.release_proc_name).threads[j]? = _
        rw [getElem?_modify_self, h]
        rfl
    · have hother : ¬(some j = some i ∧ pm.error i = false) := fun he => hij (Option.some.inj he.1)
      rw [if_neg hother]
      split_ifs
      · exact h
      · show (pm.modify j .release ProcessMonitor.release_proc_name).threads[i]? = _
        rw [getElem?_modify_of_ne (Ne.symm hij), h]
  | none => rw [if_neg fun he => (Option.some_ne_none i).symm he.1, h]

theorem length_release (qualName : Text) (pm : ProcessManager) :
    (pm.release qualName).threads.length = pm.threads.length := by
  unfold release
  split
  · split_ifs
    · rfl
    · exact List.length_modify ..
  · rfl

end ProcessManager

end Riaps.Deployment
