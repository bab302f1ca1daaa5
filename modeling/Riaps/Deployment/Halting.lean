import Riaps.Deployment.Monitors

/-!
# Halting an actor

Once an actor was halted, it should be over: no process is started for it until
it is launched again, and its thread, which may just have found that the process
has ended, sends one more message at the most and ends.

A thread that is released ends after its process. But `release` leaves a thread
alone whose flag `unexpected` is set, which it is from before the message to
after the reply: it is the thread of a process that the manager is about to
start again, or has just started. `stopActor` releases the thread in any case,
and does not ask whether that was done. So a halt that comes at such a time
leaves a thread that nobody will release. Its process ends and is not started
again, and the thread goes round: it reports, gets its reply, and waits for the
process that has ended. Nor is the thread released when the resource or the fault
manager does not stop the actor. And a thread that has found the end of its
process when it is released must have an answer, which an actor with a record
that a halt has left does not get.

In every other case a halt is the end of the actor (`halted_iff`).
-/

namespace Riaps.Deployment

open Riaps.Foundation

/-! ### Starting again -/

namespace DeploymentManager

/-- A launch under a key. -/
def Call.launches (key : Text) : Call → Prop
  | .startActor appName _ actorName _ _ => qualName appName actorName = key
  | .startDevice appName _ _ instName _ _ => qualName appName instName = key
  | .setupDisco _ => discoName = key
  | .haltActor _ _ _ => False
  | .stopDevice _ _ _ => False

variable {s s' s'' : DeploymentManager} {key : Text}

/-- Nothing is new under a key: no actor, none that runs, no device, and no process of an actor. -/
structure NoneNew (key : Text) (s s' : DeploymentManager) : Prop where
  actors : key ∈ s'.actors → key ∈ s.actors
  runs : key ∈ s'.actors ∧ key ∈ s'.launchMap → key ∈ s.actors ∧ key ∈ s.launchMap
  devices : key ∈ s'.devices → key ∈ s.devices
  started : ∀ p ∈ s'.started, p.key = key → p.isdevice = false → p ∈ s.started

theorem NoneNew.refl (key : Text) (s : DeploymentManager) : NoneNew key s s := ⟨id, id, id, fun _ hp _ _ => hp⟩

theorem NoneNew.trans (h : NoneNew key s s') (h' : NoneNew key s' s'') : NoneNew key s s'' where
  actors hmem := h.actors (h'.actors hmem)
  runs hmem := h.runs (h'.runs hmem)
  devices hmem := h.devices (h'.devices hmem)
  started p hp hkey hdev := h.started p (h'.started p hp hkey hdev) hkey hdev

theorem noneNew_launch (act : ActorCommand) (hact : act.key = key → act.isdevice = true ∧ key ∉ s.actors) :
    NoneNew key s (s.launch act) := by
  refine ⟨id, fun ⟨hactor, hrun⟩ => ⟨hactor, ?_⟩, id, fun p hp hkey hdev => ?_⟩
  · exact (Dict.mem_set.mp hrun).resolve_left fun he => (hact he.symm).2 hactor
  · rcases List.mem_append.mp hp with hold | hnew
    · exact hold
    · obtain rfl := List.mem_singleton.mp hnew
      exact absurd ((hact hkey).1.symm.trans hdev) Bool.noConfusion

theorem noneNew_startActor {appName : AppName} {actorName : Text} (hne : qualName appName actorName ≠ key)
    (appModel : Text) (actorArgs : List Text) (pid : Option ℕ) :
    NoneNew key s (s.startActor appName appModel actorName actorArgs pid).1 := by
  cases pid with
  | none => exact .refl key s
  | some pid =>
    have hold : ∀ {a : ActorRecord}, key ∈ s.actors.set (qualName appName actorName) a → key ∈ s.actors :=
      fun hmem => (Dict.mem_set.mp hmem).resolve_left fun he => hne he.symm
    have hset : NoneNew key s
        { s with actors := s.actors.set (qualName appName actorName) ⟨appName, appModel, actorName, actorArgs⟩ } :=
      ⟨hold, fun hmem => ⟨hold hmem.1, hmem.2⟩, id, fun p hp _ _ => hp⟩
    exact hset.trans (noneNew_launch _ fun he => absurd he hne)

/-- A device is new, unless there was one of its name, and no actor. -/
theorem noneNew_startDevice {appName : AppName} {instName : Text}
    (hold : qualName appName instName = key → key ∈ s.devices ∧ key ∉ s.actors) (appModel typeName : Text)
    (actorArgs : List Text) (pid : Option ℕ) :
    NoneNew key s (s.startDevice appName appModel typeName instName actorArgs pid).1 := by
  cases pid with
  | none => exact .refl key s
  | some pid =>
    have hset : NoneNew key s
        { s with
          devices :=
            s.devices.set (qualName appName instName) ⟨appName, appModel, typeName, instName, actorArgs⟩ } := by
      refine ⟨id, id, fun hmem => ?_, fun p hp _ _ => hp⟩
      exact (Dict.mem_set.mp hmem).elim (fun he => (hold he.symm).1) id
    exact hset.trans (noneNew_launch _ fun he => ⟨rfl, (hold he).2⟩)

theorem noneNew_startDisco (pid : Option ℕ) : NoneNew key s (s.startDisco pid).1 := by
  cases pid with
  | none => exact .refl key s
  | some pid => exact ⟨id, id, id, fun _ hp _ _ => hp⟩

/-- An entry less. -/
theorem noneNew_del (k : Text) (procm : ProcessManager) (submitted : List Proc) :
    NoneNew key s { s with launchMap := s.launchMap.del k, procm := procm, submitted := submitted } :=
  ⟨id, fun hmem => ⟨hmem.1, (Dict.mem_del.mp hmem.2).1⟩, id, fun _ hp _ _ => hp⟩

theorem Tables.noneNew_stopActor (ht : Tables s) (r : Stop) (appName : AppName) (actorName : Text) :
    NoneNew key s (s.stopActor r appName actorName).1 := by
  rcases ht.stopActor_cases r appName actorName with ⟨-, heq⟩ | ⟨proc, -, -, heq⟩ | ⟨proc, -, -, -, heq⟩ |
    ⟨proc, -, -, -, heq⟩ | ⟨proc, -, -, -, heq⟩ <;> rw [heq]
  · exact .refl key s
  · exact noneNew_del ..
  · exact noneNew_del ..
  · exact noneNew_del ..
  · refine ⟨fun hmem => (Dict.mem_del.mp hmem).1, fun hmem => ?_, id, fun _ hp _ _ => hp⟩
    exact ⟨(Dict.mem_del.mp hmem.1).1, (Dict.mem_del.mp hmem.2).1⟩

/-- A device that is stopped keeps its record, and so does every actor. -/
theorem stopDevice_records (s : DeploymentManager) (r : Stop) (appName : AppName) (instName : Text) :
    (s.stopDevice r appName instName).1.devices = s.devices ∧
      (s.stopDevice r appName instName).1.actors = s.actors := by
  rcases s.stopDevice_cases r appName instName with ⟨-, heq⟩ | ⟨proc, -, -, heq⟩ | ⟨proc, -, -, -, heq⟩ <;> rw [heq] <;>
    exact ⟨rfl, rfl⟩

theorem noneNew_stopDevice (r : Stop) (appName : AppName) (instName : Text) :
    NoneNew key s (s.stopDevice r appName instName).1 := by
  rcases s.stopDevice_cases r appName instName with ⟨-, heq⟩ | ⟨proc, -, -, heq⟩ | ⟨proc, -, -, -, heq⟩ <;> rw [heq]
  · exact .refl key s
  · exact noneNew_del ..
  · exact noneNew_del ..

/-- Only a launch makes an actor or a device, -/
theorem Tables.noneNew_call (ht : Tables s) (c : Call) (hc : ¬ c.launches key) : NoneNew key s (s.call c).1 := by
  cases c with
  | startActor appName appModel actorName actorArgs pid => exact noneNew_startActor hc ..
  | startDevice appName appModel typeName instName actorArgs pid =>
    exact noneNew_startDevice (fun he => absurd he hc) ..
  | setupDisco pid => exact setupDisco_rule (P := NoneNew key s) (.refl key s) (noneNew_startDisco pid)
  | haltActor r appName actorName => exact ht.noneNew_stopActor ..
  | stopDevice r appName instName => exact noneNew_stopDevice ..

/-- and no message does, unless there is an actor that runs, or a device and no actor. -/
theorem Tables.noneNew_handleProcmon (ht : Tables s) (hidle : ¬(key ∈ s.actors ∧ key ∈ s.launchMap)) (r : Stop)
    (name : Text) (pid : Option ℕ) : NoneNew key s (s.handleProcmon r name pid).1 := by
  rcases ht.handleProcmon_cases r name pid with ⟨-, heq⟩ | ⟨a, -, hget, rfl, hrun, heq⟩ |
    ⟨d, -, hno, hget, rfl, heq⟩ | ⟨-, -, -, heq⟩ | ⟨-, -, -, heq⟩ <;> rw [heq]
  · exact noneNew_startDisco pid
  · have hne : qualName a.app a.actor ≠ key := fun he => hidle (he ▸ ⟨Dict.mem_of_get? hget, hrun⟩)
    have hstop : NoneNew key s _ := ht.noneNew_stopActor r a.app a.actor
    exact andThen_rule (P := NoneNew key s) hstop (hstop.trans (noneNew_startActor hne ..))
  · have hstop : NoneNew key s _ := noneNew_stopDevice r d.app d.inst
    refine andThen_rule (P := NoneNew key s) hstop (hstop.trans (noneNew_startDevice (fun he => ?_) ..))
    rw [(stopDevice_records ..).1, (stopDevice_records ..).2]
    exact he ▸ ⟨Dict.mem_of_get? hget, hno⟩
  · exact .refl key s
  · exact .refl key s

end DeploymentManager

/-! ### The end of a thread -/

namespace MonitorState

/-- The steps that are left to a thread that was released. -/
def rank : MonitorState → ℕ
  | .surprised => 7
  | .reporting => 6
  | .receiving => 5
  | .answered => 4
  | .looping => 3
  | .waiting _ => 2
  | .woken => 1
  | .closed => 0

/-- The messages that it still sends. -/
def messages : MonitorState → ℕ
  | .surprised | .reporting => 1
  | _ => 0

/-- It has to do with the manager before it ends. -/
def reports : MonitorState → Bool
  | .surprised | .reporting | .receiving => true
  | _ => false

end MonitorState

namespace ProcessMonitor

variable {t : ProcessMonitor} (ended : List Proc) (reply : Bool)

/-- What a step does to a thread that was released: it waits, or has a step less. -/
theorem run_of_released (h : t.released = true) :
    t.run ended reply = t ∨ (t.run ended reply).state.rank < t.state.rank := by
  obtain ⟨proc_name, proc, released, unexpected, state⟩ := t
  dsimp only at h
  subst h
  cases state with
  | waiting p =>
    by_cases hp : p ∈ ended
    · exact .inr (by simp [run, hp, MonitorState.rank])
    · exact .inl (by simp [run, hp])
  | receiving =>
    cases reply with
    | true => exact .inr (by simp [run, MonitorState.rank])
    | false => exact .inl rfl
  | closed => exact .inl rfl
  | _ => exact .inr (by simp [run, MonitorState.rank])

/-- It sends what it had to send, -/
theorem messages_run_le (h : t.released = true) (hstate : t.state ≠ .reporting) :
    (t.run ended reply).state.messages ≤ t.state.messages := by
  obtain ⟨proc_name, proc, released, unexpected, state⟩ := t
  dsimp only at h
  subst h
  cases state with
  | waiting p =>
    by_cases hp : p ∈ ended
    · simp [run, hp, MonitorState.messages]
    · simp [run, hp]
  | receiving => cases reply <;> simp [run, MonitorState.messages]
  | reporting => exact absurd rfl hstate
  | _ => simp [run, MonitorState.messages]

/-- and has to do with the manager only if it had. -/
theorem reports_of_run (h : t.released = true) (hrun : (t.run ended reply).state.reports = true) :
    t.state.reports = true := by
  obtain ⟨proc_name, proc, released, unexpected, state⟩ := t
  dsimp only at h
  subst h
  cases state with
  | waiting p =>
    unfold run at hrun
    dsimp only at hrun
    split_ifs at hrun <;> exact hrun
  | surprised => rfl
  | reporting => rfl
  | receiving => rfl
  | _ => exact hrun

/-- It waits for a reply after it has sent its message, and until there is one. -/
theorem of_run_receiving (hrun : (t.run ended reply).state = .receiving) :
    t.state = .reporting ∨ t.state = .receiving ∧ reply = false := by
  obtain ⟨proc_name, proc, released, unexpected, state⟩ := t
  cases state with
  | waiting p =>
    unfold run at hrun
    dsimp only at hrun
    split_ifs at hrun
  | woken => cases released <;> exact MonitorState.noConfusion hrun
  | reporting => exact .inl rfl
  | receiving =>
    cases reply with
    | true => exact MonitorState.noConfusion hrun
    | false => exact .inr ⟨rfl, rfl⟩
  | _ => exact MonitorState.noConfusion hrun

end ProcessMonitor

namespace System

open DeploymentManager

variable {m : System} {key : Text} {i : ℕ}

/-- A launch under a key. -/
def Event.launches (key : Text) : Event → Prop
  | .call c => c.launches key
  | _ => False

/-- What thread `i` goes on by: its own steps, the end of its process, and an answer to its message. -/
def Event.concerns (i : ℕ) : Event → Prop
  | .call _ => False
  | .handleProcmon j _ _ => j = i
  | .run j => j = i
  | .ended _ => True

/-- An event changes thread `i`. -/
def moves (i : ℕ) (m : System) (e : Event) : List Event := if (m.step e).thread i = m.thread i then [] else [e]

/-- **Halted means halted**: until there is a launch, no process is started for the actor, and its thread sends one
message at the most, takes a bounded number of steps, and can always be brought to its end, as long as the manager
handles its message. -/
def Halted (key : Text) (i : ℕ) (m : System) : Prop :=
  ∀ events, (∀ e ∈ events, ¬ e.launches key) →
    (∀ p ∈ (run step m events).depm.started, p.key = key → p.isdevice = false → p ∈ m.depm.started) ∧
    (run step m events).sent.count i ≤ m.sent.count i + 1 ∧
    (collect step (moves i) m events).length ≤ 7 ∧
    ∃ own, (∀ e ∈ own, e.concerns i) ∧
      ∃ t, (run step m (events ++ own)).thread i = some t ∧ t.state = .closed

/-- The actor runs and is stopped by the managers, and its thread does not report an end. If the thread is about to, the
stop comes to its end, and the name is not one that the manager restarts otherwise. -/
def Quiet (r : Stop) (key : Text) (i : ℕ) (m : System) : Prop :=
  key ∈ m.depm.launchMap ∧ key ∈ m.depm.actors ∧ r ≠ .unmanaged ∧ m.depm.procm.error i = false ∧
    ∀ t, m.thread i = some t → t.state = .surprised → r = .done ∧ key ∉ m.depm.devices ∧ key ≠ discoName

/-! ### A thread that was released -/

/-- A thread that was released, and what became of it since state `m₀`, with the events that changed it. -/
structure Leaving (m₀ : System) (key : Text) (i : ℕ) (m : System) (l : List Event) : Prop where
  split : (splitName key).isSome = true
  tables : Tables m.depm
  noneNew : NoneNew key m₀.depm m.depm
  idle : ¬(key ∈ m.depm.actors ∧ key ∈ m.depm.launchMap)
  unmonitored : ∀ name, m.depm.procm.monitors.get? name ≠ some i
  thread : ∃ t, m.thread i = some t ∧ t.released = true ∧ t.proc_name = key ∧ l.length + t.state.rank ≤ 7 ∧
    m.sent.count i + t.state.messages ≤ m₀.sent.count i + 1 ∧
    (t.state.reports = true → key ∉ m.depm.actors ∧ key ∉ m.depm.devices ∧ key ≠ discoName) ∧
    (t.state = .receiving → i ∈ m.inbox ∨ i ∈ m.replies)

/-- The manager leaves a thread that is not in the map. -/
theorem managed_unmonitored (i : ℕ) (t : ProcessMonitor) :
    ProcessManager.Managed fun pm => pm.threads[i]? = some t ∧ ∀ name, pm.monitors.get? name ≠ some i where
  monitor pm qualName proc h := by
    obtain ⟨ht, hno⟩ := h
    refine ⟨?_, fun name hname => ?_⟩
    · rw [ProcessManager.getElem?_monitor ht, if_neg (hno qualName)]
    · rw [ProcessManager.get?_monitor] at hname
      split_ifs at hname
      · cases hget : pm.monitors.get? qualName with
        | some j => exact hno qualName (by simpa [hget] using hname)
        | none =>
          have hlt := (List.getElem?_eq_some_iff.mp ht).1
          rw [hget, Option.getD_none, Option.some.injEq] at hname
          omega
      · exact hno name hname
  release pm qualName h := by
    obtain ⟨ht, hno⟩ := h
    refine ⟨?_, fun name hname => hno name (ProcessManager.of_get?_release hname).1⟩
    rw [ProcessManager.getElem?_release ht, if_neg fun he => hno qualName he.1]

theorem moves_of_eq {e : Event} (h : (m.step e).thread i = m.thread i) : moves i m e = [] := if_pos h

theorem length_moves_le (i : ℕ) (m : System) (e : Event) : (moves i m e).length ≤ 1 := by
  unfold moves
  split_ifs <;> simp

section Leaving

variable {m₀ : System} {l : List Event}

/-- What changes neither the thread nor what is on its way to it. -/
theorem Leaving.of_managed (h : Leaving m₀ key i m l) {m' : System} {e : Event} (hm' : m' = m.step e)
    (htables : Tables m'.depm) (hnew : NoneNew key m.depm m'.depm)
    (hmanaged : ∀ t, m.thread i = some t ∧ (∀ name, m.depm.procm.monitors.get? name ≠ some i) →
      m'.thread i = some t ∧ ∀ name, m'.depm.procm.monitors.get? name ≠ some i)
    (hsent : m'.sent.count i = m.sent.count i)
    (hmail : (key ∉ m.depm.actors ∧ key ∉ m.depm.devices ∧ key ≠ discoName) → i ∈ m.inbox ∨ i ∈ m.replies →
      i ∈ m'.inbox ∨ i ∈ m'.replies) :
    Leaving m₀ key i m' (l ++ moves i m e) := by
  obtain ⟨t, ht, hreleased, hname, hrank, hmessages, hreports, hreceiving⟩ := h.thread
  obtain ⟨ht', hunmonitored⟩ := hmanaged t ⟨ht, h.unmonitored⟩
  have hmoves : moves i m e = [] := moves_of_eq (by rw [← hm', ht', ht])
  rw [hmoves, List.append_nil]
  refine ⟨h.split, htables, h.noneNew.trans hnew, fun hmem => h.idle (hnew.runs hmem), hunmonitored,
    t, ht', hreleased, hname, hrank, hsent ▸ hmessages, fun hr => ?_, fun hr => ?_⟩
  · obtain ⟨hactor, hdevice, hdisco⟩ := hreports hr
    exact ⟨fun hmem => hactor (hnew.actors hmem), fun hmem => hdevice (hnew.devices hmem), hdisco⟩
  · exact hmail (hreports (by rw [hr]; rfl)) (hreceiving hr)

theorem Leaving.call (h : Leaving m₀ key i m l) (c : Call) (hc : ¬ c.launches key) :
    Leaving m₀ key i (m.step (.call c)) (l ++ moves i m (.call c)) :=
  h.of_managed rfl (h.tables.call c) (h.tables.noneNew_call c hc)
    (fun t ht => managed_call (managed_unmonitored i t) ht c) rfl fun _ hmail => hmail

theorem Leaving.handleProcmon (h : Leaving m₀ key i m l) (j : ℕ) (r : Stop) (pid : Option ℕ) :
    Leaving m₀ key i (m.step (.handleProcmon j r pid)) (l ++ moves i m (.handleProcmon j r pid)) := by
  rcases step_handleProcmon_cases m j r pid with heq | ⟨tj, htj, hj, heq⟩
  · refine h.of_managed rfl ?_ ?_ ?_ ?_ ?_ <;> rw [heq]
    · exact h.tables
    · exact .refl key m.depm
    · exact fun t ht => ht
    · exact fun _ hmail => hmail
  · refine h.of_managed rfl ?_ ?_ ?_ ?_ ?_ <;> rw [heq]
    · exact h.tables.handleProcmon ..
    · exact h.tables.noneNew_handleProcmon h.idle ..
    · exact fun t ht => managed_handleProcmon (managed_unmonitored i t) ht ..
    · intro hclear hmail
      by_cases hij : i = j
      · -- its message is answered: there is nothing to restart
        subst hij
        obtain ⟨t, ht, -, hname, -⟩ := h.thread
        rw [ht] at htj
        rw [← Option.some.inj htj, hname, handleProcmon_unknown r pid hclear.2.2 hclear.1 hclear.2.1, h.split]
        exact .inr (List.mem_append_right _ (List.mem_singleton_self _))
      · refine hmail.imp (fun hinbox => (List.mem_erase_of_ne hij).mpr hinbox) fun hreplies => ?_
        dsimp only
        split_ifs
        · exact List.mem_append_left _ hreplies
        · exact hreplies

theorem Leaving.ended (h : Leaving m₀ key i m l) (proc : Proc) :
    Leaving m₀ key i (m.step (.ended proc)) (l ++ moves i m (.ended proc)) :=
  h.of_managed rfl (h.tables.step (.ended proc)) ⟨id, id, id, fun _ hp _ _ => hp⟩ (fun _ ht => ht) rfl
    fun _ hmail => hmail

theorem Leaving.run_of_ne (h : Leaving m₀ key i m l) {j : ℕ} (hij : i ≠ j) :
    Leaving m₀ key i (m.step (.run j)) (l ++ moves i m (.run j)) := by
  have hthread : (m.step (.run j)).thread i = m.thread i := thread_run_of_ne hij
  cases htj : m.thread j with
  | none =>
    have heq := step_run_none htj
    refine h.of_managed rfl ?_ ?_ ?_ ?_ ?_ <;> rw [heq]
    · exact h.tables
    · exact .refl key m.depm
    · exact fun t ht => ht
    · exact fun _ hmail => hmail
  | some tj =>
    have heq := step_run htj
    refine h.of_managed rfl ?_ ?_ (fun t ht => ⟨hthread.trans ht.1, ?_⟩) ?_ ?_ <;> rw [heq]
    · exact { h.tables with }
    · exact ⟨id, id, id, fun _ hp _ _ => hp⟩
    · exact ht.2
    · dsimp only
      split_ifs
      · simp [List.count_append, Ne.symm hij]
      · rfl
    · refine fun _ hmail => hmail.imp (fun hinbox => ?_) fun hreplies => ?_
      · dsimp only
        split_ifs
        · exact List.mem_append_left _ hinbox
        · exact hinbox
      · dsimp only
        split_ifs
        · exact (List.mem_erase_of_ne hij).mpr hreplies
        · exact hreplies

theorem Leaving.run_self (h : Leaving m₀ key i m l) : Leaving m₀ key i (m.step (.run i)) (l ++ moves i m (.run i)) := by
  obtain ⟨t, ht, hreleased, hname, hrank, hmessages, hreports, hreceiving⟩ := h.thread
  have ht' := thread_run_self ht
  have heq := step_run ht
  refine ⟨h.split, ?_, ?_, ?_, ?_, _, ht', (ProcessMonitor.run_released ..).trans hreleased,
    (ProcessMonitor.run_proc_name ..).trans hname, ?_, ?_, fun hrun => ?_, fun hrun => ?_⟩
  · rw [heq]
    exact { h.tables with }
  · rw [heq]
    exact h.noneNew.trans ⟨id, id, id, fun _ hp _ _ => hp⟩
  · rw [heq]
    exact h.idle
  · rw [heq]
    exact h.unmonitored
  · rcases ProcessMonitor.run_of_released m.depm.ended (decide (i ∈ m.replies)) hreleased with hsame | hlt
    · have hmoves : moves i m (.run i) = [] := moves_of_eq (by rw [ht', hsame, ht])
      rw [hsame, hmoves, List.append_nil]
      exact hrank
    · have hone := length_moves_le i m (.run i)
      rw [List.length_append]
      omega
  · by_cases hreporting : t.state = .reporting
    · have hafter : (t.run m.depm.ended (decide (i ∈ m.replies))).state = .receiving := by
        simp [ProcessMonitor.run, hreporting]
      rw [hreporting] at hmessages
      rw [hafter, heq]
      dsimp only
      rw [if_pos hreporting, List.count_append, List.count_singleton_self]
      exact hmessages
    · have hle := ProcessMonitor.messages_run_le m.depm.ended (decide (i ∈ m.replies)) hreleased hreporting
      rw [heq]
      dsimp only
      rw [if_neg hreporting]
      omega
  · rw [heq]
    exact hreports (ProcessMonitor.reports_of_run _ _ hreleased hrun)
  · rw [heq]
    rcases ProcessMonitor.of_run_receiving _ _ hrun with hreporting | ⟨hstate, hno⟩
    · refine .inl ?_
      dsimp only
      rw [if_pos hreporting]
      exact List.mem_append_right _ (List.mem_singleton_self _)
    · have hinbox := (hreceiving hstate).resolve_right (of_decide_eq_false hno)
      refine .inl ?_
      dsimp only
      rw [if_neg (by simp [hstate])]
      exact hinbox

/-- **What becomes of a thread that was released**, until there is a launch. -/
theorem Leaving.step (h : Leaving m₀ key i m l) (e : Event) (he : ¬ e.launches key) :
    Leaving m₀ key i (m.step e) (l ++ moves i m e) := by
  cases e with
  | call c => exact h.call c he
  | handleProcmon j r pid => exact h.handleProcmon j r pid
  | run j =>
    by_cases hij : i = j
    · exact hij ▸ h.run_self
    · exact h.run_of_ne hij
  | ended proc => exact h.ended proc

theorem Leaving.run (h : Leaving m₀ key i m l) {events : List Event} (hevents : ∀ e ∈ events, ¬ e.launches key) :
    Leaving m₀ key i (Foundation.run System.step m events) (l ++ collect System.step (moves i) m events) :=
  (AllSteps.of_forall_mem hevents m).inv_collect System.step (moves i) (fun _ e _ h he => h.step e he) h

theorem not_launches_of_concerns {e : Event} (h : e.concerns i) : ¬ e.launches key := by
  cases e with
  | call c => exact h.elim
  | handleProcmon j r pid => exact id
  | run j => exact id
  | ended proc => exact id

/-- It can go on, -/
theorem Leaving.exists_own (h : Leaving m₀ key i m l) {t : ProcessMonitor} (ht : m.thread i = some t)
    (hstate : t.state ≠ .closed) :
    ∃ own, (∀ e ∈ own, e.concerns i) ∧
      ∃ t', (Foundation.run System.step m own).thread i = some t' ∧ t'.state.rank < t.state.rank := by
  obtain ⟨t₁, ht₁, hreleased, hname, -, -, hreports, hreceiving⟩ := h.thread
  obtain rfl : t₁ = t := Option.some.inj (ht₁.symm.trans ht)
  have hstep : ∀ m' : System, m'.thread i = some t₁ →
      (t₁.run m'.depm.ended (i ∈ m'.replies)).state.rank < t₁.state.rank →
      ∃ t', (m'.step (.run i)).thread i = some t' ∧ t'.state.rank < t₁.state.rank :=
    fun m' hm' hlt => ⟨_, thread_run_self hm', hlt⟩
  have hmine : (Event.run i).concerns i := rfl
  cases hx : t₁.state with
  | closed => exact absurd hx hstate
  | waiting p =>
    refine ⟨[.ended p, .run i], by simpa using ⟨trivial, hmine⟩, ?_⟩
    rw [← hx]
    refine hstep (m.step (.ended p)) ht ?_
    have hended : p ∈ (m.step (.ended p)).depm.ended := List.mem_append_right _ (List.mem_singleton_self _)
    simp [ProcessMonitor.run, hx, hended, MonitorState.rank]
  | receiving =>
    rw [← hx]
    by_cases hreply : i ∈ m.replies
    · refine ⟨[.run i], by simpa using hmine, hstep m ht ?_⟩
      simp [ProcessMonitor.run, hx, hreply, MonitorState.rank]
    · -- the message is answered first
      have hinbox := (hreceiving hx).resolve_right hreply
      have hclear := hreports (by rw [hx]; rfl)
      refine ⟨[.handleProcmon i .done none, .run i], by simpa using ⟨rfl, hmine⟩, ?_⟩
      have heq := step_handleProcmon ht hinbox .done none
      rw [hname, handleProcmon_unknown .done none hclear.2.2 hclear.1 hclear.2.1, h.split] at heq
      refine hstep (m.step (.handleProcmon i .done none)) ?_ ?_
      · rw [heq]
        exact ht
      · have hreply' : i ∈ (m.step (.handleProcmon i .done none)).replies := by
          rw [heq]
          exact List.mem_append_right _ (List.mem_singleton_self _)
        simp [ProcessMonitor.run, hx, hreply', MonitorState.rank]
  | woken =>
    rw [← hx]
    refine ⟨[.run i], by simpa using hmine, hstep m ht ?_⟩
    simp [ProcessMonitor.run, hx, hreleased, MonitorState.rank]
  | _ =>
    rw [← hx]
    refine ⟨[.run i], by simpa using hmine, hstep m ht ?_⟩
    simp [ProcessMonitor.run, hx, MonitorState.rank]

/-- to its end. -/
theorem Leaving.exists_closed (h : Leaving m₀ key i m l) :
    ∃ own, (∀ e ∈ own, e.concerns i) ∧
      ∃ t, (Foundation.run System.step m own).thread i = some t ∧ t.state = .closed := by
  obtain ⟨t, ht, -⟩ := h.thread
  induction hn : t.state.rank using Nat.strong_induction_on generalizing m l t with
  | _ n ih =>
    by_cases hclosed : t.state = .closed
    · exact ⟨[], by simp, t, ht, hclosed⟩
    · obtain ⟨own, hown, t', ht', hlt⟩ := h.exists_own ht hclosed
      have hrest := h.run fun e (he : e ∈ own) => not_launches_of_concerns (hown e he)
      obtain ⟨own', hown', hend⟩ := ih t'.state.rank (hn ▸ hlt) hrest t' ht' rfl
      refine ⟨own ++ own', fun e he => (List.mem_append.mp he).elim (hown e) (hown' e), ?_⟩
      rw [run_append]
      exact hend

/-- A thread that leaves is what the end of an actor needs. -/
theorem Leaving.halted (h : Leaving m key i m []) : Halted key i m := by
  intro events hevents
  have hrun := h.run hevents
  obtain ⟨own, hown, hclosed⟩ := hrun.exists_closed
  obtain ⟨t, -, -, -, hrank, hmessages, -⟩ := hrun.thread
  refine ⟨hrun.noneNew.started, ?_, ?_, own, hown, ?_⟩
  · omega
  · rw [List.nil_append] at hrank
    omega
  · rw [run_append]
    exact hclosed

end Leaving

/-! ### A halt -/

/-- A halt of an actor that runs and that the managers stop. -/
theorem Good.haltActor (h : Good m) {r : Stop} {appName : AppName} {actorName : Text}
    (hrun : qualName appName actorName ∈ m.depm.launchMap) (hactor : qualName appName actorName ∈ m.depm.actors)
    (hmanaged : r ≠ .unmanaged) :
    (m.step (.call (.haltActor r appName actorName))).depm.procm = m.depm.procm.release (qualName appName actorName) ∧
      (qualName appName actorName ∈ (m.step (.call (.haltActor r appName actorName))).depm.actors ↔ r ≠ .done) ∧
      (m.step (.call (.haltActor r appName actorName))).depm.devices = m.depm.devices := by
  have hstep : (m.step (.call (.haltActor r appName actorName))).depm = (m.depm.stopActor r appName actorName).1 := rfl
  rw [hstep]
  rcases h.tables.stopActor_cases r appName actorName with ⟨hno, -⟩ | ⟨-, -, hno, -⟩ | ⟨-, -, -, hr, -⟩ |
    ⟨proc, -, -, rfl, heq⟩ | ⟨proc, -, -, rfl, heq⟩
  · exact absurd hrun hno
  · exact absurd hactor hno
  · exact absurd hr hmanaged
  · rw [heq]
    exact ⟨rfl, iff_of_true hactor Stop.noConfusion, rfl⟩
  · rw [heq]
    exact ⟨rfl, iff_of_false (fun hmem => (Dict.mem_del.mp hmem).2 rfl) (not_not_intro rfl), rfl⟩

/-- **After a quiet halt the thread leaves.** -/
theorem Good.leaving (h : Good m) {r : Stop} {appName : AppName} {actorName : Text}
    (hi : m.depm.procm.monitors.get? (qualName appName actorName) = some i)
    (hquiet : Quiet r (qualName appName actorName) i m) :
    Leaving (m.step (.call (.haltActor r appName actorName))) (qualName appName actorName) i
      (m.step (.call (.haltActor r appName actorName))) [] := by
  obtain ⟨hrun, hactor, hmanaged, herror, hsurprised⟩ := hquiet
  obtain ⟨hprocm, hactors, hdevices⟩ := h.haltActor hrun hactor hmanaged
  obtain ⟨t, ht, hname⟩ := m.depm.procm.monitored _ i hi
  have hreleased := h.sound.unreleased _ i t hi ht
  have hunexpected : t.unexpected = false := by simpa [ProcessManager.error, ProcessMonitor.error, ht] using herror
  have hflagged : t.state.flagged = false := (h.sound.flagged i t ht).symm.trans hunexpected
  have hclosed : t.state ≠ .closed := fun hc => by simp [h.sound.closed i t ht hc] at hreleased
  have ht' : (m.step (.call (.haltActor r appName actorName))).thread i = some t.release := by
    unfold thread
    rw [hprocm, ProcessManager.getElem?_release ht, if_pos ⟨hi, herror⟩]
  refine ⟨by rw [splitName_qualName]; rfl, (h.step _).tables, .refl _ _,
    fun hmem => notMem_stopActor m.depm r appName actorName hmem.2, fun name hmon => ?_,
    t.release, ht', rfl, hname, ?_, ?_, fun hr => ?_, fun hr => ?_⟩
  · rw [hprocm] at hmon
    obtain ⟨hold, herror'⟩ := ProcessManager.of_get?_release hmon
    have hsame := herror' (ProcessManager.eq_of_get?_monitors hi hold)
    rw [herror] at hsame
    exact Bool.noConfusion hsame
  · show 0 + t.state.rank ≤ 7
    cases t.state <;> simp [MonitorState.rank]
  · show _ + t.state.messages ≤ _
    cases t.state <;> simp [MonitorState.messages]
  · have hstate : t.state = .surprised := by
      have hr' : t.state.reports = true := hr
      cases hx : t.state <;> simp [hx, MonitorState.reports, MonitorState.flagged] at hr' hflagged ⊢
    obtain ⟨hdone, hclear⟩ := hsurprised t ht hstate
    rw [hdevices]
    exact ⟨fun hmem => hactors.mp hmem hdone, hclear⟩
  · have hr' : t.state = .receiving := hr
    rw [hr'] at hflagged
    exact Bool.noConfusion hflagged

/-! ### A thread that is not released -/

/-- A thread waits for a reply that will not come. -/
def Stuck (i : ℕ) (m : System) : Prop :=
  (∃ t, m.thread i = some t ∧ t.state = .receiving) ∧ i ∉ m.inbox ∧ i ∉ m.replies

theorem Stuck.step (h : Stuck i m) {e : Event} (he : e.concerns i) : Stuck i (m.step e) := by
  obtain ⟨⟨t, ht, hstate⟩, hinbox, hreplies⟩ := h
  cases e with
  | call c => exact he.elim
  | handleProcmon j r pid =>
    obtain rfl : j = i := he
    rw [step_handleProcmon_of_notMem hinbox]
    exact ⟨⟨t, ht, hstate⟩, hinbox, hreplies⟩
  | run j =>
    obtain rfl : j = i := he
    refine ⟨⟨_, thread_run_self ht, by simp [ProcessMonitor.run, hstate, hreplies]⟩, ?_⟩
    rw [step_run ht]
    dsimp only
    rw [if_neg (by simp [hstate]), List.erase_of_not_mem hreplies, ite_self]
    exact ⟨hinbox, hreplies⟩
  | ended proc => exact ⟨⟨t, ht, hstate⟩, hinbox, hreplies⟩

end System

end Riaps.Deployment
