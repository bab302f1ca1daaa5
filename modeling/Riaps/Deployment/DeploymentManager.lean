import Riaps.Foundation.Runs
import Riaps.Deployment.ProcessManager

/-!
# The deployment manager

The deployment manager starts the processes of actors and devices and terminates
them. A process that runs is in `launchMap`, under the qualified name of its
actor or device; beside it there are the records of actors and devices, the
application database and the process manager.

The operations are modelled with what they do to these before an exception ends
them, or before they come to wait for ever, and with whether they went through. A
stop asks the resource and the fault manager to stop the actor or the device, and
what these do to it is told with the call. Of a process, whether it has ended is
part of the state, and so are the processes that were submitted for termination.
-/

namespace Riaps.Deployment

open Riaps.Foundation

/-! ### The state -/

/-- `DeploActorRecord`. -/
structure ActorRecord where
  app : AppName
  model : Text
  actor : Text
  args : List Text
  deriving DecidableEq

/-- `DeploDeviceRecord`. -/
structure DeviceRecord where
  app : AppName
  model : Text
  type : Text
  inst : Text
  args : List Text
  deriving DecidableEq

/-- The state of a `DeploymentManager`. -/
structure DeploymentManager where
  /-- `launchMap`: the processes that run. -/
  launchMap : Dict Text Proc
  actors : Dict Text ActorRecord
  devices : Dict Text DeviceRecord
  disco : Option Proc
  appDbase : AppDbase
  procm : ProcessManager
  /-- The processes of actors and devices that were started. -/
  started : List Proc
  /-- The number of all processes that were started. -/
  procs : ℕ
  /-- What the executor was asked to terminate. -/
  submitted : List Proc
  /-- The processes that have ended. -/
  ended : List Proc

/-- A call: the state after it, and whether it went through. If it did not, an exception has ended it, or it does not
return. -/
abbrev Outcome := DeploymentManager × Bool

/-- What becomes of a stop, where others have a part in it. -/
inductive Stop where
  /-- All goes well. -/
  | done
  /-- The resource or the fault manager raises an exception, or waits for a thread for ever. -/
  | unmanaged
  /-- The sockets of an actor that has registered are not closed. -/
  | unclosed
  deriving DecidableEq

namespace DeploymentManager

/-- One operation after another, unless the first did not go through. -/
def andThen (o : Outcome) (f : DeploymentManager → Outcome) : Outcome := if o.2 then f o.1 else o

/-- A manager over a database. -/
def init (appDbase : AppDbase) : DeploymentManager where
  launchMap := .empty
  actors := .empty
  devices := .empty
  disco := none
  appDbase := appDbase
  procm := .init
  started := []
  procs := 0
  submitted := []
  ended := []

/-- `DISCONAME`. -/
def discoName : Text := ['r', 'i', 'a', 'p', 's', '.', 'd', 'i', 's', 'c', 'o']

/-! ### Starting -/

/-- The process of a record that is started, with its entry in `launchMap`, its record in the database and
its monitor. -/
def launch (act : ActorCommand) (s : DeploymentManager) : DeploymentManager :=
  let proc : Proc := ⟨s.procs, act.pid, act.key, act.model, act.args, act.isdevice⟩
  { s with
    launchMap := s.launchMap.set act.key proc
    appDbase := s.appDbase.addAppActor act
    procm := s.procm.monitor act.key proc
    started := s.started ++ [proc]
    procs := s.procs + 1 }

/-- `startActor`. The process gets a pid, or it does not start, and a `BuildError` is raised. -/
def startActor (appName : AppName) (appModel actorName : Text) (actorArgs : List Text) (pid : Option ℕ)
    (s : DeploymentManager) : Outcome :=
  match pid with
  | none => (s, false)
  | some pid =>
    let s := { s with actors := s.actors.set (qualName appName actorName) ⟨appName, appModel, actorName, actorArgs⟩ }
    (s.launch ⟨appName, appModel, actorName, actorArgs, pid, false⟩, true)

/-- `startDevice`. -/
def startDevice (appName : AppName) (appModel typeName instName : Text) (actorArgs : List Text) (pid : Option ℕ)
    (s : DeploymentManager) : Outcome :=
  match pid with
  | none => (s, false)
  | some pid =>
    let s := { s with
      devices := s.devices.set (qualName appName instName) ⟨appName, appModel, typeName, instName, actorArgs⟩ }
    (s.launch ⟨appName, appModel, instName, actorArgs, pid, true⟩, true)

/-- `startDisco`. -/
def startDisco (pid : Option ℕ) (s : DeploymentManager) : Outcome :=
  match pid with
  | none => (s, false)
  | some pid =>
    let proc : Proc := ⟨s.procs, pid, discoName, [], [], false⟩
    ({ s with disco := some proc, procm := s.procm.monitor discoName proc, procs := s.procs + 1 }, true)

/-- `setupDisco`. -/
def setupDisco (pid : Option ℕ) (s : DeploymentManager) : Outcome :=
  if s.disco.isNone then s.startDisco pid else (s, true)

/-! ### Stopping -/

/-- `stopActor`. -/
def stopActor (r : Stop) (appName : AppName) (actorName : Text) (s : DeploymentManager) : Outcome :=
  let qualName := qualName appName actorName
  match s.launchMap.get? qualName with
  | none => (s, true)
  | some proc =>
    let s := { s with launchMap := s.launchMap.del qualName }
    if qualName ∉ s.actors then (s, true)
    else if r = .unmanaged then (s, false)
    else
      let s := { s with procm := s.procm.release qualName, submitted := s.submitted ++ [proc] }
      if r = .unclosed then (s, false)
      else
        let s := { s with actors := s.actors.del qualName }
        match s.appDbase.getAppActor appName actorName with
        -- `None` has no firewall
        | none => (s, false)
        | some _ => ({ s with appDbase := s.appDbase.delAppActor appName actorName }, true)

/-- `haltActor`. -/
def haltActor (r : Stop) (appName : AppName) (actorName : Text) (s : DeploymentManager) : Outcome :=
  s.stopActor r appName actorName

/-- `stopDevice`, which closes no sockets. -/
def stopDevice (r : Stop) (appName : AppName) (instName : Text) (s : DeploymentManager) : Outcome :=
  let qualName := qualName appName instName
  match s.launchMap.get? qualName with
  | none => (s, true)
  | some proc =>
    let s := { s with launchMap := s.launchMap.del qualName }
    if qualName ∉ s.devices then (s, false)
    else if r = .unmanaged then (s, false)
    else
      ({ s with
          procm := s.procm.release qualName
          submitted := if proc ∈ s.ended then s.submitted else s.submitted ++ [proc] }, true)

/-- `handleProcmon`, for a message with a name. If it does not go through the monitor gets no reply. -/
def handleProcmon (r : Stop) (qualName : Text) (pid : Option ℕ) (s : DeploymentManager) : Outcome :=
  if qualName = discoName then s.startDisco pid
  else
    match splitName qualName with
    | none => (s, false)
    | some (appName, actorName) =>
      match s.actors.get? qualName, s.devices.get? qualName with
      | some record, _ =>
        if appName = record.app ∧ actorName = record.actor ∧ qualName ∈ s.launchMap then
          andThen (s.stopActor r appName actorName) fun s =>
            s.startActor appName record.model actorName record.args pid
        else (s, false)
      | none, some record =>
        andThen (s.stopDevice r appName actorName) fun s =>
          s.startDevice appName record.model record.type record.inst record.args pid
      | none, none => (s, true)

/-- The actors of a list of names are halted, until a halt does not go through. -/
def haltAll (results : Text → Stop) : List Text → DeploymentManager → Outcome
  | [], s => (s, true)
  | key :: toHalt, s =>
    match splitName key with
    | some (appName, actorName) => andThen (s.haltActor (results key) appName actorName) (haltAll results toHalt)
    | none => (s, false)

/-- `stop`. -/
def stop (results : Text → Stop) (s : DeploymentManager) : Outcome :=
  andThen (s.haltAll results s.launchMap.keys) fun s =>
    ({ s with
        procm := if s.disco.isSome then s.procm.release discoName else s.procm
        disco := none
        appDbase := s.appDbase.closeDbase }, true)

/-! ### Events -/

/-- What a manager is asked to do. -/
inductive Call where
  | startActor (appName : AppName) (appModel actorName : Text) (actorArgs : List Text) (pid : Option ℕ)
  | startDevice (appName : AppName) (appModel typeName instName : Text) (actorArgs : List Text) (pid : Option ℕ)
  | setupDisco (pid : Option ℕ)
  | haltActor (r : Stop) (appName : AppName) (actorName : Text)
  | stopDevice (r : Stop) (appName : AppName) (instName : Text)
  deriving DecidableEq

/-- It does it. -/
def call (s : DeploymentManager) : Call → Outcome
  | .startActor appName appModel actorName actorArgs pid => s.startActor appName appModel actorName actorArgs pid
  | .startDevice appName appModel typeName instName actorArgs pid =>
    s.startDevice appName appModel typeName instName actorArgs pid
  | .setupDisco pid => s.setupDisco pid
  | .haltActor r appName actorName => s.haltActor r appName actorName
  | .stopDevice r appName instName => s.stopDevice r appName instName

/-- What happens to a manager that runs. -/
inductive Event where
  | call (c : Call)
  | handleProcmon (r : Stop) (qualName : Text) (pid : Option ℕ)
  /-- A process ends. -/
  | ended (proc : Proc)
  deriving DecidableEq

/-- One event. -/
def step (s : DeploymentManager) : Event → DeploymentManager
  | .call c => (s.call c).1
  | .handleProcmon r qualName pid => (s.handleProcmon r qualName pid).1
  | .ended proc => { s with ended := s.ended ++ [proc] }

/-! ### What an operation does -/

section Specs

variable {s : DeploymentManager} {r : Stop} {appName : AppName} {name : Text} {proc : Proc}

theorem andThen_rule {P : DeploymentManager → Prop} {o : Outcome} {f : DeploymentManager → Outcome} (h : P o.1)
    (hf : P (f o.1).1) : P (andThen o f).1 := by
  rw [andThen]
  split_ifs
  · exact hf
  · exact h

theorem andThen_of_ok {o : Outcome} (h : o.2 = true) (f : DeploymentManager → Outcome) : andThen o f = f o.1 := if_pos h

theorem andThen_of_not_ok {o : Outcome} (h : o.2 = false) (f : DeploymentManager → Outcome) : andThen o f = o :=
  if_neg (by rw [h]; exact Bool.false_ne_true)

theorem stopActor_of_notMem (r : Stop) (h : qualName appName name ∉ s.launchMap) :
    s.stopActor r appName name = (s, true) := by
  unfold stopActor
  dsimp only
  rw [Dict.get?_eq_none_iff.mpr h]

/-- A process that is no actor's loses its entry. -/
theorem stopActor_of_notMem_actors (r : Stop) (h : s.launchMap.get? (qualName appName name) = some proc)
    (hactor : qualName appName name ∉ s.actors) :
    s.stopActor r appName name = ({ s with launchMap := s.launchMap.del (qualName appName name) }, true) := by
  unfold stopActor
  dsimp only
  rw [h]
  dsimp only
  rw [if_pos hactor]

/-- So does an actor that the managers do not stop, and no more is done. -/
theorem stopActor_unmanaged (h : s.launchMap.get? (qualName appName name) = some proc)
    (hactor : qualName appName name ∈ s.actors) :
    s.stopActor .unmanaged appName name =
      ({ s with launchMap := s.launchMap.del (qualName appName name) }, false) := by
  unfold stopActor
  dsimp only
  rw [h]
  dsimp only
  rw [if_neg (not_not_intro hactor), if_pos rfl]

/-- An actor whose sockets are not closed keeps its records. -/
theorem stopActor_unclosed (h : s.launchMap.get? (qualName appName name) = some proc)
    (hactor : qualName appName name ∈ s.actors) :
    s.stopActor .unclosed appName name =
      ({ s with
          launchMap := s.launchMap.del (qualName appName name)
          procm := s.procm.release (qualName appName name)
          submitted := s.submitted ++ [proc] }, false) := by
  unfold stopActor
  dsimp only
  rw [h]
  dsimp only
  rw [if_neg (not_not_intro hactor), if_neg Stop.noConfusion, if_pos rfl]

/-- An actor is stopped. -/
theorem stopActor_of_mem (h : s.launchMap.get? (qualName appName name) = some proc)
    (hactor : qualName appName name ∈ s.actors)
    (hrecord : qualName appName name ∈ s.appDbase.records.map ActorCommand.key) :
    s.stopActor .done appName name =
      ({ s with
          launchMap := s.launchMap.del (qualName appName name)
          procm := s.procm.release (qualName appName name)
          submitted := s.submitted ++ [proc]
          actors := s.actors.del (qualName appName name)
          appDbase := s.appDbase.delAppActor appName name }, true) := by
  obtain ⟨act, hact⟩ := Option.isSome_iff_exists.mp (AppDbase.getAppActor_isSome.mpr hrecord)
  unfold stopActor
  dsimp only
  rw [h]
  dsimp only
  rw [if_neg (not_not_intro hactor), if_neg Stop.noConfusion, if_neg Stop.noConfusion, hact]

theorem stopDevice_of_notMem (r : Stop) (h : qualName appName name ∉ s.launchMap) :
    s.stopDevice r appName name = (s, true) := by
  unfold stopDevice
  dsimp only
  rw [Dict.get?_eq_none_iff.mpr h]

/-- A process that is no device's loses its entry, and so does a device that the managers do not stop. -/
theorem stopDevice_of_fails (h : s.launchMap.get? (qualName appName name) = some proc)
    (hfails : qualName appName name ∉ s.devices ∨ r = .unmanaged) :
    s.stopDevice r appName name = ({ s with launchMap := s.launchMap.del (qualName appName name) }, false) := by
  unfold stopDevice
  dsimp only
  rw [h]
  dsimp only
  by_cases hdevice : qualName appName name ∈ s.devices
  · rw [if_neg (not_not_intro hdevice), if_pos (hfails.resolve_left (not_not_intro hdevice))]
  · rw [if_pos hdevice]

/-- A device is stopped. -/
theorem stopDevice_of_mem (h : s.launchMap.get? (qualName appName name) = some proc)
    (hdevice : qualName appName name ∈ s.devices) (hmanaged : r ≠ .unmanaged) :
    s.stopDevice r appName name =
      ({ s with
          launchMap := s.launchMap.del (qualName appName name)
          procm := s.procm.release (qualName appName name)
          submitted := if proc ∈ s.ended then s.submitted else s.submitted ++ [proc] }, true) := by
  unfold stopDevice
  dsimp only
  rw [h]
  dsimp only
  rw [if_neg (not_not_intro hdevice), if_neg hmanaged]

/-- **What `stopDevice` can do**: nothing, delete the entry of what is not stopped as a device, or stop a device. -/
theorem stopDevice_cases (s : DeploymentManager) (r : Stop) (appName : AppName) (instName : Text) :
    qualName appName instName ∉ s.launchMap ∧ s.stopDevice r appName instName = (s, true) ∨
    (∃ proc, s.launchMap.get? (qualName appName instName) = some proc ∧
      (qualName appName instName ∉ s.devices ∨ r = .unmanaged) ∧
      s.stopDevice r appName instName = ({ s with launchMap := s.launchMap.del (qualName appName instName) }, false)) ∨
    ∃ proc, s.launchMap.get? (qualName appName instName) = some proc ∧ qualName appName instName ∈ s.devices ∧
      r ≠ .unmanaged ∧
      s.stopDevice r appName instName =
        ({ s with
            launchMap := s.launchMap.del (qualName appName instName)
            procm := s.procm.release (qualName appName instName)
            submitted := if proc ∈ s.ended then s.submitted else s.submitted ++ [proc] }, true) := by
  cases hget : s.launchMap.get? (qualName appName instName) with
  | none =>
    have hno := Dict.get?_eq_none_iff.mp hget
    exact .inl ⟨hno, stopDevice_of_notMem r hno⟩
  | some proc =>
    by_cases hfails : qualName appName instName ∉ s.devices ∨ r = .unmanaged
    · exact .inr (.inl ⟨proc, rfl, hfails, stopDevice_of_fails hget hfails⟩)
    · obtain ⟨hdevice, hmanaged⟩ := not_or.mp hfails
      rw [not_not] at hdevice
      exact .inr (.inr ⟨proc, rfl, hdevice, hmanaged, stopDevice_of_mem hget hdevice hmanaged⟩)

/-- Disco is started, or it runs already. -/
theorem setupDisco_rule {P : DeploymentManager → Prop} (h : P s) {pid : Option ℕ} (hstart : P (s.startDisco pid).1) :
    P (s.setupDisco pid).1 := by
  rw [setupDisco]
  split_ifs
  · exact hstart
  · exact h

/-- What is stopped has no entry after it, whatever it was. -/
@[simp] theorem stopActor_launchMap (s : DeploymentManager) (r : Stop) (appName : AppName) (actorName : Text) :
    (s.stopActor r appName actorName).1.launchMap = s.launchMap.del (qualName appName actorName) := by
  unfold stopActor
  dsimp only
  cases hget : s.launchMap.get? (qualName appName actorName) with
  | none => exact (Dict.del_of_notMem (Dict.get?_eq_none_iff.mp hget)).symm
  | some proc =>
    by_cases hactor : qualName appName actorName ∈ s.actors
    · simp only [hactor, not_true_eq_false, if_false]
      split_ifs
      · rfl
      · rfl
      · cases s.appDbase.getAppActor appName actorName <;> rfl
    · simp only [hactor, not_false_eq_true, if_true]

@[simp] theorem stopDevice_launchMap (s : DeploymentManager) (r : Stop) (appName : AppName) (instName : Text) :
    (s.stopDevice r appName instName).1.launchMap = s.launchMap.del (qualName appName instName) := by
  rcases s.stopDevice_cases r appName instName with ⟨hno, heq⟩ | ⟨proc, -, -, heq⟩ | ⟨proc, -, -, -, heq⟩ <;> rw [heq]
  exact (Dict.del_of_notMem hno).symm

theorem notMem_stopActor (s : DeploymentManager) (r : Stop) (appName : AppName) (actorName : Text) :
    qualName appName actorName ∉ (s.stopActor r appName actorName).1.launchMap := by
  simp [Dict.mem_del]

theorem notMem_stopDevice (s : DeploymentManager) (r : Stop) (appName : AppName) (instName : Text) :
    qualName appName instName ∉ (s.stopDevice r appName instName).1.launchMap := by
  simp [Dict.mem_del]

/-- The record of a device stays. -/
@[simp] theorem stopDevice_appDbase (s : DeploymentManager) (r : Stop) (appName : AppName) (instName : Text) :
    (s.stopDevice r appName instName).1.appDbase = s.appDbase := by
  rcases s.stopDevice_cases r appName instName with ⟨-, heq⟩ | ⟨proc, -, -, heq⟩ | ⟨proc, -, -, -, heq⟩ <;> rw [heq]

end Specs

/-! ### The tables -/

/-- What holds of the tables of every manager: the records have their names, and what runs was started and is
recorded. -/
structure Tables (s : DeploymentManager) : Prop where
  actors : ∀ key r, s.actors.get? key = some r → key = qualName r.app r.actor
  devices : ∀ key r, s.devices.get? key = some r → key = qualName r.app r.inst
  launched : ∀ key p, s.launchMap.get? key = some p → p.key = key ∧ p ∈ s.started
  recorded : ∀ key ∈ s.launchMap, key ∈ s.appDbase.records.map ActorCommand.key
  fresh : ∀ p ∈ s.started, p.num < s.procs

variable {s : DeploymentManager}

/-- **What `stopActor` can do**: nothing, delete the entry of what is no actor or of what the managers do not stop, stop
an actor up to its sockets, or stop it. -/
theorem Tables.stopActor_cases (h : Tables s) (r : Stop) (appName : AppName) (actorName : Text) :
    qualName appName actorName ∉ s.launchMap ∧ s.stopActor r appName actorName = (s, true) ∨
    (∃ proc, s.launchMap.get? (qualName appName actorName) = some proc ∧ qualName appName actorName ∉ s.actors ∧
      s.stopActor r appName actorName = ({ s with launchMap := s.launchMap.del (qualName appName actorName) }, true)) ∨
    (∃ proc, s.launchMap.get? (qualName appName actorName) = some proc ∧ qualName appName actorName ∈ s.actors ∧
      r = .unmanaged ∧
      s.stopActor r appName actorName = ({ s with launchMap := s.launchMap.del (qualName appName actorName) }, false)) ∨
    (∃ proc, s.launchMap.get? (qualName appName actorName) = some proc ∧ qualName appName actorName ∈ s.actors ∧
      r = .unclosed ∧
      s.stopActor r appName actorName =
        ({ s with
            launchMap := s.launchMap.del (qualName appName actorName)
            procm := s.procm.release (qualName appName actorName)
            submitted := s.submitted ++ [proc] }, false)) ∨
    ∃ proc, s.launchMap.get? (qualName appName actorName) = some proc ∧ qualName appName actorName ∈ s.actors ∧
      r = .done ∧
      s.stopActor r appName actorName =
        ({ s with
            launchMap := s.launchMap.del (qualName appName actorName)
            procm := s.procm.release (qualName appName actorName)
            submitted := s.submitted ++ [proc]
            actors := s.actors.del (qualName appName actorName)
            appDbase := s.appDbase.delAppActor appName actorName }, true) := by
  cases hget : s.launchMap.get? (qualName appName actorName) with
  | none =>
    have hno := Dict.get?_eq_none_iff.mp hget
    exact .inl ⟨hno, stopActor_of_notMem r hno⟩
  | some proc =>
    by_cases hactor : qualName appName actorName ∈ s.actors
    · refine .inr (.inr ?_)
      cases r with
      | done =>
        have hrecord := h.recorded _ (Dict.mem_of_get? hget)
        exact .inr (.inr ⟨proc, rfl, hactor, rfl, stopActor_of_mem hget hactor hrecord⟩)
      | unmanaged => exact .inl ⟨proc, rfl, hactor, rfl, stopActor_unmanaged hget hactor⟩
      | unclosed => exact .inr (.inl ⟨proc, rfl, hactor, rfl, stopActor_unclosed hget hactor⟩)
    · exact .inr (.inl ⟨proc, rfl, hactor, stopActor_of_notMem_actors r hget hactor⟩)

theorem Tables.init (appDbase : AppDbase) : Tables (init appDbase) where
  actors key r h := by simp [DeploymentManager.init] at h
  devices key r h := by simp [DeploymentManager.init] at h
  launched key p h := by simp [DeploymentManager.init] at h
  recorded key h := by simp [DeploymentManager.init] at h
  fresh p h := by simp [DeploymentManager.init] at h

theorem Tables.launch (h : Tables s) (act : ActorCommand) : Tables (s.launch act) where
  actors := h.actors
  devices := h.devices
  launched key p hget := by
    change (s.launchMap.set _ _).get? key = some p at hget
    change p.key = key ∧ p ∈ s.started ++ [_]
    rcases Dict.get?_set_eq_some.mp hget with ⟨rfl, rfl⟩ | ⟨-, hold⟩
    · exact ⟨rfl, List.mem_append_right _ (List.mem_singleton_self _)⟩
    · exact ⟨(h.launched key p hold).1, List.mem_append_left _ (h.launched key p hold).2⟩
  recorded key hmem := by
    show key ∈ (s.appDbase.addAppActor act).records.map ActorCommand.key
    rw [((AppDbase.records_addAppActor act s.appDbase).map _).mem_iff, List.map_cons, List.mem_cons]
    exact (Dict.mem_set.mp hmem).imp_right (h.recorded key)
  fresh p hp := by
    change p ∈ s.started ++ [_] at hp
    show p.num < s.procs + 1
    rcases List.mem_append.mp hp with hp | hp
    · have := h.fresh p hp
      omega
    · rw [List.mem_singleton.mp hp]
      exact Nat.lt_succ_self _

theorem Tables.startActor (h : Tables s) (appName : AppName) (appModel actorName : Text) (actorArgs : List Text)
    (pid : Option ℕ) : Tables (s.startActor appName appModel actorName actorArgs pid).1 := by
  cases pid with
  | none => exact h
  | some pid =>
    have hactors : Tables
        { s with actors := s.actors.set (qualName appName actorName) ⟨appName, appModel, actorName, actorArgs⟩ } := by
      refine { h with actors := fun key r hget => ?_ }
      rcases Dict.get?_set_eq_some.mp hget with ⟨rfl, rfl⟩ | ⟨-, hold⟩
      · rfl
      · exact h.actors key r hold
    exact hactors.launch _

theorem Tables.startDevice (h : Tables s) (appName : AppName) (appModel typeName instName : Text)
    (actorArgs : List Text) (pid : Option ℕ) :
    Tables (s.startDevice appName appModel typeName instName actorArgs pid).1 := by
  cases pid with
  | none => exact h
  | some pid =>
    have hdevices : Tables
        { s with devices :=
            s.devices.set (qualName appName instName) ⟨appName, appModel, typeName, instName, actorArgs⟩ } := by
      refine { h with devices := fun key r hget => ?_ }
      rcases Dict.get?_set_eq_some.mp hget with ⟨rfl, rfl⟩ | ⟨-, hold⟩
      · rfl
      · exact h.devices key r hold
    exact hdevices.launch _

/-- An entry less. -/
theorem Tables.del (h : Tables s) (key : Text) : Tables { s with launchMap := s.launchMap.del key } where
  actors := h.actors
  devices := h.devices
  launched k p hp := by
    dsimp only at hp
    rw [Dict.get?_del] at hp
    split_ifs at hp
    exact h.launched k p hp
  recorded k hk := h.recorded k (Dict.mem_del.mp hk).1
  fresh := h.fresh

theorem Tables.stopActor (h : Tables s) (r : Stop) (appName : AppName) (actorName : Text) :
    Tables (s.stopActor r appName actorName).1 := by
  have hdel := h.del (qualName appName actorName)
  rcases h.stopActor_cases r appName actorName with ⟨-, heq⟩ | ⟨proc, -, -, heq⟩ | ⟨proc, -, -, -, heq⟩ |
    ⟨proc, -, -, -, heq⟩ | ⟨proc, -, -, -, heq⟩ <;> rw [heq]
  · exact h
  · exact hdel
  · exact hdel
  · exact { hdel with }
  · refine ⟨fun key a ha => ?_, h.devices, hdel.launched, fun key hkey => ?_, h.fresh⟩
    · dsimp only at ha
      rw [Dict.get?_del] at ha
      split_ifs at ha
      exact h.actors key a ha
    · obtain ⟨hkey, hne⟩ := Dict.mem_del.mp hkey
      rw [((AppDbase.records_delAppActor ..).map _).mem_iff, List.mem_map]
      obtain ⟨act, hact, rfl⟩ := List.mem_map.mp (h.recorded key hkey)
      exact ⟨act, List.mem_filter.mpr ⟨hact, decide_eq_true hne⟩, rfl⟩

theorem Tables.stopDevice (h : Tables s) (r : Stop) (appName : AppName) (instName : Text) :
    Tables (s.stopDevice r appName instName).1 := by
  have hdel := h.del (qualName appName instName)
  rcases s.stopDevice_cases r appName instName with ⟨-, heq⟩ | ⟨proc, -, -, heq⟩ | ⟨proc, -, -, -, heq⟩ <;> rw [heq]
  · exact h
  · exact hdel
  · exact { hdel with }

theorem Tables.startDisco (h : Tables s) (pid : Option ℕ) : Tables (s.startDisco pid).1 := by
  cases pid with
  | none => exact h
  | some pid => exact { h with fresh := fun p hp => Nat.lt_succ_of_lt (h.fresh p hp) }

/-! ### Restarting -/

section Procmon

variable {key : Text} (r : Stop) (pid : Option ℕ) (hdisco : key ≠ discoName)

include hdisco

/-- An actor that runs is stopped and started. -/
theorem Tables.handleProcmon_actor (h : Tables s) {a : ActorRecord} (hget : s.actors.get? key = some a)
    (hrun : key ∈ s.launchMap) :
    s.handleProcmon r key pid =
      andThen (s.stopActor r a.app a.actor) fun s => s.startActor a.app a.model a.actor a.args pid := by
  obtain rfl := h.actors key a hget
  unfold handleProcmon
  rw [if_neg hdisco, splitName_qualName]
  simp only [hget, hrun, and_self, if_true]

/-- An actor that does not run is left. -/
theorem Tables.handleProcmon_halted (h : Tables s) {a : ActorRecord} (hget : s.actors.get? key = some a)
    (hrun : key ∉ s.launchMap) : s.handleProcmon r key pid = (s, false) := by
  obtain rfl := h.actors key a hget
  unfold handleProcmon
  rw [if_neg hdisco, splitName_qualName]
  simp only [hget, hrun, and_false, if_false]

/-- A device is stopped and started. -/
theorem Tables.handleProcmon_device (h : Tables s) {d : DeviceRecord} (hactor : key ∉ s.actors)
    (hget : s.devices.get? key = some d) :
    s.handleProcmon r key pid =
      andThen (s.stopDevice r d.app d.inst) fun s => s.startDevice d.app d.model d.type d.inst d.args pid := by
  obtain rfl := h.devices key d hget
  unfold handleProcmon
  rw [if_neg hdisco, splitName_qualName]
  simp only [Dict.get?_eq_none_iff.mpr hactor, hget]

/-- What is no actor and no device is left. -/
theorem handleProcmon_unknown (hactor : key ∉ s.actors) (hdevice : key ∉ s.devices) :
    s.handleProcmon r key pid = (s, (splitName key).isSome) := by
  unfold handleProcmon
  rw [if_neg hdisco]
  cases splitName key with
  | none => rfl
  | some p => simp [Dict.get?_eq_none_iff.mpr hactor, Dict.get?_eq_none_iff.mpr hdevice]

end Procmon

/-- **What a message can do**: start disco, restart an actor that runs or a device, or nothing, with an exception
for an actor that does not run. -/
theorem Tables.handleProcmon_cases (h : Tables s) (r : Stop) (key : Text) (pid : Option ℕ) :
    (key = discoName ∧ s.handleProcmon r key pid = s.startDisco pid) ∨
    (∃ a, key ≠ discoName ∧ s.actors.get? key = some a ∧ key = qualName a.app a.actor ∧ key ∈ s.launchMap ∧
      s.handleProcmon r key pid =
        andThen (s.stopActor r a.app a.actor) fun s => s.startActor a.app a.model a.actor a.args pid) ∨
    (∃ d, key ≠ discoName ∧ key ∉ s.actors ∧ s.devices.get? key = some d ∧ key = qualName d.app d.inst ∧
      s.handleProcmon r key pid =
        andThen (s.stopDevice r d.app d.inst) fun s => s.startDevice d.app d.model d.type d.inst d.args pid) ∨
    (key ≠ discoName ∧ key ∈ s.actors ∧ key ∉ s.launchMap ∧ s.handleProcmon r key pid = (s, false)) ∨
    (key ≠ discoName ∧ key ∉ s.actors ∧ key ∉ s.devices ∧
      s.handleProcmon r key pid = (s, (splitName key).isSome)) := by
  by_cases hdisco : key = discoName
  · exact .inl ⟨hdisco, by rw [DeploymentManager.handleProcmon, if_pos hdisco]⟩
  cases hactor : s.actors.get? key with
  | some a =>
    by_cases hrun : key ∈ s.launchMap
    · exact .inr (.inl
        ⟨a, hdisco, rfl, h.actors key a hactor, hrun, h.handleProcmon_actor r pid hdisco hactor hrun⟩)
    · exact .inr (.inr (.inr (.inl
        ⟨hdisco, Dict.mem_of_get? hactor, hrun, h.handleProcmon_halted r pid hdisco hactor hrun⟩)))
  | none =>
    have hno := Dict.get?_eq_none_iff.mp hactor
    cases hdevice : s.devices.get? key with
    | some d =>
      exact .inr (.inr (.inl
        ⟨d, hdisco, hno, rfl, h.devices key d hdevice, h.handleProcmon_device r pid hdisco hno hdevice⟩))
    | none =>
      have hno' := Dict.get?_eq_none_iff.mp hdevice
      exact .inr (.inr (.inr (.inr ⟨hdisco, hno, hno', handleProcmon_unknown r pid hdisco hno hno'⟩)))

theorem Tables.handleProcmon (h : Tables s) (r : Stop) (key : Text) (pid : Option ℕ) :
    Tables (s.handleProcmon r key pid).1 := by
  rcases h.handleProcmon_cases r key pid with ⟨-, heq⟩ | ⟨a, -, -, -, -, heq⟩ | ⟨d, -, -, -, -, heq⟩ | ⟨-, -, -, heq⟩ |
    ⟨-, -, -, heq⟩ <;> rw [heq]
  · exact h.startDisco pid
  · exact andThen_rule (h.stopActor ..) ((h.stopActor ..).startActor ..)
  · exact andThen_rule (h.stopDevice ..) ((h.stopDevice ..).startDevice ..)
  · exact h
  · exact h

theorem Tables.call (h : Tables s) (c : Call) : Tables (s.call c).1 := by
  cases c with
  | startActor appName appModel actorName actorArgs pid => exact h.startActor ..
  | startDevice appName appModel typeName instName actorArgs pid => exact h.startDevice ..
  | setupDisco pid => exact setupDisco_rule h (h.startDisco pid)
  | haltActor r appName actorName => exact h.stopActor ..
  | stopDevice r appName instName => exact h.stopDevice ..

theorem Tables.step (h : Tables s) (e : Event) : Tables (step s e) := by
  cases e with
  | call c => exact h.call c
  | handleProcmon r qualName pid => exact h.handleProcmon ..
  | ended proc => exact { h with }

end DeploymentManager

end Riaps.Deployment
