import Riaps.Deployment.DeploymentManager

/-!
# The records and what runs

`recover` trusts the records in the database: there should be one for each
process in `launchMap`, with its pid and its arguments, and no other.

Every start writes both, and `stopActor` deletes both for an actor. But
`stopDevice` has no `delAppActor`: the record of a device stays, and when the
device is started once more, as after its process has ended, there are two. The
same is true of a start under a key that is in use, which adds a record and
replaces an entry, of `stopActor` for what is no actor, and of a stop that does
not come to its end. In all other runs the records are those of `launchMap`
(`corresponds_iff`).
-/

namespace Riaps.Deployment

open Riaps.Foundation
open List (Perm)

/-- What a record says of a process. -/
def ActorCommand.entry (r : ActorCommand) : Text × ℕ × List Text := (r.key, r.pid, r.args)

namespace DeploymentManager

variable {s : DeploymentManager}

/-! ### What should agree -/

/-- What the database has. -/
def recordedEntries (s : DeploymentManager) : List (Text × ℕ × List Text) := s.appDbase.records.map ActorCommand.entry

/-- What runs. -/
def launchedEntries (s : DeploymentManager) : List (Text × ℕ × List Text) :=
  s.launchMap.items.map fun i => (i.1, i.2.pid, i.2.args)

/-- There is one record for each process, with its pid and its arguments. -/
def Corresponds (s : DeploymentManager) : Prop := Perm s.recordedEntries s.launchedEntries

instance (s : DeploymentManager) : Decidable s.Corresponds := inferInstanceAs (Decidable (Perm _ _))

/-- A call that changes the records as it changes `launchMap`. -/
def KeepsRecordsCall (s : DeploymentManager) : Call → Prop
  | .startActor appName _ actorName _ pid => pid.isSome → qualName appName actorName ∉ s.launchMap
  | .startDevice appName _ _ instName _ pid => pid.isSome → qualName appName instName ∉ s.launchMap
  | .setupDisco _ => True
  | .haltActor r appName actorName =>
    qualName appName actorName ∈ s.launchMap → qualName appName actorName ∈ s.actors ∧ r = .done
  | .stopDevice _ appName instName => qualName appName instName ∉ s.launchMap

/-- An event that does. -/
def KeepsRecords (s : DeploymentManager) : Event → Prop
  | .call c => s.KeepsRecordsCall c
  | .handleProcmon r key _ =>
    key ≠ discoName → key ∈ s.launchMap → (key ∈ s.actors → r = .done) ∧ (key ∉ s.actors → key ∉ s.devices)
  | .ended _ => True

/-! ### A step -/

theorem Corresponds.length_eq (h : s.Corresponds) : s.appDbase.records.length = s.launchMap.items.length := by
  simpa [recordedEntries, launchedEntries] using List.Perm.length_eq h

/-- An entry less. -/
theorem length_items_del {key : Text} (h : key ∈ s.launchMap) :
    (s.launchMap.del key).items.length + 1 = s.launchMap.items.length := by
  obtain ⟨proc, hget⟩ := Dict.mem_iff_exists_get?.mp h
  rw [(Dict.items_perm_del hget).length_eq, List.length_cons]

/-- An entry goes and its record stays. -/
theorem Corresponds.corresponds_del (h : s.Corresponds) (key : Text) :
    Corresponds { s with launchMap := s.launchMap.del key } ↔ key ∉ s.launchMap := by
  constructor
  · intro hdel hkey
    have hlen := length_items_del hkey
    have hlen' : s.appDbase.records.length = (s.launchMap.del key).items.length := hdel.length_eq
    have := h.length_eq
    omega
  · intro hkey
    rw [Dict.del_of_notMem hkey]
    exact h

/-- A start adds a record, and an entry in the place of the one that had the key. -/
theorem corresponds_launch (act : ActorCommand) :
    (s.launch act).Corresponds ↔ Corresponds { s with launchMap := s.launchMap.del act.key } := by
  have hrecorded : Perm (s.launch act).recordedEntries (act.entry :: s.recordedEntries) :=
    (AppDbase.records_addAppActor act s.appDbase).map _
  have hlaunched : Perm (s.launch act).launchedEntries
      (act.entry :: (s.launchMap.del act.key).items.map fun i => (i.1, i.2.pid, i.2.args)) :=
    (Dict.items_set_perm ..).map _
  unfold Corresponds
  rw [hrecorded.congr_left, hlaunched.congr_right, List.perm_cons]
  rfl

theorem corresponds_launch_of_notMem (act : ActorCommand) (hkey : act.key ∉ s.launchMap) :
    (s.launch act).Corresponds ↔ s.Corresponds := by
  rw [corresponds_launch, Dict.del_of_notMem hkey]

/-- An entry goes with its record. -/
theorem Corresponds.filter {appName : AppName} {actorName : Text} {s' : DeploymentManager} (h : s.Corresponds)
    (hmap : s'.launchMap = s.launchMap.del (qualName appName actorName))
    (hrecords : s'.appDbase = s.appDbase.delAppActor appName actorName) : s'.Corresponds := by
  unfold Corresponds recordedEntries launchedEntries
  rw [hmap, hrecords]
  refine ((AppDbase.records_delAppActor ..).map _).trans ?_
  have hfilter := List.Perm.filter (fun e => e.1 ≠ qualName appName actorName) h
  unfold recordedEntries launchedEntries at hfilter
  rw [List.filter_map, List.filter_map] at hfilter
  refine hfilter.trans (.of_eq ?_)
  congr 1
  refine List.filter_congr fun i _ => ?_
  simp

theorem Tables.corresponds_stopActor (ht : Tables s) (h : s.Corresponds) (r : Stop) (appName : AppName)
    (actorName : Text) :
    (s.stopActor r appName actorName).1.Corresponds ↔
      (qualName appName actorName ∈ s.launchMap → qualName appName actorName ∈ s.actors ∧ r = .done) := by
  -- the record of what is not stopped to the end stays
  have hstays : ∀ {s' : DeploymentManager}, s'.launchMap = s.launchMap.del (qualName appName actorName) →
      s'.appDbase = s.appDbase → qualName appName actorName ∈ s.launchMap →
      ¬(qualName appName actorName ∈ s.actors ∧ r = .done) → (s'.Corresponds ↔
        (qualName appName actorName ∈ s.launchMap → qualName appName actorName ∈ s.actors ∧ r = .done)) := by
    intro s' hmap hdbase hrun hnot
    have hdel := h.corresponds_del (qualName appName actorName)
    unfold Corresponds recordedEntries launchedEntries at hdel ⊢
    rw [hmap, hdbase]
    exact hdel.trans (iff_of_false (not_not_intro hrun) fun himp => hnot (himp hrun))
  rcases ht.stopActor_cases r appName actorName with ⟨hno, heq⟩ | ⟨proc, hget, hactor, heq⟩ |
    ⟨proc, hget, -, rfl, heq⟩ | ⟨proc, hget, -, rfl, heq⟩ | ⟨proc, -, hactor, rfl, heq⟩
  all_goals rw [heq]
  · exact ⟨fun _ hrun => absurd hrun hno, fun _ => h⟩
  · exact hstays rfl rfl (Dict.mem_of_get? hget) fun hin => hactor hin.1
  · exact hstays rfl rfl (Dict.mem_of_get? hget) fun hin => Stop.noConfusion hin.2
  · exact hstays rfl rfl (Dict.mem_of_get? hget) fun hin => Stop.noConfusion hin.2
  · exact ⟨fun _ _ => ⟨hactor, rfl⟩, fun _ => h.filter rfl rfl⟩

/-- The record of a device that runs outlives it. -/
theorem Corresponds.stopDevice_iff (h : s.Corresponds) (r : Stop) (appName : AppName) (instName : Text) :
    (s.stopDevice r appName instName).1.Corresponds ↔ qualName appName instName ∉ s.launchMap := by
  rw [← h.corresponds_del (qualName appName instName)]
  unfold Corresponds recordedEntries launchedEntries
  rw [stopDevice_launchMap, stopDevice_appDbase]

theorem Corresponds.startDisco (h : s.Corresponds) (pid : Option ℕ) : (s.startDisco pid).1.Corresponds := by
  cases pid with
  | none => exact h
  | some pid => exact h

/-- A start after a stop, under a key that is free, leaves the records as right as they were. -/
theorem corresponds_andThen {o : Outcome} {f : DeploymentManager → Outcome}
    (hf : (f o.1).1.Corresponds ↔ o.1.Corresponds) : (andThen o f).1.Corresponds ↔ o.1.Corresponds := by
  cases h : o.2 with
  | false => rw [andThen_of_not_ok h]
  | true => rw [andThen_of_ok h, hf]

/-- A restart keeps the records right, but for a device that runs and for a stop that does not come to its end. -/
theorem Tables.corresponds_handleProcmon (ht : Tables s) (h : s.Corresponds) (r : Stop) (key : Text)
    (pid : Option ℕ) :
    (s.handleProcmon r key pid).1.Corresponds ↔
      (key ≠ discoName → key ∈ s.launchMap →
        (key ∈ s.actors → r = .done) ∧ (key ∉ s.actors → key ∉ s.devices)) := by
  rcases ht.handleProcmon_cases r key pid with ⟨hdisco, heq⟩ | ⟨a, hdisco, hactor, rfl, hrun, heq⟩ |
    ⟨d, hdisco, hactor, hdevice, rfl, heq⟩ | ⟨-, -, hrun, heq⟩ | ⟨-, hactor, hdevice, heq⟩ <;> rw [heq]
  · exact ⟨fun _ hne => absurd hdisco hne, fun _ => h.startDisco pid⟩
  · have hmem := Dict.mem_of_get? hactor
    have hfree := notMem_stopActor s r a.app a.actor
    refine (corresponds_andThen ?_).trans ((ht.corresponds_stopActor h r a.app a.actor).trans ?_)
    · cases pid with
      | none => exact Iff.rfl
      | some pid => exact corresponds_launch_of_notMem ⟨a.app, a.model, a.actor, a.args, pid, false⟩ hfree
    · simp [hmem, hdisco, hrun]
  · -- the restart is right if the stop was
    have hmem := Dict.mem_of_get? hdevice
    have hfree := notMem_stopDevice s r d.app d.inst
    refine (corresponds_andThen ?_).trans ((h.stopDevice_iff r d.app d.inst).trans ?_)
    · cases pid with
      | none => exact Iff.rfl
      | some pid => exact corresponds_launch_of_notMem ⟨d.app, d.model, d.inst, d.args, pid, true⟩ hfree
    · simp [hmem, hdisco, hactor]
  · exact ⟨fun _ _ hin => absurd hin hrun, fun _ => h⟩
  · exact ⟨fun _ _ _ => ⟨fun hin => absurd hin hactor, fun _ => hdevice⟩, fun _ => h⟩

/-- A call keeps the records right exactly if it changes them as it changes `launchMap`. -/
theorem Tables.corresponds_call (ht : Tables s) (h : s.Corresponds) (c : Call) :
    (s.call c).1.Corresponds ↔ s.KeepsRecordsCall c := by
  cases c with
  | startActor appName appModel actorName actorArgs pid =>
    cases pid with
    | none => exact ⟨fun _ hpid => absurd hpid Bool.false_ne_true, fun _ => h⟩
    | some pid =>
      have hlaunch := (corresponds_launch (s := s) ⟨appName, appModel, actorName, actorArgs, pid, false⟩).trans
        (h.corresponds_del _)
      exact hlaunch.trans ⟨fun hno _ => hno, fun hno => hno rfl⟩
  | startDevice appName appModel typeName instName actorArgs pid =>
    cases pid with
    | none => exact ⟨fun _ hpid => absurd hpid Bool.false_ne_true, fun _ => h⟩
    | some pid =>
      have hlaunch := (corresponds_launch (s := s) ⟨appName, appModel, instName, actorArgs, pid, true⟩).trans
        (h.corresponds_del _)
      exact hlaunch.trans ⟨fun hno _ => hno, fun hno => hno rfl⟩
  | setupDisco pid => exact ⟨fun _ => trivial, fun _ => setupDisco_rule h (h.startDisco pid)⟩
  | haltActor r appName actorName => exact ht.corresponds_stopActor h r appName actorName
  | stopDevice r appName instName => exact h.stopDevice_iff r appName instName

theorem Tables.corresponds_step (ht : Tables s) (h : s.Corresponds) (e : Event) :
    (DeploymentManager.step s e).Corresponds ↔ s.KeepsRecords e := by
  cases e with
  | call c => exact ht.corresponds_call h c
  | handleProcmon r key pid => exact ht.corresponds_handleProcmon h r key pid
  | ended proc => exact ⟨fun _ => trivial, fun _ => h⟩

/-! ### A run -/

/-- **Exactly the runs in which the records are right**, from a database that has none. -/
theorem corresponds_iff (appDbase : AppDbase) (hrecords : appDbase.records = []) (events : List Event) :
    Always step Corresponds (init appDbase) events ↔ AllSteps step KeepsRecords (init appDbase) events := by
  have hstart : (init appDbase).Corresponds := by
    unfold Corresponds recordedEntries launchedEntries init
    rw [hrecords]
    exact .refl _
  exact always_iff_allSteps (I := Tables) (fun s e ht _ => ht.step e) (fun s e ht h => ht.corresponds_step h e)
    (Tables.init appDbase) hstart events

/-- An actor that is started and halted. -/
theorem corresponds_start_stop :
    Always step Corresponds (init .init)
      [.call (.startActor ⟨['a'], by decide⟩ ['m'] ['x'] [] (some 7)),
        .call (.haltActor .done ⟨['a'], by decide⟩ ['x'])] :=
  (corresponds_iff .init rfl _).mpr <|
    allSteps_cons.mpr ⟨fun _ => Dict.not_mem_empty _,
      allSteps_cons.mpr ⟨fun _ => ⟨by decide +kernel, rfl⟩, allSteps_nil⟩⟩

/-- A device that is started and stopped, and one whose process is replaced. -/
theorem not_corresponds_device :
    (¬ Corresponds (run step (init .init)
        [.call (.startDevice ⟨['a'], by decide⟩ ['m'] ['t'] ['d'] [] (some 7)),
          .call (.stopDevice .done ⟨['a'], by decide⟩ ['d'])])) ∧
      ¬ Corresponds (run step (init .init)
        [.call (.startDevice ⟨['a'], by decide⟩ ['m'] ['t'] ['d'] [] (some 7)),
          .ended ⟨0, 7, ['a', '.', 'd'], ['m'], [], true⟩, .handleProcmon .done ['a', '.', 'd'] (some 8)]) := by
  decide +kernel

end DeploymentManager

end Riaps.Deployment
