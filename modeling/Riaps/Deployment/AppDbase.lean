import Riaps.Foundation.Dict
import Riaps.Foundation.PyText
import Mathlib.Data.List.TakeWhile

/-!
# The application database

What the deployment manager keeps on disk: the names of the applications, and
for each one a record of every actor that was started. It is all that a manager
has that is started after a crash.

A record is kept under the application that it names. An actor and a device are
found by the qualified name of the record, that of the application and its own
with a dot between them. The name of an application is an identifier, so the
first dot ends it, and a qualified name is read back (`splitName_qualName`).
-/

namespace Riaps.Deployment

open Riaps.Foundation

/-! ### Names -/

/-- The name of an application: an identifier, with no dot in it. -/
structure AppName where
  name : Text
  dot_name : '.' ∉ name
  deriving DecidableEq

/-- `qualName`: the key of an actor, or of a device, in the maps of the manager. -/
def qualName (appName : AppName) (actorName : Text) : Text := appName.name ++ '.' :: actorName

/-- `qualName.split('.',1)`: `none` if there is no dot. -/
def splitName (key : Text) : Option (AppName × Text) :=
  if '.' ∈ key then
    some (⟨key.takeWhile (· ≠ '.'), fun h => by simpa using List.mem_takeWhile_imp h⟩, (key.dropWhile (· ≠ '.')).tail)
  else none

theorem splitName_qualName (appName : AppName) (actorName : Text) :
    splitName (qualName appName actorName) = some (appName, actorName) := by
  have hall : ∀ c ∈ appName.name, (decide (c ≠ '.')) = true :=
    fun c hc => decide_eq_true fun he => appName.dot_name (he ▸ hc)
  have hdot : '.' ∈ qualName appName actorName := by simp [qualName]
  rw [splitName, if_pos hdot]
  obtain ⟨name, hname⟩ := appName
  simp only [qualName, Option.some.injEq, Prod.mk.injEq, AppName.mk.injEq]
  rw [List.takeWhile_append_of_pos hall, List.dropWhile_append_of_pos hall]
  simp

theorem eq_of_splitName {key rest : Text} {appName : AppName} (h : splitName key = some (appName, rest)) :
    key = qualName appName rest := by
  unfold splitName at h
  split_ifs at h with hdot
  obtain ⟨rfl, rfl⟩ := Prod.mk.inj (Option.some.inj h)
  have hmem : key.dropWhile (· ≠ '.') ≠ [] := by
    rw [ne_eq, List.dropWhile_eq_nil_iff]
    exact fun hall => absurd (hall _ hdot) (by simp)
  have hhead : (key.dropWhile (· ≠ '.')).head hmem = '.' := by
    simpa using List.head_dropWhile_not (fun c => decide (c ≠ '.')) hmem
  have htail : key.dropWhile (· ≠ '.') = '.' :: (key.dropWhile (· ≠ '.')).tail := by
    conv_lhs => rw [← List.cons_head_tail hmem, hhead]
  conv_lhs => rw [← List.takeWhile_append_dropWhile (p := fun c => decide (c ≠ '.')) (l := key), htail]
  rfl

theorem qualName_inj {appName appName' : AppName} {actorName actorName' : Text}
    (h : qualName appName actorName = qualName appName' actorName') : appName = appName' ∧ actorName = actorName' := by
  have hsplit := splitName_qualName appName actorName
  rw [h, splitName_qualName] at hsplit
  obtain ⟨happ, hactor⟩ := Prod.mk.inj (Option.some.inj hsplit)
  exact ⟨happ.symm, hactor.symm⟩

/-! ### Records -/

/-- `DeploActorCommand`. -/
structure ActorCommand where
  app : AppName
  model : Text
  actor : Text
  args : List Text
  pid : ℕ
  isdevice : Bool
  deriving DecidableEq

/-- The qualified name of a record. -/
def ActorCommand.key (r : ActorCommand) : Text := qualName r.app r.actor

/-- The state of an `AppDbase`. -/
structure AppDbase where
  /-- There was no database, and a new one was made. -/
  create : Bool
  /-- The list of applications. -/
  apps : List AppName
  nodup_apps : apps.Nodup
  /-- The records of each application. -/
  actors : Dict AppName (List ActorCommand)
  app_eq : ∀ appName acts, actors.get? appName = some acts → ∀ r ∈ acts, r.app = appName

namespace AppDbase

instance : DecidableEq AppDbase := fun d e =>
  decidable_of_iff (d.create = e.create ∧ d.apps = e.apps ∧ d.actors = e.actors)
    ⟨fun h => by cases d; cases e; simp_all, fun h => by simp [h]⟩

/-- A new database. -/
def init : AppDbase := ⟨true, [], List.nodup_nil, .empty, by simp⟩

/-- `__init__`, when there is a database. -/
def reopen (d : AppDbase) : AppDbase := { d with create := false }

/-- `getApps`. -/
def getApps (d : AppDbase) : List AppName := if d.create then [] else d.apps

/-- `addApp`. -/
def addApp (appName : AppName) (d : AppDbase) : AppDbase where
  create := d.create
  apps := if appName ∈ d.apps then d.apps else d.apps ++ [appName]
  nodup_apps := by
    split_ifs with h
    · exact d.nodup_apps
    · exact d.nodup_apps.append (List.nodup_singleton _) (by simpa using h)
  actors := d.actors
  app_eq := d.app_eq

/-- `getAppActors`. -/
def getAppActors (appName : AppName) (d : AppDbase) : List ActorCommand := (d.actors.get? appName).getD []

theorem app_of_mem_getAppActors {appName : AppName} {d : AppDbase} {r : ActorCommand} (h : r ∈ d.getAppActors appName) :
    r.app = appName := by
  unfold getAppActors at h
  cases hget : d.actors.get? appName with
  | none => simp [hget] at h
  | some acts => exact d.app_eq appName acts hget r (by simpa [hget] using h)

/-- `addAppActor`, which is called with the application of the record. -/
def addAppActor (actorRecord : ActorCommand) (d : AppDbase) : AppDbase where
  create := d.create
  apps := d.apps
  nodup_apps := d.nodup_apps
  actors := d.actors.set actorRecord.app (d.getAppActors actorRecord.app ++ [actorRecord])
  app_eq := by
    intro appName acts h r hr
    rw [Dict.get?_set] at h
    split_ifs at h with happ
    · obtain rfl := Option.some.inj h
      rcases List.mem_append.mp hr with hr | hr
      · rw [happ]
        exact app_of_mem_getAppActors hr
      · rw [List.mem_singleton.mp hr, happ]
    · exact d.app_eq appName acts h r hr

/-- `getAppActor`. -/
def getAppActor (appName : AppName) (actorName : Text) (d : AppDbase) : Option ActorCommand :=
  (d.getAppActors appName).find? fun a => a.actor = actorName

/-- `delAppActor`. -/
def delAppActor (appName : AppName) (actorName : Text) (d : AppDbase) : AppDbase where
  create := d.create
  apps := d.apps
  nodup_apps := d.nodup_apps
  actors := d.actors.set appName ((d.getAppActors appName).filter fun a => a.actor ≠ actorName)
  app_eq := by
    intro appName' acts h r hr
    rw [Dict.get?_set] at h
    split_ifs at h with happ
    · obtain rfl := Option.some.inj h
      rw [happ]
      exact app_of_mem_getAppActors (List.mem_of_mem_filter hr)
    · exact d.app_eq appName' acts h r hr

/-- `closeDbase`. -/
def closeDbase (d : AppDbase) : AppDbase where
  create := d.create
  apps := []
  nodup_apps := List.nodup_nil
  actors := d.actors.delAll d.getApps
  app_eq := by
    intro appName acts h
    rw [Dict.get?_delAll] at h
    split_ifs at h
    exact d.app_eq appName acts h

/-- The records of all applications. -/
def records (d : AppDbase) : List ActorCommand := d.actors.items.flatMap Prod.snd

/-- The records of the applications in the list. -/
def listed (d : AppDbase) : List ActorCommand := d.apps.flatMap fun appName => d.getAppActors appName

/-! ### What is there -/

theorem mem_records {d : AppDbase} {r : ActorCommand} : r ∈ d.records ↔ r ∈ d.getAppActors r.app := by
  unfold records getAppActors
  rw [List.mem_flatMap]
  constructor
  · rintro ⟨⟨appName, acts⟩, hitem, hr⟩
    have hget := Dict.get?_eq_some_iff.mpr hitem
    obtain rfl := d.app_eq appName acts hget r hr
    rw [hget]
    exact hr
  · intro h
    cases hget : d.actors.get? r.app with
    | none => simp [hget] at h
    | some acts => exact ⟨(r.app, acts), Dict.get?_eq_some_iff.mp hget, by simpa [hget] using h⟩

theorem mem_listed {d : AppDbase} {r : ActorCommand} : r ∈ d.listed ↔ r.app ∈ d.apps ∧ r ∈ d.records := by
  rw [listed, List.mem_flatMap, mem_records]
  constructor
  · rintro ⟨appName, happ, hr⟩
    obtain rfl := app_of_mem_getAppActors hr
    exact ⟨happ, hr⟩
  · rintro ⟨happ, hr⟩
    exact ⟨r.app, happ, hr⟩

theorem getAppActor_isSome {appName : AppName} {actorName : Text} {d : AppDbase} :
    (d.getAppActor appName actorName).isSome ↔ qualName appName actorName ∈ d.records.map ActorCommand.key := by
  unfold getAppActor
  rw [List.find?_isSome, List.mem_map]
  constructor
  · rintro ⟨r, hr, hname⟩
    have happ := app_of_mem_getAppActors hr
    exact ⟨r, mem_records.mpr (happ ▸ hr), by rw [ActorCommand.key, happ, of_decide_eq_true hname]⟩
  · rintro ⟨r, hr, hkey⟩
    obtain ⟨rfl, rfl⟩ := qualName_inj hkey
    exact ⟨r, mem_records.mp hr, decide_eq_true rfl⟩

/-- The records of an application, and the others. -/
theorem records_perm (d : AppDbase) (appName : AppName) :
    d.records.Perm (d.getAppActors appName ++ (d.actors.del appName).items.flatMap Prod.snd) := by
  unfold records getAppActors
  cases hget : d.actors.get? appName with
  | none =>
    rw [Dict.del_of_notMem (Dict.get?_eq_none_iff.mp hget)]
    exact .refl _
  | some acts =>
    refine ((Dict.items_perm_del hget).flatMap_right Prod.snd).trans ?_
    exact .of_eq (by simp)

/-- A record more, -/
theorem records_addAppActor (actorRecord : ActorCommand) (d : AppDbase) :
    (d.addAppActor actorRecord).records.Perm (actorRecord :: d.records) := by
  have hset : (d.addAppActor actorRecord).records.Perm
      ((d.getAppActors actorRecord.app ++ [actorRecord]) ++ (d.actors.del actorRecord.app).items.flatMap Prod.snd) := by
    refine ((Dict.items_set_perm ..).flatMap_right Prod.snd).trans ?_
    exact .of_eq (by simp)
  refine hset.trans ?_
  rw [List.append_assoc]
  exact List.perm_middle.trans ((d.records_perm actorRecord.app).symm.cons _)

/-- and all of a name less. -/
theorem records_delAppActor (appName : AppName) (actorName : Text) (d : AppDbase) :
    (d.delAppActor appName actorName).records.Perm (d.records.filter fun r => r.key ≠ qualName appName actorName) := by
  have hset : (d.delAppActor appName actorName).records.Perm
      ((d.getAppActors appName).filter (fun a => a.actor ≠ actorName) ++
        (d.actors.del appName).items.flatMap Prod.snd) := by
    refine ((Dict.items_set_perm ..).flatMap_right Prod.snd).trans ?_
    exact .of_eq (by simp)
  refine hset.trans (.trans (.of_eq ?_) ((d.records_perm appName).filter _).symm)
  rw [List.filter_append]
  congr 1
  · refine List.filter_congr fun r hr => ?_
    have hiff : r.key = qualName appName actorName ↔ r.actor = actorName := by
      rw [ActorCommand.key, app_of_mem_getAppActors hr]
      exact ⟨fun h => (qualName_inj h).2, fun h => by rw [h]⟩
    simp only [ne_eq, hiff]
  · refine (List.filter_eq_self.mpr fun r hr => ?_).symm
    obtain ⟨⟨appName', acts⟩, hitem, hr⟩ := List.mem_flatMap.mp hr
    have hget := Dict.get?_eq_some_iff.mpr hitem
    rw [Dict.get?_del] at hget
    split_ifs at hget with hne
    have happ := d.app_eq appName' acts hget r hr
    refine decide_eq_true fun hkey => hne ?_
    rw [← happ]
    exact (qualName_inj hkey).1

end AppDbase

end Riaps.Deployment
