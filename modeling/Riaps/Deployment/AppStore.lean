import Mathlib.Data.Char
import Mathlib.Data.List.Lex
import Mathlib.Logic.Function.Basic
import Riaps.Foundation.Lmdb
import Riaps.Foundation.Runs
import Riaps.Deployment.AppDbase

/-!
# The application database on disk

The names of the applications, the records of their actors and what is known of the discovery
service are in one map on disk, under keys that are names: the list of applications is under a
key of its own and the records of an application are under its name. The store is any `Lmdb`.

A database that was made anew is not read: it has no applications until it is opened again. And a
record is kept under a name whether or not there is an application of that name. But for these two
it is an ordered list of applications, each with its records: `store_agrees_iff`.
-/

namespace Riaps.Deployment

open Riaps.Foundation

namespace AppStore

/-- `RIAPSAPPS`. -/
def riapsApps : Text := ['R', 'I', 'A', 'P', 'S', 'A', 'P', 'P', 'S']

/-- `RIAPSDISCO`. -/
def riapsDisco : Text := ['R', 'I', 'A', 'P', 'S', 'D', 'I', 'S', 'C', 'O']

/-- `RIAPSDISCOCMD`. -/
def riapsDiscoCmd : Text := ['R', 'I', 'A', 'P', 'S', 'D', 'I', 'S', 'C', 'O', 'C', 'M', 'D']

/-- The keys that are no names of applications. -/
def reserved : List Text := [riapsApps, riapsDisco, riapsDiscoCmd]

/-- A key that is not one of these. -/
structure AppKey where
  name : Text
  not_reserved : name ∉ reserved
  deriving DecidableEq

/-- An object that is stored. -/
inductive Object where
  /-- The list of applications. -/
  | names (apps : List Text)
  /-- The records of an application. -/
  | records (acts : List ActorCommand)
  /-- Something else, of the discovery service. -/
  | disco
  deriving DecidableEq

/-- The exceptions that are met. -/
inductive Exc where
  /-- That of the store. -/
  | lmdb (e : Lmdb.Error)
  /-- An object is not of the kind that is expected. -/
  | kind
  deriving DecidableEq

/-- The stores. -/
abbrev Stores := Lmdb Text Object

/-- The state of an `AppDbase`: what is stored, and whether the database was made anew. -/
structure Store (L : Stores) where
  create : Bool
  map : L.Db

variable {L : Stores}

/-- `getKeyValue`; `none` is that there is no such key. -/
def getKeyValue (key : Text) (map : L.Db) : Except Exc (Option Object) :=
  match (Lmdb.transaction false (L.read key) map).1 with
  | .ok value => .ok value
  | .error e => .error (.lmdb e)

/-- `putKeyValue`. -/
def putKeyValue (key : Text) (value : Object) (map : L.Db) : L.Db := (Lmdb.transaction true (L.put key value) map).2

/-- `replaceKeyValue`. -/
def replaceKeyValue (key : Text) (value : Object) (map : L.Db) : L.Db :=
  (Lmdb.transaction true (L.replace key value) map).2

/-- `delKey`. -/
def delKey (key : Text) (map : L.Db) : L.Db := (Lmdb.transaction true (L.delete key) map).2

theorem getKeyValue_eq (key : Text) (map : L.Db) : getKeyValue key map = .ok (L.get map key) := by
  rw [getKeyValue, Lmdb.transaction_read]

theorem get_putKeyValue (key : Text) (value : Object) (map : L.Db) :
    L.get (putKeyValue key value map) = Function.update (L.get map) key (some value) := L.get_put key value map

theorem get_replaceKeyValue (key : Text) (value : Object) (map : L.Db) :
    L.get (replaceKeyValue key value map) = Function.update (L.get map) key (some value) := L.get_replace key value map

theorem get_delKey (key : Text) (map : L.Db) : L.get (delKey key map) = Function.update (L.get map) key none :=
  L.get_delete key map

/-- The list of applications, if there is one. -/
def getNames (map : L.Db) : Except Exc (Option (List Text)) := do
  match ← getKeyValue riapsApps map with
  | some (.names apps) => .ok (some apps)
  | none => .ok none
  | some _ => .error .kind

/-- The records under a name, if there are any. -/
def getRecords (appName : Text) (map : L.Db) : Except Exc (Option (List ActorCommand)) := do
  match ← getKeyValue appName map with
  | some (.records acts) => .ok (some acts)
  | none => .ok none
  | some _ => .error .kind

/-- `getApps`. -/
def getApps (s : Store L) : Except Exc (List Text) :=
  if s.create then .ok [] else (getNames s.map).map fun apps => apps.getD []

/-- `addApp`. -/
def addApp (appName : Text) (s : Store L) : Store L :=
  match getNames s.map with
  | .ok none => { s with map := putKeyValue riapsApps (.names [appName]) s.map }
  | .ok (some apps) =>
    { s with
      map := replaceKeyValue riapsApps (.names (if appName ∈ apps then apps else apps ++ [appName])) s.map }
  | .error _ => s

/-- `delApp`. -/
def delApp (appName : Text) (s : Store L) : Store L :=
  match getNames s.map with
  | .ok apps =>
    if appName ∈ apps.getD [] then
      { s with map := replaceKeyValue riapsApps (.names ((apps.getD []).erase appName)) (delKey appName s.map) }
    else s
  | .error _ => s

/-- `addAppActor`. -/
def addAppActor (appName : Text) (actorRecord : ActorCommand) (s : Store L) : Store L :=
  match getRecords appName s.map with
  | .ok acts => { s with map := replaceKeyValue appName (.records (acts.getD [] ++ [actorRecord])) s.map }
  | .error _ => s

/-- `getAppActors`; `none` is the `False` that is returned after an exception. -/
def getAppActors (appName : Text) (s : Store L) : Option (List ActorCommand) :=
  match getRecords appName s.map with
  | .ok acts => some (acts.getD [])
  | .error _ => none

/-- `getAppActor`: the first record of the name. -/
def getAppActor (appName actorName : Text) (s : Store L) : Option ActorCommand :=
  match getRecords appName s.map with
  | .ok acts => ((acts.getD []).filter fun a => a.actor = actorName).head?
  | .error _ => none

/-- `delAppActor`. -/
def delAppActor (appName actorName : Text) (s : Store L) : Store L :=
  match getRecords appName s.map with
  | .ok acts =>
    { s with map := replaceKeyValue appName (.records ((acts.getD []).filter fun a => a.actor ≠ actorName)) s.map }
  | .error _ => s

/-- `closeDbase`; `getApps` may raise before anything is deleted. -/
def closeDbase (s : Store L) : Store L :=
  match getApps s with
  | .ok apps =>
    { s with map := delKey riapsApps (delKey riapsDisco (apps.foldl (fun map appName => delKey appName map) s.map)) }
  | .error _ => s

/-- `__init__`, when there is no database. -/
def create (L : Stores) : Store L := ⟨true, L.empty⟩

/-- `__init__`, when there is one. -/
def reopen (s : Store L) : Store L := { s with create := false }

/-! ### What is read -/

/-- The map has a list of applications, and records under names: where it has nothing, they are empty. -/
structure Reads (map : L.Db) (apps : List Text) (recs : AppKey → List ActorCommand) : Prop where
  names : ∃ l, getNames map = .ok l ∧ l.getD [] = apps
  records : ∀ a : AppKey, ∃ l, getRecords a.name map = .ok l ∧ l.getD [] = recs a

section Reads

variable {map : L.Db} {apps : List Text} {recs : AppKey → List ActorCommand}

theorem getNames_eq (map : L.Db) : getNames map =
    match L.get map riapsApps with
    | some (.names apps) => .ok (some apps)
    | none => .ok none
    | some _ => .error .kind := by
  rw [getNames, getKeyValue_eq]
  rfl

theorem getRecords_eq (appName : Text) (map : L.Db) : getRecords appName map =
    match L.get map appName with
    | some (.records acts) => .ok (some acts)
    | none => .ok none
    | some _ => .error .kind := by
  rw [getRecords, getKeyValue_eq]
  rfl

theorem AppKey.ne_riapsApps (a : AppKey) : a.name ≠ riapsApps := fun h => a.not_reserved (by simp [h, reserved])

theorem AppKey.ne_riapsDisco (a : AppKey) : a.name ≠ riapsDisco := fun h => a.not_reserved (by simp [h, reserved])

theorem AppKey.name_inj {a b : AppKey} : a.name = b.name ↔ a = b := by
  cases a; cases b; simp

/-- What is read is read again from a map that has the same under the keys. -/
theorem getNames_congr {map' : L.Db} (h : L.get map' riapsApps = L.get map riapsApps) :
    getNames map' = getNames map := by
  rw [getNames_eq, getNames_eq, h]

theorem getRecords_congr {map' : L.Db} {appName : Text} (h : L.get map' appName = L.get map appName) :
    getRecords appName map' = getRecords appName map := by
  rw [getRecords_eq, getRecords_eq, h]

/-- Another list of applications. -/
theorem Reads.setNames (h : Reads map apps recs) {map' : L.Db} {apps' : List Text}
    (hget : L.get map' = Function.update (L.get map) riapsApps (some (.names apps'))) : Reads map' apps' recs where
  names := ⟨some apps', by rw [getNames_eq, hget, Function.update_self], rfl⟩
  records a := by
    rw [getRecords_congr (hget ▸ Function.update_of_ne a.ne_riapsApps _ _)]
    exact h.records a

/-- Other records under a name, or none. -/
theorem Reads.setRecords (h : Reads map apps recs) {map' : L.Db} {a : AppKey} (acts : Option (List ActorCommand))
    (hget : L.get map' = Function.update (L.get map) a.name (acts.map .records)) :
    Reads map' apps (Function.update recs a (acts.getD [])) where
  names := by
    rw [getNames_congr (hget ▸ Function.update_of_ne a.ne_riapsApps.symm _ _)]
    exact h.names
  records b := by
    by_cases hb : b = a
    · subst hb
      rw [getRecords_eq, hget, Function.update_self, Function.update_self]
      exact ⟨acts, by cases acts <;> rfl, rfl⟩
    · rw [getRecords_congr (hget ▸ Function.update_of_ne (mt AppKey.name_inj.mp hb) _ _), Function.update_of_ne hb]
      exact h.records b

/-- No records under a name any more. -/
theorem Reads.delRecords (h : Reads map apps recs) (a : AppKey) :
    Reads (delKey a.name map) apps (Function.update recs a []) := h.setRecords none (get_delKey a.name map)

/-- No list of applications any more. -/
theorem Reads.delNames (h : Reads map apps recs) : Reads (delKey riapsApps (delKey riapsDisco map)) [] recs where
  names := ⟨none, by rw [getNames_eq, get_delKey, Function.update_self], rfl⟩
  records a := by
    have hget : L.get (delKey riapsApps (delKey riapsDisco map)) a.name = L.get map a.name := by
      rw [get_delKey, get_delKey, Function.update_of_ne a.ne_riapsApps, Function.update_of_ne a.ne_riapsDisco]
    rw [getRecords_congr hget]
    exact h.records a

end Reads

/-! ### What each operation does -/

section Operations

variable {s : Store L} {apps : List Text} {recs : AppKey → List ActorCommand}

theorem Reads.getApps (h : Reads s.map apps recs) : getApps s = .ok (if s.create then [] else apps) := by
  obtain ⟨l, hl, rfl⟩ := h.names
  rw [AppStore.getApps, hl]
  split_ifs <;> rfl

theorem Reads.getAppActors (h : Reads s.map apps recs) (a : AppKey) : getAppActors a.name s = some (recs a) := by
  obtain ⟨l, hl, hrecs⟩ := h.records a
  rw [AppStore.getAppActors, hl, ← hrecs]

theorem Reads.getAppActor (h : Reads s.map apps recs) (a : AppKey) (actorName : Text) :
    getAppActor a.name actorName s = ((recs a).filter fun r => r.actor = actorName).head? := by
  obtain ⟨l, hl, hrecs⟩ := h.records a
  rw [AppStore.getAppActor, hl, ← hrecs]

theorem Reads.addApp (h : Reads s.map apps recs) (appName : Text) :
    (addApp appName s).create = s.create ∧
      Reads (addApp appName s).map (if appName ∈ apps then apps else apps ++ [appName]) recs := by
  obtain ⟨l, hl, rfl⟩ := h.names
  rw [AppStore.addApp, hl]
  cases l with
  | none => exact ⟨rfl, h.setNames (get_putKeyValue ..)⟩
  | some apps => exact ⟨rfl, h.setNames (get_replaceKeyValue ..)⟩

theorem Reads.delApp (h : Reads s.map apps recs) (a : AppKey) :
    (delApp a.name s).create = s.create ∧
      Reads (delApp a.name s).map (apps.erase a.name) (if a.name ∈ apps then Function.update recs a [] else recs) := by
  obtain ⟨l, hl, rfl⟩ := h.names
  rw [AppStore.delApp, hl]
  dsimp only
  split_ifs with hmem
  · exact ⟨rfl, (h.delRecords a).setNames (get_replaceKeyValue ..)⟩
  · rw [List.erase_of_not_mem hmem]
    exact ⟨rfl, h⟩

theorem Reads.addAppActor (h : Reads s.map apps recs) (a : AppKey) (actorRecord : ActorCommand) :
    (addAppActor a.name actorRecord s).create = s.create ∧
      Reads (addAppActor a.name actorRecord s).map apps (Function.update recs a (recs a ++ [actorRecord])) := by
  obtain ⟨l, hl, hrecs⟩ := h.records a
  rw [AppStore.addAppActor, hl, ← hrecs]
  exact ⟨rfl, h.setRecords (some _) (get_replaceKeyValue ..)⟩

theorem Reads.delAppActor (h : Reads s.map apps recs) (a : AppKey) (actorName : Text) :
    (delAppActor a.name actorName s).create = s.create ∧
      Reads (delAppActor a.name actorName s).map apps
        (Function.update recs a ((recs a).filter fun r => r.actor ≠ actorName)) := by
  obtain ⟨l, hl, hrecs⟩ := h.records a
  rw [AppStore.delAppActor, hl, ← hrecs]
  exact ⟨rfl, h.setRecords (some _) (get_replaceKeyValue ..)⟩

/-- Names that are deleted one after another. -/
theorem Reads.delAll {map : L.Db} (h : Reads map apps recs) {names : List Text}
    (hnames : ∀ name ∈ names, name ∉ reserved) :
    Reads (names.foldl (fun map appName => delKey appName map) map) apps
      fun a => if a.name ∈ names then [] else recs a := by
  induction names generalizing map recs with
  | nil => simpa using h
  | cons name names ih =>
    obtain ⟨hname, hnames⟩ := List.forall_mem_cons.mp hnames
    have hrec := ih (h.delRecords ⟨name, hname⟩) hnames
    refine ⟨hrec.names, fun a => ?_⟩
    obtain ⟨l, hl, ha⟩ := hrec.records a
    refine ⟨l, hl, ha.trans ?_⟩
    rw [Function.update_apply]
    by_cases hk : a = ⟨name, hname⟩
    · simp [hk]
    · simp [hk, mt AppKey.name_inj.mp hk]

theorem Reads.closeDbase (h : Reads s.map apps recs) (happs : ∀ appName ∈ apps, appName ∉ reserved) :
    (closeDbase s).create = s.create ∧
      Reads (closeDbase s).map [] fun a => if s.create = false ∧ a.name ∈ apps then [] else recs a := by
  rw [AppStore.closeDbase, h.getApps]
  cases s.create with
  | true => exact ⟨rfl, by simpa using h.delNames⟩
  | false => exact ⟨rfl, by simpa using (h.delAll happs).delNames⟩

end Operations

/-! ### A list of applications with records -/

/-- The operations. A database that is closed is opened again, and it may be opened again at any time. -/
inductive Op where
  | addApp (app : AppKey)
  | delApp (app : AppKey)
  | addAppActor (app : AppKey) (actorRecord : ActorCommand)
  | delAppActor (app : AppKey) (actorName : Text)
  | closeDbase
  | reopen
  deriving DecidableEq

/-- What is stored after one of them. -/
def step (s : Store L) : Op → Store L
  | .addApp app => addApp app.name s
  | .delApp app => delApp app.name s
  | .addAppActor app actorRecord => addAppActor app.name actorRecord s
  | .delAppActor app actorName => delAppActor app.name actorName s
  | .closeDbase => reopen (closeDbase s)
  | .reopen => reopen s

/-- What an ordered list of distinct applications, each with its records, would hold. -/
def stepApps (m : Dict AppKey (List ActorCommand)) : Op → Dict AppKey (List ActorCommand)
  | .addApp app => if app ∈ m then m else m.set app []
  | .delApp app => m.del app
  | .addAppActor app actorRecord =>
    match m.get? app with
    | some acts => m.set app (acts ++ [actorRecord])
    | none => m
  | .delAppActor app actorName =>
    match m.get? app with
    | some acts => m.set app (acts.filter fun a => a.actor ≠ actorName)
    | none => m
  | .closeDbase => .empty
  | .reopen => m

/-- The two, side by side. -/
def stepBoth (t : Store L × Dict AppKey (List ActorCommand)) (op : Op) : Store L × Dict AppKey (List ActorCommand) :=
  (step t.1 op, stepApps t.2 op)

/-- The records of an application, none if it is not in the list. -/
def recordsOf (m : Dict AppKey (List ActorCommand)) (app : AppKey) : List ActorCommand := (m.get? app).getD []

/-- What is read is what the list holds. -/
structure Agrees (t : Store L × Dict AppKey (List ActorCommand)) : Prop where
  getApps : getApps t.1 = .ok (t.2.keys.map AppKey.name)
  getAppActors : ∀ app, getAppActors app.name t.1 = some (recordsOf t.2 app)
  getAppActor : ∀ app actorName,
    getAppActor app.name actorName t.1 = ((recordsOf t.2 app).filter fun r => r.actor = actorName).head?

/-- What is stored is the list, and it is empty if the database was made anew. -/
structure Holds (t : Store L × Dict AppKey (List ActorCommand)) : Prop where
  reads : Reads t.1.map (t.2.keys.map AppKey.name) (recordsOf t.2)
  created : t.1.create = true → t.2 = .empty

theorem holds_create : Holds (create L, .empty) where
  reads := ⟨⟨none, by rw [getNames_eq, create, L.get_empty], rfl⟩,
    fun a => ⟨none, by rw [getRecords_eq, create, L.get_empty], rfl⟩⟩
  created _ := rfl

theorem Holds.agrees {t : Store L × Dict AppKey (List ActorCommand)} (h : Holds t) : Agrees t where
  getApps := by
    rw [h.reads.getApps]
    split_ifs with hcreate
    · rw [h.created hcreate]
      rfl
    · rfl
  getAppActors := h.reads.getAppActors
  getAppActor := h.reads.getAppActor

/-- No application is added to a database that was made anew, until it is opened again, and no record is
added for an application that is not in the list. -/
def Regular (t : Store L × Dict AppKey (List ActorCommand)) : Op → Prop
  | .addApp _ => t.1.create = false
  | .addAppActor app _ => app ∈ t.2
  | .delApp _ | .delAppActor .. | .closeDbase | .reopen => True

theorem recordsOf_set (m : Dict AppKey (List ActorCommand)) (app : AppKey) (acts : List ActorCommand) :
    recordsOf (m.set app acts) = Function.update (recordsOf m) app acts := by
  funext a
  rw [recordsOf, Dict.get?_set, Function.update_apply]
  split_ifs <;> rfl

theorem recordsOf_del (m : Dict AppKey (List ActorCommand)) (app : AppKey) :
    recordsOf (m.del app) = Function.update (recordsOf m) app [] := by
  funext a
  rw [recordsOf, Dict.get?_del, Function.update_apply]
  split_ifs <;> rfl

theorem recordsOf_of_notMem {m : Dict AppKey (List ActorCommand)} {app : AppKey} (h : app ∉ m) :
    recordsOf m app = [] := by
  rw [recordsOf, Dict.get?_eq_none_iff.mpr h, Option.getD_none]

theorem mem_map_name {m : Dict AppKey (List ActorCommand)} {app : AppKey} :
    app.name ∈ m.keys.map AppKey.name ↔ app ∈ m := by
  rw [List.mem_map]
  exact ⟨fun ⟨a, ha, he⟩ => AppKey.name_inj.mp he ▸ ha, fun ha => ⟨app, ha, rfl⟩⟩

theorem name_injective : Function.Injective AppKey.name := fun _ _ => AppKey.name_inj.mp

theorem keys_del (m : Dict AppKey (List ActorCommand)) (app : AppKey) :
    (m.del app).keys.map AppKey.name = (m.keys.map AppKey.name).erase app.name := by
  have hnodup : m.keys.Nodup := m.nodup
  rw [← List.map_erase name_injective, hnodup.erase_eq_filter]
  congr 1
  change (m.items.filter fun i => i.1 ∉ [app]).map Prod.fst = (m.items.map Prod.fst).filter (· != app)
  rw [List.filter_map]
  congr 1
  refine List.filter_congr fun i _ => ?_
  simp [bne, beq_eq_decide]

/-- Records that are written for an application of the list. -/
theorem Holds.setRecords {s s' : Store L} {m : Dict AppKey (List ActorCommand)} (h : Holds (s, m)) {app : AppKey}
    {acts acts' : List ActorCommand} (hget : m.get? app = some acts) (hcreate : s'.create = s.create)
    (hreads : Reads s'.map (m.keys.map AppKey.name) (Function.update (recordsOf m) app acts')) :
    Holds (s', m.set app acts') where
  reads := by
    rw [recordsOf_set, Dict.keys_set, if_pos (Dict.mem_of_get? hget)]
    exact hreads
  created hc := by
    have hm : m = .empty := h.created (hcreate ▸ hc)
    simp [hm] at hget

theorem recordsOf_of_get? {m : Dict AppKey (List ActorCommand)} {app : AppKey} {acts : List ActorCommand}
    (h : m.get? app = some acts) : recordsOf m app = acts := by
  rw [recordsOf, h, Option.getD_some]

section Step

variable {s : Store L} {m : Dict AppKey (List ActorCommand)} {app : AppKey}

theorem Holds.closeDbase (h : Holds (s, m)) : Holds (stepBoth (s, m) .closeDbase) := by
  refine ⟨?_, fun _ => rfl⟩
  have hnames : ∀ name ∈ m.keys.map AppKey.name, name ∉ reserved := by
    rw [List.forall_mem_map]
    exact fun a _ => a.not_reserved
  obtain ⟨-, hclose⟩ := h.reads.closeDbase hnames
  simp only [mem_map_name] at hclose
  have hrecs : (fun a => if s.create = false ∧ a ∈ m then [] else recordsOf m a) = fun _ => [] := by
    funext a
    by_cases ha : a ∈ m
    · cases hc : s.create with
      | false => rw [if_pos ⟨rfl, ha⟩]
      | true =>
        have hm : m = .empty := h.created hc
        simp [hm] at ha
    · rw [recordsOf_of_notMem ha, ite_self]
  change Reads (AppStore.closeDbase s).map [] fun _ => []
  rwa [← hrecs]

theorem Holds.addApp (h : Holds (s, m)) (hs : s.create = false) : Holds (stepBoth (s, m) (.addApp app)) := by
  obtain ⟨hcreate, hreads⟩ := h.reads.addApp app.name
  refine ⟨?_, fun hc => absurd (hcreate ▸ hc) (by simp [hs])⟩
  change Reads (AppStore.addApp app.name s).map ((if app ∈ m then m else m.set app []).keys.map AppKey.name)
    (recordsOf (if app ∈ m then m else m.set app []))
  simp only [mem_map_name] at hreads
  by_cases happ : app ∈ m
  · rw [if_pos happ]
    rwa [if_pos happ] at hreads
  · rw [if_neg happ, Dict.keys_set, if_neg happ, List.map_append, recordsOf_set,
      Function.update_eq_self_iff.mpr (recordsOf_of_notMem happ).symm]
    rwa [if_neg happ] at hreads

theorem Holds.delApp (h : Holds (s, m)) : Holds (stepBoth (s, m) (.delApp app)) := by
  obtain ⟨hcreate, hreads⟩ := h.reads.delApp app
  refine ⟨?_, fun hc => ?_⟩
  · change Reads (AppStore.delApp app.name s).map ((m.del app).keys.map AppKey.name) (recordsOf (m.del app))
    rw [keys_del, recordsOf_del]
    simp only [mem_map_name] at hreads
    by_cases happ : app ∈ m
    · rwa [if_pos happ] at hreads
    · rw [if_neg happ] at hreads
      rwa [Function.update_eq_self_iff.mpr (recordsOf_of_notMem happ).symm]
  · have hm : m = .empty := h.created (hcreate ▸ hc)
    rw [hm]
    rfl

theorem Holds.addAppActor (h : Holds (s, m)) (happ : app ∈ m) (actorRecord : ActorCommand) :
    Holds (stepBoth (s, m) (.addAppActor app actorRecord)) := by
  obtain ⟨acts, hget⟩ := Dict.mem_iff_exists_get?.mp happ
  obtain ⟨hcreate, hreads⟩ := h.reads.addAppActor app actorRecord
  simp only [recordsOf_of_get? hget] at hreads
  have hm : stepApps m (.addAppActor app actorRecord) = m.set app (acts ++ [actorRecord]) := by
    simp only [stepApps, hget]
  rw [stepBoth, hm]
  exact h.setRecords hget hcreate hreads

theorem Holds.delAppActor (h : Holds (s, m)) (actorName : Text) :
    Holds (stepBoth (s, m) (.delAppActor app actorName)) := by
  obtain ⟨hcreate, hreads⟩ := h.reads.delAppActor app actorName
  cases hget : m.get? app with
  | some acts =>
    simp only [recordsOf_of_get? hget] at hreads
    have hm : stepApps m (.delAppActor app actorName) = m.set app (acts.filter fun a => a.actor ≠ actorName) := by
      simp only [stepApps, hget]
    rw [stepBoth, hm]
    exact h.setRecords hget hcreate hreads
  | none =>
    have hm : stepApps m (.delAppActor app actorName) = m := by simp only [stepApps, hget]
    have hnone := recordsOf_of_notMem (Dict.get?_eq_none_iff.mp hget)
    rw [stepBoth, hm]
    refine ⟨?_, fun hc => h.created (hcreate ▸ hc)⟩
    rwa [hnone, List.filter_nil, Function.update_eq_self_iff.mpr hnone.symm] at hreads

end Step

/-- A regular operation keeps the list. -/
theorem Holds.step {t : Store L × Dict AppKey (List ActorCommand)} (h : Holds t) {op : Op} (hop : Regular t op) :
    Holds (stepBoth t op) := by
  obtain ⟨s, m⟩ := t
  cases op with
  | reopen => exact ⟨h.reads, fun hc => absurd hc (by simp [stepBoth, AppStore.step, reopen])⟩
  | closeDbase => exact h.closeDbase
  | addApp app => exact h.addApp hop
  | delApp app => exact h.delApp
  | addAppActor app actorRecord => exact h.addAppActor hop actorRecord
  | delAppActor app actorName => exact h.delAppActor actorName

/-- An operation that is not regular is seen at once. -/
theorem Holds.regular_of_agrees {t : Store L × Dict AppKey (List ActorCommand)} (h : Holds t) {op : Op}
    (hagrees : Agrees (stepBoth t op)) : Regular t op := by
  obtain ⟨s, m⟩ := t
  cases op with
  | delApp app | delAppActor app actorName | closeDbase | reopen => trivial
  | addApp app =>
    obtain ⟨hcreate, hreads⟩ := h.reads.addApp app.name
    by_contra hc
    replace hc : s.create = true := by simpa [Regular] using hc
    have happs : (Except.ok [] : Except Exc (List Text)) = .ok ((stepApps m (.addApp app)).keys.map AppKey.name) := by
      refine Eq.trans ?_ hagrees.getApps
      change _ = getApps (AppStore.addApp app.name s)
      rw [hreads.getApps, hcreate, hc, if_pos rfl]
    have hm : m = .empty := h.created hc
    rw [hm] at happs
    simp [stepApps, Dict.keys_set] at happs
  | addAppActor app actorRecord =>
    obtain ⟨-, hreads⟩ := h.reads.addAppActor app actorRecord
    by_contra happ
    replace happ : app ∉ m := happ
    have hget := hagrees.getAppActors app
    have hm : stepApps m (.addAppActor app actorRecord) = m := by
      simp only [stepApps, Dict.get?_eq_none_iff.mpr happ]
    change getAppActors app.name (AppStore.addAppActor app.name actorRecord s) = _ at hget
    rw [stepBoth, hm, hreads.getAppActors, Function.update_self, recordsOf_of_notMem happ] at hget
    simp at hget

/-- **The database is a list of applications with their records** all along a run exactly if no application is added to
a database that was made anew before it is opened again, and no record for an application that is not in
the list. -/
theorem store_agrees_iff {t : Store L × Dict AppKey (List ActorCommand)} (h : Holds t) (ops : List Op) :
    Always stepBoth Agrees t ops ↔ AllSteps stepBoth Regular t ops :=
  always_iff_allSteps_of_inv (fun _ ht => ht.agrees) (fun _ _ ht hop => ht.step hop)
    (fun _ _ ht hagrees => ht.regular_of_agrees hagrees) h ops

instance decidableRegular (t : Store L × Dict AppKey (List ActorCommand)) : ∀ op, Decidable (Regular t op)
  | .addApp _ => inferInstanceAs (Decidable (_ = false))
  | .addAppActor app _ => inferInstanceAs (Decidable (app ∈ t.2))
  | .delApp _ | .delAppActor .. | .closeDbase | .reopen => isTrue trivial

/-- A database that is made anew, whose store is a dictionary. -/
def newStore : Store (Lmdb.ofDict Text Object) := create _

/-- An application with an actor, in a database that is made anew and opened again. -/
theorem agrees_one :
    Always stepBoth Agrees (newStore, .empty)
      [.reopen, .addApp ⟨['a'], by decide⟩,
        .addAppActor ⟨['a'], by decide⟩ ⟨⟨['a'], by decide⟩, [], ['x'], [], 1, false⟩, .closeDbase] :=
  (store_agrees_iff holds_create _).mpr (by decide +kernel)

/-- An application that is added to a database made anew is not there; and a record of an application that is
not in the list is still there after the database was closed. -/
theorem store_not_agrees :
    ¬ Always stepBoth Agrees (newStore, .empty) [.addApp ⟨['a'], by decide⟩] ∧
      ¬ Always stepBoth Agrees (reopen newStore, .empty)
        [.addAppActor ⟨['a'], by decide⟩ ⟨⟨['a'], by decide⟩, [], ['x'], [], 1, false⟩, .closeDbase] := by
  refine ⟨fun h => ?_, fun h => ?_⟩
  · have hget := h.last.getApps
    exact absurd hget (by decide +kernel)
  · have hget := h.last.getAppActors ⟨['a'], by decide⟩
    exact absurd hget (by decide +kernel)

/-! ### The database of the manager -/

/-- What the manager takes the database for is what is stored. -/
structure Represents (s : Store L) (d : AppDbase) : Prop where
  create : s.create = d.create
  unreserved : ∀ app ∈ d.apps, app.name ∉ reserved
  reads : ∃ recs, Reads s.map (d.apps.map AppName.name) recs ∧
    ∀ (app : AppName) (h : app.name ∉ reserved), recs ⟨app.name, h⟩ = d.getAppActors app

theorem appName_inj {a b : AppName} : a.name = b.name ↔ a = b := by
  cases a; cases b; simp

theorem mem_map_appName {apps : List AppName} {app : AppName} : app.name ∈ apps.map AppName.name ↔ app ∈ apps := by
  rw [List.mem_map]
  exact ⟨fun ⟨a, ha, he⟩ => appName_inj.mp he ▸ ha, fun ha => ⟨app, ha, rfl⟩⟩

section Represents

variable {s : Store L} {d : AppDbase}

theorem Represents.reopen (h : Represents s d) : Represents (reopen s) d.reopen := ⟨rfl, h.unreserved, h.reads⟩

theorem Represents.getApps (h : Represents s d) : getApps s = .ok (d.getApps.map AppName.name) := by
  obtain ⟨recs, hreads, -⟩ := h.reads
  rw [hreads.getApps, h.create, AppDbase.getApps]
  split_ifs <;> rfl

theorem Represents.getAppActors (h : Represents s d) {app : AppName} (happ : app.name ∉ reserved) :
    getAppActors app.name s = some (d.getAppActors app) := by
  obtain ⟨recs, hreads, hrecs⟩ := h.reads
  rw [← hrecs app happ]
  exact hreads.getAppActors ⟨app.name, happ⟩

theorem Represents.addApp (h : Represents s d) {app : AppName} (happ : app.name ∉ reserved) :
    Represents (addApp app.name s) (d.addApp app) := by
  obtain ⟨recs, hreads, hrecs⟩ := h.reads
  obtain ⟨hcreate, hreads⟩ := hreads.addApp app.name
  simp only [mem_map_appName] at hreads
  refine ⟨hcreate.trans h.create, fun a ha => ?_, recs, ?_, hrecs⟩
  · change a ∈ (if app ∈ d.apps then d.apps else d.apps ++ [app]) at ha
    split_ifs at ha
    · exact h.unreserved a ha
    · rcases List.mem_append.mp ha with ha | ha
      · exact h.unreserved a ha
      · exact List.mem_singleton.mp ha ▸ happ
  · change Reads _ ((if app ∈ d.apps then d.apps else d.apps ++ [app]).map AppName.name) recs
    split_ifs with hmem
    · rwa [if_pos hmem] at hreads
    · rw [if_neg hmem] at hreads
      rwa [List.map_append]

/-- Other records of one application. -/
theorem getAppActors_set {d' : AppDbase} {app : AppName} {acts : List ActorCommand}
    (h : d'.actors = d.actors.set app acts) (a : AppName) :
    d'.getAppActors a = if a = app then acts else d.getAppActors a := by
  rw [AppDbase.getAppActors, h, Dict.get?_set]
  split_ifs <;> rfl

/-- Other records under its name. -/
theorem Represents.setRecords (h : Represents s d) {s' : Store L} {d' : AppDbase} {app : AppName}
    (happ : app.name ∉ reserved) {f : List ActorCommand → List ActorCommand}
    (hcreate : s'.create = s.create) (hcreate' : d'.create = d.create) (happs : d'.apps = d.apps)
    (hactors : d'.actors = d.actors.set app (f (d.getAppActors app)))
    (hreads : ∀ recs, Reads s.map (d.apps.map AppName.name) recs →
      Reads s'.map (d.apps.map AppName.name) (Function.update recs ⟨app.name, happ⟩ (f (recs ⟨app.name, happ⟩)))) :
    Represents s' d' := by
  obtain ⟨recs, hr, hrecs⟩ := h.reads
  refine ⟨(hcreate.trans h.create).trans hcreate'.symm, happs ▸ h.unreserved, _, happs ▸ hreads recs hr,
    fun a ha => ?_⟩
  rw [getAppActors_set hactors, Function.update_apply, hrecs, hrecs]
  simp only [AppKey.mk.injEq, appName_inj]

theorem Represents.addAppActor (h : Represents s d) {actorRecord : ActorCommand}
    (happ : actorRecord.app.name ∉ reserved) :
    Represents (addAppActor actorRecord.app.name actorRecord s) (d.addAppActor actorRecord) := by
  obtain ⟨recs, hreads, -⟩ := h.reads
  exact h.setRecords happ (f := (· ++ [actorRecord])) (hreads.addAppActor ⟨_, happ⟩ actorRecord).1 rfl rfl rfl
    fun recs hr => (hr.addAppActor ⟨_, happ⟩ actorRecord).2

theorem Represents.delAppActor (h : Represents s d) {app : AppName} (happ : app.name ∉ reserved) (actorName : Text) :
    Represents (delAppActor app.name actorName s) (d.delAppActor app actorName) := by
  obtain ⟨recs, hreads, -⟩ := h.reads
  exact h.setRecords happ (f := List.filter fun r => r.actor ≠ actorName)
    (hreads.delAppActor ⟨_, happ⟩ actorName).1 rfl rfl rfl fun recs hr => (hr.delAppActor ⟨_, happ⟩ actorName).2

theorem Represents.closeDbase (h : Represents s d) : Represents (closeDbase s) d.closeDbase := by
  obtain ⟨recs, hreads, hrecs⟩ := h.reads
  have hnames : ∀ name ∈ d.apps.map AppName.name, name ∉ reserved := by
    rw [List.forall_mem_map]
    exact h.unreserved
  obtain ⟨hcreate, hreads⟩ := hreads.closeDbase hnames
  refine ⟨hcreate.trans h.create, fun app happ => absurd happ List.not_mem_nil, _, hreads, fun app happ => ?_⟩
  have hclose : d.closeDbase.getAppActors app = if app ∈ d.getApps then [] else d.getAppActors app := by
    change ((d.actors.delAll d.getApps).get? app).getD [] = _
    rw [Dict.get?_delAll]
    split_ifs <;> rfl
  simp only [mem_map_appName]
  rw [hclose, hrecs, h.create, AppDbase.getApps]
  cases d.create <;> simp

end Represents

end AppStore

end Riaps.Deployment
