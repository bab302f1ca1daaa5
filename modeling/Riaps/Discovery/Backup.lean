import Mathlib.Data.Char
import Mathlib.Data.List.Lex
import Mathlib.Logic.Function.Basic
import Riaps.Foundation.Lmdb
import Riaps.Foundation.Runs
import Riaps.Discovery.DhtDbase

/-!
# The backup on disk

What a server has inserted is kept on disk, so that after a crash it can be removed from the
table. It is a map from keys to lists of values, which are stored as bytes: a list is read,
changed and written again in one transaction. The store is any `Lmdb`.

Removing a value from a list returns nothing, and this is what is written in place of the list.
A list that is emptied so is what it should be, and one that is not has lost its other values.
Clearing the database is done in a transaction that may not write, with a cursor that is at no
entry, and it does nothing: `agrees_iff_allSteps`.
-/

namespace Riaps.Discovery

open Riaps.Foundation

namespace RegDb

/-- The stores. What is stored under a key is a list, or `None`. -/
abbrev Stores := Lmdb Text (Option (List Text))

variable {L : Stores}

/-- `unpickle`, for which `None` is the empty list. -/
def unpickle (stored : Option (List Text)) : List Text := stored.getD []

/-- The list of a key once it is read, which is empty if there is none. -/
def valuesOf (stored : Option (Option (List Text))) : List Text :=
  match stored with
  | some stored => unpickle stored
  | none => []

/-- `getKeyValues`. -/
def getKeyValues (key : Text) (default : Option (List Text)) (db : L.Db) :
    Except Lmdb.Error (Option (List Text)) × L.Db :=
  let (value, db) := Lmdb.transaction false (L.read key) db
  (value.map fun stored =>
    match stored with
    | some stored => some (unpickle stored)
    | none => default, db)

/-- `getAllKeyValues`. -/
def getAllKeyValues (db : L.Db) : Except Lmdb.Error (List (Text × List Text)) × L.Db :=
  let (raw, db) := Lmdb.transaction false L.readAll db
  (raw.map (List.map fun i => (i.1, unpickle i.2)), db)

/-- `addKeyValue`. -/
def addKeyValue (key value : Text) (db : L.Db) : Except Lmdb.Error Bool × L.Db :=
  Lmdb.transaction true
    (do
      let values := valuesOf (← L.read key)
      L.put key (some (values ++ [value])))
    db

/-- `delKeyValue`. What `values.remove(value)` returns is `None`. -/
def delKeyValue (key value : Text) (db : L.Db) : Except Lmdb.Error Bool × L.Db :=
  Lmdb.transaction true
    (do
      let values := valuesOf (← L.read key)
      L.put key (if value ∈ values then none else some values))
    db

/-- `delKey`. -/
def delKey (key : Text) (db : L.Db) : Except Lmdb.Error Bool × L.Db := Lmdb.transaction true (L.delete key) db

/-- `clearDbase`: the transaction may not write. -/
def clearDbase (db : L.Db) : Except Lmdb.Error Unit × L.Db := Lmdb.transaction false L.deleteAll db

/-! ### What each does -/

/-- The map that is stored. -/
def contents (db : L.Db) (key : Text) : Option (List Text) := (L.get db key).map unpickle

theorem valuesOf_eq (db : L.Db) (key : Text) : valuesOf (L.get db key) = (contents db key).getD [] := by
  unfold contents
  cases L.get db key <;> rfl

theorem contents_of_get {db db' : L.Db} {key : Text} {stored : Option (Option (List Text))}
    (h : L.get db' = Function.update (L.get db) key stored) :
    contents db' = Function.update (contents db) key (stored.map unpickle) := by
  funext k
  rw [contents, h, Function.update_apply, Function.update_apply]
  split_ifs <;> rfl

theorem getKeyValues_eq (key : Text) (default : Option (List Text)) (db : L.Db) :
    getKeyValues key default db = (.ok ((contents db key).or default), db) := by
  rw [getKeyValues, Lmdb.transaction_read, contents]
  cases L.get db key <;> rfl

theorem contents_addKeyValue (key value : Text) (db : L.Db) :
    contents (addKeyValue key value db).2 =
      Function.update (contents db) key (some ((contents db key).getD [] ++ [value])) := by
  rw [← valuesOf_eq]
  exact contents_of_get (L.get_read_put key db fun stored => some (valuesOf stored ++ [value]))

theorem contents_delKeyValue (key value : Text) (db : L.Db) :
    contents (delKeyValue key value db).2 = Function.update (contents db) key
      (some (unpickle (if value ∈ (contents db key).getD [] then none else some ((contents db key).getD [])))) := by
  rw [← valuesOf_eq]
  exact contents_of_get (L.get_read_put key db
    fun stored => if value ∈ valuesOf stored then none else some (valuesOf stored))

theorem contents_delKey (key : Text) (db : L.Db) :
    contents (delKey key db).2 = Function.update (contents db) key none :=
  contents_of_get (L.get_delete key db)

/-- Nothing is cleared. -/
theorem clearDbase_eq (db : L.Db) : clearDbase db = (.ok (), db) := L.transaction_deleteAll false db

/-- Each key that has a list is returned once, with its list. -/
theorem getAllKeyValues_eq (db : L.Db) :
    ∃ items, getAllKeyValues db = (.ok items, db) ∧ (items.map Prod.fst).Nodup ∧
      ∀ key values, (key, values) ∈ items ↔ contents db key = some values := by
  rw [getAllKeyValues, Lmdb.transaction_readAll]
  refine ⟨_, rfl, ?_, fun key values => ?_⟩
  · rw [List.map_map]
    exact L.iternext_nodup db
  · simp only [List.mem_map, Prod.exists, Prod.mk.injEq, contents, Option.map_eq_some_iff, L.mem_iternext]
    constructor
    · rintro ⟨k, stored, h, rfl, rfl⟩
      exact ⟨stored, h, rfl⟩
    · rintro ⟨stored, h, rfl⟩
      exact ⟨key, stored, h, rfl, rfl⟩

/-! ### A map from keys to lists -/

/-- The operations. -/
inductive Op where
  | addKeyValue (key value : Text)
  | delKeyValue (key value : Text)
  | delKey (key : Text)
  | clearDbase
  deriving DecidableEq

/-- What is stored after one of them. -/
def step (db : L.Db) : Op → L.Db
  | .addKeyValue key value => (addKeyValue key value db).2
  | .delKeyValue key value => (delKeyValue key value db).2
  | .delKey key => (delKey key db).2
  | .clearDbase => (clearDbase db).2

/-- What a map would hold: a value is added at the end of the list of its key, its first occurrence is
removed from there, a key is removed with its list, and all keys are. -/
def stepMap (m : Text → Option (List Text)) : Op → Text → Option (List Text)
  | .addKeyValue key value => Function.update m key (some ((m key).getD [] ++ [value]))
  | .delKeyValue key value => Function.update m key ((m key).map fun values => values.erase value)
  | .delKey key => Function.update m key none
  | .clearDbase => fun _ => none

/-- The two, side by side. -/
def stepBoth (t : L.Db × (Text → Option (List Text))) (op : Op) : L.Db × (Text → Option (List Text)) :=
  (step t.1 op, stepMap t.2 op)

/-- What is read is what the map holds: the list of a key, or the default if there is none, and of all
keys each one once with its list. -/
structure Agrees (t : L.Db × (Text → Option (List Text))) : Prop where
  getKeyValues : ∀ key default, (getKeyValues key default t.1).1 = .ok ((t.2 key).or default)
  getAllKeyValues : ∃ items, (getAllKeyValues t.1).1 = .ok items ∧ (items.map Prod.fst).Nodup ∧
    ∀ key values, (key, values) ∈ items ↔ t.2 key = some values

theorem agrees_iff {t : L.Db × (Text → Option (List Text))} : Agrees t ↔ contents t.1 = t.2 := by
  constructor
  · rintro ⟨hget, -⟩
    funext key
    have h := hget key none
    rw [getKeyValues_eq, Option.or_none, Option.or_none] at h
    exact Except.ok.inj h
  · intro h
    refine ⟨fun key default => by rw [getKeyValues_eq, h], ?_⟩
    obtain ⟨items, hitems, hnodup, hmem⟩ := getAllKeyValues_eq t.1
    exact ⟨items, by rw [hitems], hnodup, fun key values => by rw [hmem, h]⟩

/-- A value that is removed has a key, and is the only one in its list or none of it; and what is
cleared is empty. -/
def LosesNothing (t : L.Db × (Text → Option (List Text))) : Op → Prop
  | .addKeyValue .. | .delKey _ => True
  | .delKeyValue key value => ∃ values, t.2 key = some values ∧ (value ∈ values → values = [value])
  | .clearDbase => ∀ key, t.2 key = none

theorem erase_eq_nil_iff {values : List Text} {value : Text} (h : value ∈ values) :
    values.erase value = [] ↔ values = [value] := by
  constructor
  · intro hnil
    have hperm := List.perm_cons_erase h
    rw [hnil] at hperm
    exact List.perm_singleton.mp hperm
  · rintro rfl
    simp

/-- What is written when a value is removed is the list without it only if it is the only one there, or
is not there. -/
theorem unpickle_delKeyValue_iff (values : List Text) (value : Text) :
    unpickle (if value ∈ values then none else some values) = values.erase value ↔
      (value ∈ values → values = [value]) := by
  split_ifs with h
  · rw [← erase_eq_nil_iff h, eq_comm]
    exact ⟨fun hnil _ => hnil, fun himp => himp h⟩
  · refine iff_of_true ?_ fun hmem => absurd hmem h
    rw [List.erase_of_not_mem h]
    rfl

theorem agrees_step_iff {t : L.Db × (Text → Option (List Text))} (h : Agrees t) (op : Op) :
    Agrees (stepBoth t op) ↔ LosesNothing t op := by
  rw [agrees_iff] at h ⊢
  obtain ⟨db, m⟩ := t
  replace h : contents db = m := h
  change contents (step db op) = stepMap m op ↔ _
  cases op with
  | addKeyValue key value =>
    refine iff_of_true ?_ trivial
    rw [step, contents_addKeyValue, h]
    rfl
  | delKey key =>
    refine iff_of_true ?_ trivial
    rw [step, contents_delKey, h]
    rfl
  | clearDbase =>
    rw [step, clearDbase_eq, h]
    exact funext_iff
  | delKeyValue key value =>
    rw [step, contents_delKeyValue, h, stepMap, LosesNothing]
    rw [(Function.update_injective m key).eq_iff]
    cases hm : m key with
    | none => simp [hm]
    | some values =>
      rw [Option.map_some, Option.getD_some, Option.some.injEq, unpickle_delKeyValue_iff]
      simp [hm]

/-- **The backup is a map from keys to lists** all along a run exactly if a value that is removed is the only one of
its key, or none of a key that is there, and nothing is cleared but an empty database. -/
theorem agrees_iff_allSteps (db : L.Db) (ops : List Op) :
    Always stepBoth Agrees (db, contents db) ops ↔ AllSteps stepBoth LosesNothing (db, contents db) ops :=
  always_iff_allSteps (I := fun _ => True) (fun _ _ _ _ => trivial) (fun _ op _ h => agrees_step_iff h op) trivial
    (agrees_iff.mpr rfl) ops

/-- A store that is a dictionary, with nothing in it. -/
def emptyStore : (Lmdb.ofDict Text (Option (List Text))).Db := (Lmdb.ofDict Text (Option (List Text))).empty

/-- Of two values one is removed, and the other is gone too; and what is to be cleared is still there. -/
theorem not_agrees :
    ¬ Always stepBoth Agrees (emptyStore, contents emptyStore)
        [.addKeyValue ['k'] ['v'], .addKeyValue ['k'] ['w'], .delKeyValue ['k'] ['v']] ∧
      ¬ Always stepBoth Agrees (emptyStore, contents emptyStore) [.addKeyValue ['k'] ['v'], .clearDbase] := by
  refine ⟨fun h => ?_, fun h => ?_⟩
  · have hget := h.last.getKeyValues ['k'] none
    exact absurd hget (by decide +kernel)
  · have hget := h.last.getKeyValues ['k'] none
    exact absurd hget (by decide +kernel)

/-! ### The backup of the database -/

/-- What the database keeps as its backup is the map that is stored. -/
def Backs (db : L.Db) (regDb : Dict Text (List Text)) : Prop := ∀ key, contents db key = regDb.get? key

theorem Backs.addKeyValue {db : L.Db} {regDb : Dict Text (List Text)} (h : Backs db regDb) (key value : Text) :
    Backs (addKeyValue key value db).2 (DhtBackup.addKeyValue key value regDb) := by
  intro k
  rw [contents_addKeyValue, Function.update_apply, DhtBackup.addKeyValue, Dict.get?_set, h, h]

theorem Backs.delKeyValue {db : L.Db} {regDb : Dict Text (List Text)} (h : Backs db regDb) (key value : Text) :
    Backs (delKeyValue key value db).2 (DhtBackup.delKeyValue key value regDb) := by
  intro k
  rw [contents_delKeyValue, Function.update_apply, DhtBackup.delKeyValue, Dict.get?_set, h, h]
  split_ifs <;> rfl

/-! ### After a crash -/

section Cleanup

variable (dht : Dht)

/-- The values of a key are removed from the table. -/
def cleanupKey (d : DhtDbase) (keyValues : Text × List Text) : DhtDbase :=
  keyValues.2.foldl (fun d value => (d.dhtRemove dht keyValues.1 value).1) d

/-- `cleanupRegDb`, once the server has started: what it had inserted before is removed from the table. -/
def cleanupRegDb (db : L.Db) (d : DhtDbase) : L.Db × DhtDbase :=
  match (getAllKeyValues db).1 with
  | .ok [] | .error _ => (db, d)
  | .ok keyValues => ((clearDbase db).2, keyValues.foldl (cleanupKey dht) d)

theorem cleanupRegDb_eq {db : L.Db} {items : List (Text × List Text)} (h : (getAllKeyValues db).1 = .ok items)
    (d : DhtDbase) : cleanupRegDb dht db d = (db, items.foldl (cleanupKey dht) d) := by
  rw [cleanupRegDb, h]
  cases items with
  | nil => rfl
  | cons => simp only [clearDbase_eq]

variable {dht} {d : DhtDbase} {key value : Text}

theorem mem_puts_dhtRemove {p : Text × Text} (h : p ∈ d.puts) (key value : Text) :
    p ∈ (d.dhtRemove dht key value).1.puts := by
  rw [DhtDbase.dhtRemove]
  dsimp only
  split_ifs
  · exact List.mem_append_left _ h
  · exact h

/-- A value that is removed is marked. -/
theorem marked_dhtRemove (h : (key, value) ∈ d.puts) :
    (key, delValue value) ∈ (d.dhtRemove dht key value).1.puts := by
  have hmem : value ∈ d.dhtGet dht key := dht.mem_get.mpr h
  rw [DhtDbase.dhtRemove]
  dsimp only
  rw [if_pos hmem]
  exact List.mem_concat_self

theorem mem_puts_cleanupKey {p : Text × Text} (h : p ∈ d.puts) (keyValues : Text × List Text) :
    p ∈ (cleanupKey dht d keyValues).puts :=
  List.foldlRecOn (motive := fun d : DhtDbase => p ∈ d.puts) keyValues.2 _ h fun _ hd value _ =>
    mem_puts_dhtRemove hd keyValues.1 value

theorem marked_cleanupKey {values : List Text} (hvalue : value ∈ values) (h : (key, value) ∈ d.puts) :
    (key, delValue value) ∈ (cleanupKey dht d (key, values)).puts := by
  obtain ⟨before, after, rfl⟩ := List.append_of_mem hvalue
  have hbefore : (key, value) ∈ (cleanupKey dht d (key, before)).puts := mem_puts_cleanupKey h _
  have hsplit : cleanupKey dht d (key, before ++ value :: after) =
      cleanupKey dht ((cleanupKey dht d (key, before)).dhtRemove dht key value).1 (key, after) :=
    List.foldl_append ..
  rw [hsplit]
  exact mem_puts_cleanupKey (marked_dhtRemove hbefore) _

/-- **What was inserted before the crash is removed**: each value that is in the backup and in the table is marked. It
is not forgotten, and is removed again at every start. -/
theorem marked_cleanupRegDb (db : L.Db) (hbackup : value ∈ (contents db key).getD []) (htable : (key, value) ∈ d.puts) :
    (key, delValue value) ∈ (cleanupRegDb dht db d).2.puts ∧ (cleanupRegDb dht db d).1 = db := by
  obtain ⟨items, hitems, -, hmem⟩ := getAllKeyValues_eq db
  rw [cleanupRegDb_eq dht (congrArg Prod.fst hitems)]
  refine ⟨?_, rfl⟩
  obtain ⟨values, hvalues⟩ : ∃ values, contents db key = some values := by
    rw [← Option.isSome_iff_exists]
    by_contra hnone
    rw [Option.not_isSome_iff_eq_none.mp hnone] at hbackup
    exact List.not_mem_nil hbackup
  rw [hvalues, Option.getD_some] at hbackup
  obtain ⟨before, after, rfl⟩ := List.append_of_mem ((hmem key values).mpr hvalues)
  rw [List.foldl_append, List.foldl_cons]
  have hkept (d : DhtDbase) (l : List (Text × List Text)) {p : Text × Text} (hp : p ∈ d.puts) :
      p ∈ (l.foldl (cleanupKey dht) d).puts :=
    List.foldlRecOn (motive := fun d : DhtDbase => p ∈ d.puts) l _ hp fun _ hd i _ => mem_puts_cleanupKey hd i
  exact hkept _ after (marked_cleanupKey hbackup (hkept d before htable))

end Cleanup

end RegDb

end Riaps.Discovery
