import Mathlib.Data.List.Sort
import Mathlib.Logic.Function.Basic
import Riaps.Foundation.Dict

/-!
# A map with transactions

A store on disk that is a map from keys to values. It is read and changed in transactions
only. A transaction that was not begun to write may not change the map, and one that fails
leaves the map as it was.

The store is that of another package. An `Lmdb` is any of its kind, and what is relied on
are the laws of the map, and that a cursor which has just been made is at no entry, where it
deletes nothing. `Lmdb.ofDict` is one of them, whose cursors go through the map in the order
of the keys.
-/

namespace Riaps.Foundation

namespace Lmdb

/-- What a change raises in a transaction that may only read. -/
inductive Error where
  | readonly
  deriving DecidableEq

/-- What is done in a transaction, which may write or not. -/
abbrev Txn (Db : Type) : Type → Type := ReaderT Bool (StateT Db (Except Error))

/-- `with dbase.begin(write) as txn`: what is done is committed at the end, unless it raises. -/
def transaction {Db α : Type} (write : Bool) (body : Txn Db α) (db : Db) : Except Error α × Db :=
  match body write db with
  | .ok (a, db) => (.ok a, db)
  | .error e => (.error e, db)

end Lmdb

open Lmdb (Error Txn transaction)

/-- A store that is a map with transactions. -/
structure Lmdb (K V : Type) [DecidableEq K] where
  /-- What is on disk. -/
  Db : Type
  Cursor : Type
  /-- What `lmdb.open` makes where there is nothing yet. -/
  empty : Db
  /-- What `txn.get` reads. -/
  get : Db → K → Option V
  /-- What `list(txn.cursor().iternext())` reads. -/
  iternext : Db → List (K × V)
  /-- `txn.put`, which overwrites. -/
  put : K → V → Txn Db Bool
  /-- `txn.replace`: the value that was there is returned. -/
  replace : K → V → Txn Db (Option V)
  /-- `txn.delete`: whether there was anything to delete. -/
  delete : K → Txn Db Bool
  /-- `txn.cursor()` -/
  cursor : Cursor
  /-- `curs.delete()`: whether there was anything to delete. -/
  cursorDelete : Cursor → Txn Db (Bool × Cursor)
  get_empty : ∀ k, get empty k = none
  iternext_nodup : ∀ db, ((iternext db).map Prod.fst).Nodup
  mem_iternext : ∀ {db k v}, (k, v) ∈ iternext db ↔ get db k = some v
  put_spec : ∀ k v db, ∃ db', put k v true db = .ok (true, db') ∧ get db' = Function.update (get db) k (some v)
  replace_spec : ∀ k v db, ∃ db', replace k v true db = .ok (get db k, db') ∧
    get db' = Function.update (get db) k (some v)
  delete_spec : ∀ k db, ∃ db', delete k true db = .ok ((get db k).isSome, db') ∧
    get db' = Function.update (get db) k none
  cursorDelete_cursor : ∀ write db, ∃ curs, cursorDelete cursor write db = .ok ((false, curs), db)

namespace Lmdb

variable {K V : Type} [DecidableEq K] (L : Lmdb K V)

/-- `txn.get`. -/
def read (k : K) : Txn L.Db (Option V) := fun _ db => .ok (L.get db k, db)

/-- `list(txn.cursor().iternext())`. -/
def readAll : Txn L.Db (List (K × V)) := fun _ db => .ok (L.iternext db, db)

/-- `while go: go = curs.delete()`, so often at most. -/
def deleteWhile : ℕ → L.Cursor → Txn L.Db Unit
  | 0, _ => pure ()
  | n + 1, curs => do
    let (go, curs) ← L.cursorDelete curs
    if go then deleteWhile n curs else pure ()

/-- The loop, with a cursor that has just been made. It ends, since each time but the last it deletes an entry. -/
def deleteAll : Txn L.Db Unit := fun write db => L.deleteWhile ((L.iternext db).length + 1) L.cursor write db

section Laws

variable (k : K) (v : V) (write : Bool) (db : L.Db)

@[simp] theorem transaction_read : transaction write (L.read k) db = (.ok (L.get db k), db) := rfl

@[simp] theorem transaction_readAll : transaction write L.readAll db = (.ok (L.iternext db), db) := rfl

@[simp] theorem get_put : L.get (transaction true (L.put k v) db).2 = Function.update (L.get db) k (some v) := by
  obtain ⟨db', hput, hget⟩ := L.put_spec k v db
  rw [transaction, hput]
  exact hget

@[simp] theorem get_replace :
    L.get (transaction true (L.replace k v) db).2 = Function.update (L.get db) k (some v) := by
  obtain ⟨db', hreplace, hget⟩ := L.replace_spec k v db
  rw [transaction, hreplace]
  exact hget

@[simp] theorem get_delete : L.get (transaction true (L.delete k) db).2 = Function.update (L.get db) k none := by
  obtain ⟨db', hdelete, hget⟩ := L.delete_spec k db
  rw [transaction, hdelete]
  exact hget

/-- A value that is read and then written. -/
theorem get_read_put (f : Option V → V) :
    L.get (transaction true (do let v ← L.read k; L.put k (f v)) db).2 =
      Function.update (L.get db) k (some (f (L.get db k))) :=
  L.get_put k (f (L.get db k)) db

/-- A cursor that has just been made is at no entry, and the loop deletes nothing. -/
@[simp] theorem transaction_deleteAll : transaction write L.deleteAll db = (.ok (), db) := by
  obtain ⟨curs, hdelete⟩ := L.cursorDelete_cursor write db
  have hloop : L.deleteWhile ((L.iternext db).length + 1) L.cursor write db = .ok ((), db) := by
    have hbind : L.deleteWhile ((L.iternext db).length + 1) L.cursor write db =
        (L.cursorDelete L.cursor write db).bind fun r =>
          (if r.1.1 then L.deleteWhile (L.iternext db).length r.1.2 else pure ()) write r.2 := rfl
    rw [hbind, hdelete]
    rfl
  rw [transaction, deleteAll, hloop]

end Laws

/-! ### A dictionary as a store -/

section Dictionary

variable {K V : Type} [DecidableEq K]

theorem get?_set_eq_update (db : Dict K V) (k : K) (v : V) :
    (db.set k v).get? = Function.update db.get? k (some v) := by
  funext j
  rw [Dict.get?_set, Function.update_apply]

theorem get?_del_eq_update (db : Dict K V) (k : K) : (db.del k).get? = Function.update db.get? k none := by
  funext j
  rw [Dict.get?_del, Function.update_apply]

/-- `curs.delete`, of a cursor that is at the entry of a key or at none: the entry is deleted and the
cursor goes to the next one. At none it deletes nothing. -/
def dictCursorDelete [LinearOrder K] : Option K → Txn (Dict K V) (Bool × Option K)
  | none => fun _ db => .ok ((false, none), db)
  | some k => fun write db =>
    if write then .ok ((true, (db.keys.filter (k < ·)).min?), db.del k) else .error .readonly

/-- A store that is a dictionary. -/
def ofDict (K V : Type) [LinearOrder K] [DecidableEq K] : Lmdb K V where
  Db := Dict K V
  Cursor := Option K
  empty := .empty
  get := Dict.get?
  iternext db := db.items.insertionSort fun i j => i.1 ≤ j.1
  put k v write db := if write then .ok (true, db.set k v) else .error .readonly
  replace k v write db := if write then .ok (db.get? k, db.set k v) else .error .readonly
  delete k write db := if write then .ok ((db.get? k).isSome, db.del k) else .error .readonly
  cursor := none
  cursorDelete := dictCursorDelete
  get_empty _ := rfl
  iternext_nodup db := ((List.perm_insertionSort _ db.items).map Prod.fst).nodup_iff.mpr db.nodup
  mem_iternext := by
    intro db k v
    rw [List.mem_insertionSort, Dict.get?_eq_some_iff]
  put_spec k v db := ⟨_, rfl, get?_set_eq_update db k v⟩
  replace_spec k v db := ⟨_, rfl, get?_set_eq_update db k v⟩
  delete_spec k db := ⟨_, rfl, get?_del_eq_update db k⟩
  cursorDelete_cursor _ db := ⟨none, rfl⟩

end Dictionary

end Lmdb

end Riaps.Foundation
