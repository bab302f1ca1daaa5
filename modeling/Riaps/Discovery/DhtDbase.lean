import Riaps.Foundation.Dict
import Riaps.Foundation.PyText
import Riaps.Foundation.Tombstones

/-!
# The discovery database

The store that a discovery server keeps in a distributed hash table: a key has
any number of values, and what is put there stays. A value is deleted by
putting its mark, the value with a `-` in front, and `fetch` returns the values
without a mark.

The table is that of another package. A `Dht` is any of its kind, and what is
relied on is one law: under a key it returns what was put there. Beside it the
store has the clients of each key, the listeners, the updates that they
collected, the values that it puts again from time to time and the backup that
it keeps of them.

`DhtDbase.fetch_iff` says when `fetch` returns what was inserted last.
-/

namespace Riaps.Discovery

open Riaps.Foundation

/-- The exceptions of the discovery service. -/
inductive Exc where
  /-- `DatabaseError`. -/
  | databaseError
  /-- `KeyError`. -/
  | keyError
  /-- `ValueError`. -/
  | valueError
  /-- `IndexError`. -/
  | indexError
  /-- `AssertionError`. -/
  | assertionError
  /-- `AttributeError`. -/
  | attributeError
  /-- The `KjException` of a number that does not fit its field. -/
  | kjException
  deriving DecidableEq

/-- A distributed hash table that drops nothing. -/
structure Dht where
  /-- The values under a key, after the puts of a list. -/
  get : List (Text × Text) → Text → List Text
  /-- They are the values that were put there. -/
  mem_get : ∀ {puts key value}, value ∈ get puts key ↔ (key, value) ∈ puts

/-- A table that returns the values in the order of the puts. -/
def Dht.inOrder : Dht where
  get puts key := (puts.filter fun p => p.1 = key).map Prod.snd
  mem_get := by
    intro puts key value
    simp only [List.mem_map, List.mem_filter, decide_eq_true_eq, Prod.exists]
    constructor
    · rintro ⟨k, v, ⟨h, rfl⟩, rfl⟩
      exact h
    · intro h
      exact ⟨key, value, ⟨h, rfl⟩, rfl⟩

/-! ### Marks -/

/-- `delValue`. -/
def delValue (value : Text) : Text := '-' :: value

/-- `isDelValue`, of a value that has a character. -/
def isDelValue (value : Text) : Bool := value.head? = some '-'

/-- `orgValue`, of a value that has a character. -/
def orgValue (value : Text) : Text := if isDelValue value then value.tail else value

/-- A value that is not empty and is no mark. -/
def Plain (value : Text) : Prop := value ≠ [] ∧ isDelValue value = false

instance (value : Text) : Decidable (Plain value) := inferInstanceAs (Decidable (_ ∧ _))

/-- `filterDelValues`: of an empty value, `value[0]` raises an `IndexError`. -/
def filterDelValues (values : List Text) : Except Exc (List Text) :=
  if [] ∈ values then .error .indexError
  else
    let out := (values.filter isDelValue).map List.tail
    .ok (values.filter fun v => !isDelValue v && v ∉ out)

theorem isDelValue_iff {value : Text} : isDelValue value = true ↔ ∃ v, value = delValue v := by
  cases value with
  | nil => simp [isDelValue, delValue]
  | cons c t => simp [isDelValue, delValue]

@[simp] theorem isDelValue_delValue (value : Text) : isDelValue (delValue value) = true :=
  isDelValue_iff.mpr ⟨value, rfl⟩

theorem Plain.ne_delValue {v w : Text} (h : Plain v) : v ≠ delValue w := by
  rintro rfl
  exact absurd h.2 (by simp)

/-- The values that `filterDelValues` keeps. -/
theorem mem_filterDelValues {values out : List Text} (h : filterDelValues values = .ok out) (v : Text) :
    v ∈ out ↔ Plain v ∧ v ∈ values ∧ delValue v ∉ values := by
  rw [filterDelValues] at h
  split_ifs at h with hempty
  obtain rfl := Except.ok.inj h
  have hmark : v ∈ (values.filter isDelValue).map List.tail ↔ delValue v ∈ values := by
    rw [List.mem_map]
    constructor
    · rintro ⟨w, hw, rfl⟩
      obtain ⟨hw, hdel⟩ := List.mem_filter.mp hw
      obtain ⟨u, rfl⟩ := isDelValue_iff.mp hdel
      exact hw
    · intro hv
      exact ⟨delValue v, List.mem_filter.mpr ⟨hv, isDelValue_delValue v⟩, rfl⟩
  rw [List.mem_filter, Bool.and_eq_true, Bool.not_eq_true', decide_eq_true_eq, hmark]
  constructor
  · rintro ⟨hv, hplain, hno⟩
    exact ⟨⟨fun he => hempty (he ▸ hv), hplain⟩, hv, hno⟩
  · rintro ⟨hplain, hv, hno⟩
    exact ⟨hv, hplain.2, hno⟩

/-! ### The republisher -/

/-- The republisher: the queue of its scheduler and `republishMap`, which has for each pair that is
to be put again the event that will do so. -/
structure Republisher where
  /-- The events of the queue, by number, with the pair that each puts. -/
  queue : Dict ℕ (Text × Text)
  /-- `republishMap`. -/
  map : Dict (Text × Text) ℕ
  /-- The number of the next event. -/
  next : ℕ
  /-- The event of a pair is in the queue. -/
  queued : ∀ p e, map.get? p = some e → queue.get? e = some p
  /-- Numbers are not used twice. -/
  fresh : ∀ e p, queue.get? e = some p → e < next

namespace Republisher

instance : DecidableEq Republisher := fun r t =>
  decidable_of_iff (r.queue = t.queue ∧ r.map = t.map ∧ r.next = t.next)
    ⟨fun h => by cases r; cases t; simp_all, fun h => by simp [h]⟩

/-- With nothing to put. -/
def init : Republisher := ⟨.empty, .empty, 0, by simp, by simp⟩

/-- `addToRepublish`. -/
def add (p : Text × Text) (r : Republisher) : Republisher where
  queue := r.queue.set r.next p
  map := r.map.set p r.next
  next := r.next + 1
  queued := by
    intro q e h
    rw [Dict.get?_set] at h
    split_ifs at h with hq
    · obtain rfl := Option.some.inj h
      rw [Dict.get?_set_self, hq]
    · have hqueue := r.queued q e h
      rw [Dict.get?_set_of_ne _ _ (Nat.ne_of_lt (r.fresh e q hqueue)), hqueue]
  fresh := by
    intro e q h
    rw [Dict.get?_set] at h
    split_ifs at h with he
    · omega
    · exact Nat.lt_succ_of_lt (r.fresh e q h)

/-- `republishMap` without the entry, if any, for event `e`. -/
def mapWithout (e : ℕ) (r : Republisher) : Dict (Text × Text) ℕ :=
  match r.queue.get? e with
  | some p => if r.map.get? p = some e then r.map.del p else r.map
  | none => r.map

theorem get?_mapWithout (e : ℕ) (r : Republisher) (p : Text × Text) :
    (r.mapWithout e).get? p = if r.map.get? p = some e then none else r.map.get? p := by
  rw [mapWithout]
  split
  · rename_i q hq
    by_cases hp : p = q
    · subst hp
      by_cases hm : r.map.get? p = some e
      · rw [if_pos hm, if_pos hm, Dict.get?_del, if_pos rfl]
      · rw [if_neg hm]
        simp only [if_neg hm]
    · have hm : r.map.get? p ≠ some e := fun h => hp (Option.some.inj ((r.queued p e h).symm.trans hq))
      rw [if_neg hm]
      split_ifs
      · rw [Dict.get?_del, if_neg hp]
      · rfl
  · rename_i hq
    have hm : r.map.get? p ≠ some e := fun h => by simp [r.queued p e h] at hq
    rw [if_neg hm]

/-- Event `e` leaves the queue, cancelled or to be run. -/
def dequeue (e : ℕ) (r : Republisher) : Republisher where
  queue := r.queue.del e
  map := r.mapWithout e
  next := r.next
  queued := by
    intro p d h
    rw [get?_mapWithout] at h
    split_ifs at h with hp
    have hd : d ≠ e := fun hd => hp (hd ▸ h)
    rw [Dict.get?_del, if_neg hd, r.queued p d h]
  fresh := by
    intro d p h
    rw [Dict.get?_del] at h
    split_ifs at h
    exact r.fresh d p h

theorem mem_of_mem_dequeue {e : ℕ} {p : Text × Text} {r : Republisher} (h : p ∈ (r.dequeue e).map) : p ∈ r.map := by
  obtain ⟨d, hd⟩ := Dict.mem_iff_exists_get?.mp h
  change (r.mapWithout e).get? p = some d at hd
  rw [get?_mapWithout] at hd
  split_ifs at hd
  exact Dict.mem_of_get? hd

theorem mem_add {p q : Text × Text} {r : Republisher} : q ∈ (r.add p).map ↔ q = p ∨ q ∈ r.map := by
  rw [Dict.mem_iff_exists_get?, Dict.mem_iff_exists_get?, add, Dict.get?_set]
  by_cases hq : q = p
  · simp [hq]
  · simp [hq]

/-- `delFromRepublish`: the event of the pair is cancelled, and the queue has it (`queued`). -/
def del (p : Text × Text) (r : Republisher) : Republisher :=
  match r.map.get? p with
  | some event => r.dequeue event
  | none => r

/-- What `dhtRepublish` puts when event `e` is run: its pair, if that has an entry in the map still,
and then it has a new event. -/
def republish (e : ℕ) (r : Republisher) : Option (Text × Text) × Republisher :=
  match r.queue.get? e with
  | some p => if p ∈ r.map then (some p, (r.dequeue e).add p) else (none, r.dequeue e)
  | none => (none, r)

theorem mem_of_mem_del {p q : Text × Text} {r : Republisher} (h : q ∈ (r.del p).map) : q ∈ r.map := by
  rw [del] at h
  split at h
  · exact mem_of_mem_dequeue h
  · exact h

/-- What is put again has an entry, and nothing else gets one. -/
theorem republish_mem (e : ℕ) (r : Republisher) :
    (∀ p ∈ (r.republish e).1, p ∈ r.map) ∧ ∀ p ∈ (r.republish e).2.map, p ∈ r.map := by
  unfold republish
  split
  · rename_i q hq
    split_ifs with hmap
    · refine ⟨fun p hp => ?_, fun p hp => ?_⟩
      · obtain rfl := Option.some.inj hp
        exact hmap
      · rcases mem_add.mp hp with rfl | hp
        exacts [hmap, mem_of_mem_dequeue hp]
    · exact ⟨fun p hp => absurd hp (by simp), fun p hp => mem_of_mem_dequeue hp⟩
  · exact ⟨fun p hp => absurd hp (by simp), fun p hp => hp⟩

end Republisher

/-! ### The backup -/

namespace DhtBackup

/-- `addKeyValue`: the value is added at the end of the list. -/
def addKeyValue (key value : Text) (db : Dict Text (List Text)) : Dict Text (List Text) :=
  db.set key ((db.get? key).getD [] ++ [value])

/-- `delKeyValue`. What is stored for a value that is there is the `None` that `values.remove(value)`
returns, and `unpickle` reads that as no value at all. -/
def delKeyValue (key value : Text) (db : Dict Text (List Text)) : Dict Text (List Text) :=
  let values := (db.get? key).getD []
  db.set key (if value ∈ values then [] else values)

end DhtBackup

/-! ### The database -/

/-- The state of a `DhtDbase`. -/
structure DhtDbase where
  /-- What has been put into the table: keys and values. -/
  puts : List (Text × Text)
  /-- `clients`: of a key, in the order in which they came. -/
  clients : Dict Text (List Text)
  /-- The keys that have a listener. -/
  listeners : List Text
  updates : List (Text × Text)
  /-- `republisher` and `republishMap`. -/
  republisher : Republisher
  deletedMap : Dict Text Text
  /-- `regDb`. -/
  regDb : Dict Text (List Text)
  deriving DecidableEq

namespace DhtDbase

/-- The database once it is started, over an empty table. -/
def init : DhtDbase where
  puts := []
  clients := .empty
  listeners := []
  updates := []
  republisher := .init
  deletedMap := .empty
  regDb := .empty

/-- `dhtPut`. -/
def dhtPut (key value : Text) (d : DhtDbase) : DhtDbase := { d with puts := d.puts ++ [(key, value)] }

/-- `self.clients.get(key,[])`. -/
def clientsOf (key : Text) (d : DhtDbase) : List Text := (d.clients.get? key).getD []

/-- `dhtAddClient`. -/
def dhtAddClient (key client : Text) (d : DhtDbase) : DhtDbase :=
  let clients := d.clientsOf key
  { d with
    clients := d.clients.set key (if client ∈ clients then clients else clients ++ [client])
    listeners := if key ∈ d.listeners then d.listeners else d.listeners ++ [key] }

/-- `dhtDelClient`, and `detach`: the listener of the key is cancelled, whoever else listens. -/
def detach (key client : Text) (d : DhtDbase) : DhtDbase :=
  let d := { d with listeners := d.listeners.filter (· ≠ key) }
  if client ∈ d.clientsOf key then { d with clients := d.clients.set key ((d.clientsOf key).erase client) } else d

/-- `fetchUpdates`: for each update whose key has clients, its key, its value and the clients. -/
def fetchUpdates (d : DhtDbase) : DhtDbase × List (Text × Text × List Text) :=
  ({ d with updates := [] },
    d.updates.dedup.filterMap fun u =>
      if d.clientsOf u.1 = [] then none else some (u.1, u.2, d.clientsOf u.1))

/-- `dhtValueCallback`: a value of a key has come or, `expired`, gone. (With an empty value it raises
before it does anything.) -/
def dhtValueCallback (key value : Text) (expired : Bool) (d : DhtDbase) : DhtDbase :=
  if value = [] then d
  else
    let d :=
      if expired ∨ isDelValue value ∨ (key, value) ∈ d.republisher.map ∨ d.deletedMap.get? key = some value then d
      else { d with updates := d.updates ++ [(key, value)] }
    if expired ∨ isDelValue value then
      let value' := orgValue value
      { d with
        deletedMap := d.deletedMap.set key value'
        updates := d.updates.filter fun u => u.1 ≠ key ∧ u.2 ≠ value' }
    else d

/-- `dhtRepublish`, run by an event of the republisher. -/
def dhtRepublish (event : ℕ) (d : DhtDbase) : DhtDbase :=
  match d.republisher.republish event with
  | (some (key, value), republisher) => dhtPut key value { d with republisher := republisher }
  | (none, republisher) => { d with republisher := republisher }

section Table

variable (dht : Dht)

/-- `dhtGet`. -/
def dhtGet (key : Text) (d : DhtDbase) : List Text := dht.get d.puts key

/-- `insert`, and the clients that it returns. -/
def insert (key value : Text) (d : DhtDbase) : DhtDbase × List Text :=
  if value ∈ d.dhtGet dht key then (d, [])
  else
    let d := d.dhtPut key value
    ({ d with
        regDb := DhtBackup.addKeyValue key value d.regDb
        republisher := d.republisher.add (key, value) },
      d.clientsOf key)

/-- `fetch`, and the values that it returns. -/
def fetch (key client : Text) (d : DhtDbase) : DhtDbase × Except Exc (List Text) :=
  let d := d.dhtAddClient key client
  (d,
    match filterDelValues (d.dhtGet dht key) with
    | .ok values => .ok values
    | .error _ => .error .databaseError)

/-- `dhtRemove`: a value that the table has is marked. The other values are returned. -/
def dhtRemove (key value : Text) (d : DhtDbase) : DhtDbase × List Text :=
  let values := d.dhtGet dht key
  (if value ∈ values then { d.dhtPut key (delValue value) with deletedMap := d.deletedMap.set key value } else d,
    values.dedup.filter (· ≠ value))

/-- `remove`, and the values that it returns. -/
def remove (key value : Text) (d : DhtDbase) : DhtDbase × List Text :=
  dhtRemove dht key value
    { d with
      republisher := d.republisher.del (key, value)
      regDb := DhtBackup.delKeyValue key value d.regDb }

end Table

/-! ### What the operations put -/

@[simp] theorem dhtPut_puts (key value : Text) (d : DhtDbase) :
    (d.dhtPut key value).puts = d.puts ++ [(key, value)] := rfl

@[simp] theorem detach_puts (key client : Text) (d : DhtDbase) : (d.detach key client).puts = d.puts := by
  unfold detach
  dsimp only
  split_ifs <;> rfl

@[simp] theorem detach_republisher (key client : Text) (d : DhtDbase) :
    (d.detach key client).republisher = d.republisher := by
  unfold detach
  dsimp only
  split_ifs <;> rfl

@[simp] theorem dhtValueCallback_puts (key value : Text) (expired : Bool) (d : DhtDbase) :
    (d.dhtValueCallback key value expired).puts = d.puts := by
  unfold dhtValueCallback
  dsimp only
  split_ifs <;> rfl

@[simp] theorem dhtValueCallback_republisher (key value : Text) (expired : Bool) (d : DhtDbase) :
    (d.dhtValueCallback key value expired).republisher = d.republisher := by
  unfold dhtValueCallback
  dsimp only
  split_ifs <;> rfl

@[simp] theorem remove_republisher (dht : Dht) (key value : Text) (d : DhtDbase) :
    (d.remove dht key value).1.republisher = d.republisher.del (key, value) := by
  unfold remove dhtRemove
  dsimp only
  split_ifs <;> rfl

theorem mem_dhtGet {dht : Dht} {key value : Text} {d : DhtDbase} :
    value ∈ d.dhtGet dht key ↔ (key, value) ∈ d.puts := dht.mem_get

/-- A pair is put by `insert` if the table has it not, and then it has it. -/
theorem mem_insert_puts (dht : Dht) (key value : Text) (d : DhtDbase) (p : Text × Text) :
    p ∈ (d.insert dht key value).1.puts ↔ p = (key, value) ∨ p ∈ d.puts := by
  rw [insert]
  split_ifs with h
  · rw [mem_dhtGet] at h
    refine ⟨Or.inr, fun hp => ?_⟩
    rcases hp with rfl | hp
    exacts [h, hp]
  · simp [or_comm]

/-- A pair is marked by `remove` if the table has it. -/
theorem mem_remove_puts (dht : Dht) (key value : Text) (d : DhtDbase) (p : Text × Text) :
    p ∈ (d.remove dht key value).1.puts ↔ p ∈ d.puts ∨ p = (key, delValue value) ∧ (key, value) ∈ d.puts := by
  rw [remove, dhtRemove]
  dsimp only
  split_ifs with h
  · replace h : (key, value) ∈ d.puts := mem_dhtGet.mp h
    simp [h]
  · replace h : (key, value) ∉ d.puts := fun hm => h (mem_dhtGet.mpr hm)
    simp [h]

/-! ### What is put again -/

/-- What the republisher puts is in the table. -/
def Backed (d : DhtDbase) : Prop := ∀ p ∈ d.republisher.map, p ∈ d.puts

/-- A step that leaves the table and the republisher. -/
theorem Backed.of_eq {d d' : DhtDbase} (h : d.Backed) (hputs : d'.puts = d.puts)
    (hrep : d'.republisher = d.republisher) : d'.Backed := by
  intro p hp
  rw [hrep] at hp
  rw [hputs]
  exact h p hp

theorem Backed.insert {d : DhtDbase} (h : Backed d) (dht : Dht) (key value : Text) :
    Backed (d.insert dht key value).1 := by
  intro p hp
  rw [mem_insert_puts]
  unfold DhtDbase.insert at hp
  split_ifs at hp
  · exact Or.inr (h p hp)
  · exact (Republisher.mem_add.mp hp).imp_right (h p)

theorem Backed.remove {d : DhtDbase} (h : Backed d) (dht : Dht) (key value : Text) :
    Backed (d.remove dht key value).1 := by
  intro p hp
  rw [remove_republisher] at hp
  rw [mem_remove_puts]
  exact Or.inl (h p (Republisher.mem_of_mem_del hp))

/-- What a republisher puts is nothing new. -/
theorem Backed.mem_dhtRepublish_puts {d : DhtDbase} (h : Backed d) (event : ℕ) (p : Text × Text) :
    p ∈ (d.dhtRepublish event).puts ↔ p ∈ d.puts := by
  obtain ⟨hput, -⟩ := d.republisher.republish_mem event
  unfold DhtDbase.dhtRepublish
  split
  · rename_i key value republisher heq
    rw [heq] at hput
    rw [dhtPut_puts, List.mem_append, List.mem_singleton]
    refine or_iff_left_of_imp ?_
    rintro rfl
    exact h _ (hput _ rfl)
  · exact Iff.rfl

theorem mem_dhtRepublish_republisher {event : ℕ} {d : DhtDbase} {p : Text × Text}
    (h : p ∈ (d.dhtRepublish event).republisher.map) : p ∈ d.republisher.map := by
  obtain ⟨-, hmap⟩ := d.republisher.republish_mem event
  refine hmap p ?_
  unfold dhtRepublish at h
  split at h
  · rename_i heq
    rw [heq]
    exact h
  · rename_i heq
    rw [heq]
    exact h

theorem Backed.dhtRepublish {d : DhtDbase} (h : Backed d) (event : ℕ) : Backed (d.dhtRepublish event) := by
  intro p hp
  rw [h.mem_dhtRepublish_puts]
  exact h p (mem_dhtRepublish_republisher hp)

/-! ### What is there -/

/-- The table has the value, and no mark of it. -/
def Live (d : DhtDbase) (key value : Text) : Prop :=
  Plain value ∧ (key, value) ∈ d.puts ∧ (key, delValue value) ∉ d.puts

/-- What `fetch` returns, from a table without an empty value. -/
theorem mem_fetch (dht : Dht) {d : DhtDbase} {key : Text} (hempty : (key, []) ∉ d.puts) (client : Text) :
    ∃ values, (d.fetch dht key client).2 = .ok values ∧ ∀ value, value ∈ values ↔ d.Live key value := by
  have hget : [] ∉ (d.dhtAddClient key client).dhtGet dht key := by
    rw [mem_dhtGet]
    exact hempty
  have hok : ∃ values, filterDelValues ((d.dhtAddClient key client).dhtGet dht key) = .ok values := by
    rw [filterDelValues, if_neg hget]
    exact ⟨_, rfl⟩
  obtain ⟨values, hvalues⟩ := hok
  refine ⟨values, by rw [fetch, hvalues], fun value => ?_⟩
  rw [mem_filterDelValues hvalues, mem_dhtGet, mem_dhtGet]
  rfl

theorem live_congr {d d' : DhtDbase} (hputs : ∀ p, p ∈ d'.puts ↔ p ∈ d.puts) (key value : Text) :
    d'.Live key value ↔ d.Live key value := by
  simp only [Live, hputs]

/-- A plain value without a mark is there once it is inserted. -/
theorem live_insert (dht : Dht) {d : DhtDbase} {key value : Text} (hv : Plain value)
    (hmark : (key, delValue value) ∉ d.puts) (k v : Text) :
    (d.insert dht key value).1.Live k v ↔ d.Live k v ∨ (k, v) = (key, value) := by
  have hne : (k, delValue v) ≠ (key, value) := fun h => hv.ne_delValue (congrArg Prod.snd h).symm
  simp only [Live, mem_insert_puts, hne, false_or]
  constructor
  · rintro ⟨hplain, he | hp, hm⟩
    exacts [Or.inr he, Or.inl ⟨hplain, hp, hm⟩]
  · rintro (⟨hplain, hp, hm⟩ | he)
    · exact ⟨hplain, Or.inr hp, hm⟩
    · obtain ⟨rfl, rfl⟩ := Prod.mk.inj he
      exact ⟨hv, Or.inl rfl, hmark⟩

/-- What is removed is there no more. -/
theorem live_remove (dht : Dht) (d : DhtDbase) (key value k v : Text) :
    (d.remove dht key value).1.Live k v ↔ d.Live k v ∧ (k, v) ≠ (key, value) := by
  simp only [Live, mem_remove_puts]
  constructor
  · rintro ⟨hplain, hp, hm⟩
    replace hp : (k, v) ∈ d.puts := hp.resolve_right fun h => hplain.ne_delValue (congrArg Prod.snd h.1)
    refine ⟨⟨hplain, hp, fun h => hm (Or.inl h)⟩, fun he => ?_⟩
    obtain ⟨rfl, rfl⟩ := Prod.mk.inj he
    exact hm (Or.inr ⟨rfl, hp⟩)
  · rintro ⟨⟨hplain, hp, hm⟩, hne⟩
    refine ⟨hplain, Or.inl hp, ?_⟩
    rintro (h | ⟨h, -⟩)
    · exact hm h
    · exact hne (by simpa [delValue] using h)

/-! ### Clients -/

@[simp] theorem clientsOf_insert (dht : Dht) (key value : Text) (d : DhtDbase) (k : Text) :
    (d.insert dht key value).1.clientsOf k = d.clientsOf k := by
  unfold insert
  split_ifs <;> rfl

@[simp] theorem clientsOf_remove (dht : Dht) (key value : Text) (d : DhtDbase) (k : Text) :
    (d.remove dht key value).1.clientsOf k = d.clientsOf k := by
  unfold remove dhtRemove
  dsimp only
  split_ifs <;> rfl

@[simp] theorem clientsOf_dhtValueCallback (key value : Text) (expired : Bool) (d : DhtDbase) (k : Text) :
    (d.dhtValueCallback key value expired).clientsOf k = d.clientsOf k := by
  unfold dhtValueCallback
  dsimp only
  split_ifs <;> rfl

@[simp] theorem clientsOf_dhtRepublish (event : ℕ) (d : DhtDbase) (k : Text) :
    (d.dhtRepublish event).clientsOf k = d.clientsOf k := by
  unfold dhtRepublish
  split <;> rfl

theorem mem_clientsOf_fetch (dht : Dht) (key client : Text) (d : DhtDbase) (k c : Text) :
    c ∈ (d.fetch dht key client).1.clientsOf k ↔ (k, c) = (key, client) ∨ c ∈ d.clientsOf k := by
  change c ∈ ((d.clients.set key _).get? k).getD [] ↔ _
  rw [Dict.get?_set]
  by_cases hk : k = key
  · subst hk
    rw [if_pos rfl, Option.getD_some]
    split_ifs with hmem
    · simp only [Prod.mk.injEq, true_and]
      exact ⟨Or.inr, fun h => h.elim (fun h => h ▸ hmem) id⟩
    · simp [or_comm]
  · rw [if_neg hk]
    simp [hk, clientsOf]

/-- Detaching a client leaves the others. -/
theorem mem_clientsOf_detach {key client k c : Text} {d : DhtDbase} (h : c ∈ d.clientsOf k)
    (hne : (k, c) ≠ (key, client)) : c ∈ (d.detach key client).clientsOf k := by
  unfold detach
  dsimp only
  split_ifs with hmem
  · change c ∈ ((d.clients.set key _).get? k).getD []
    rw [Dict.get?_set]
    by_cases hk : k = key
    · subst hk
      rw [if_pos rfl, Option.getD_some]
      exact (List.mem_erase_of_ne fun he => hne (by rw [he])).mpr h
    · rw [if_neg hk]
      exact h
  · exact h

/-- `insert` returns the clients of the key if it puts the value. -/
theorem insert_clients (dht : Dht) (key value : Text) (d : DhtDbase) :
    (d.insert dht key value).2 = if (key, value) ∈ d.puts then [] else d.clientsOf key := by
  rw [insert]
  by_cases h : (key, value) ∈ d.puts
  · rw [if_pos (mem_dhtGet.mpr h), if_pos h]
  · rw [if_neg (fun hm => h (mem_dhtGet.mp hm)), if_neg h]
    rfl

/-- A client that is detached is gone, and no other one came. -/
theorem mem_of_mem_detach {key client k c : Text} {d : DhtDbase} (h : c ∈ (d.detach key client).clientsOf k) :
    c ∈ d.clientsOf k := by
  unfold detach at h
  dsimp only at h
  split_ifs at h
  · change c ∈ ((d.clients.set key ((d.clientsOf key).erase client)).get? k).getD [] at h
    rw [Dict.get?_set] at h
    split_ifs at h with hk
    · rw [hk]
      exact List.mem_of_mem_erase h
    · exact h
  · exact h

/-! ### Listeners and what they are told -/

theorem mem_listeners_fetch (dht : Dht) (key client : Text) (d : DhtDbase) (k : Text) :
    k ∈ (d.fetch dht key client).1.listeners ↔ k = key ∨ k ∈ d.listeners := by
  change k ∈ (if key ∈ d.listeners then d.listeners else d.listeners ++ [key]) ↔ _
  split_ifs with hkey
  · refine ⟨Or.inr, ?_⟩
    rintro (rfl | hk)
    exacts [hkey, hk]
  · rw [List.mem_append, List.mem_singleton, or_comm]

@[simp] theorem insert_listeners (dht : Dht) (key value : Text) (d : DhtDbase) :
    (d.insert dht key value).1.listeners = d.listeners := by
  unfold insert
  split_ifs <;> rfl

@[simp] theorem remove_listeners (dht : Dht) (key value : Text) (d : DhtDbase) :
    (d.remove dht key value).1.listeners = d.listeners := by
  unfold remove dhtRemove
  dsimp only
  split_ifs <;> rfl

@[simp] theorem dhtValueCallback_listeners (key value : Text) (expired : Bool) (d : DhtDbase) :
    (d.dhtValueCallback key value expired).listeners = d.listeners := by
  unfold dhtValueCallback
  dsimp only
  split_ifs <;> rfl

@[simp] theorem dhtRepublish_listeners (event : ℕ) (d : DhtDbase) : (d.dhtRepublish event).listeners = d.listeners := by
  unfold dhtRepublish
  split <;> rfl

@[simp] theorem insert_updates (dht : Dht) (key value : Text) (d : DhtDbase) :
    (d.insert dht key value).1.updates = d.updates := by
  unfold insert
  split_ifs <;> rfl

@[simp] theorem remove_updates (dht : Dht) (key value : Text) (d : DhtDbase) :
    (d.remove dht key value).1.updates = d.updates := by
  unfold remove dhtRemove
  dsimp only
  split_ifs <;> rfl

@[simp] theorem detach_updates (key client : Text) (d : DhtDbase) : (d.detach key client).updates = d.updates := by
  unfold detach
  dsimp only
  split_ifs <;> rfl

@[simp] theorem dhtRepublish_updates (event : ℕ) (d : DhtDbase) : (d.dhtRepublish event).updates = d.updates := by
  unfold dhtRepublish
  split <;> rfl

@[simp] theorem insert_deletedMap (dht : Dht) (key value : Text) (d : DhtDbase) :
    (d.insert dht key value).1.deletedMap = d.deletedMap := by
  unfold insert
  split_ifs <;> rfl

@[simp] theorem detach_deletedMap (key client : Text) (d : DhtDbase) :
    (d.detach key client).deletedMap = d.deletedMap := by
  unfold detach
  dsimp only
  split_ifs <;> rfl

@[simp] theorem dhtRepublish_deletedMap (event : ℕ) (d : DhtDbase) :
    (d.dhtRepublish event).deletedMap = d.deletedMap := by
  unfold dhtRepublish
  split <;> rfl

/-- A value that was removed has its mark in the table. -/
theorem get?_remove_deletedMap (dht : Dht) {key value k v : Text} {d : DhtDbase}
    (h : (d.remove dht key value).1.deletedMap.get? k = some v) :
    d.deletedMap.get? k = some v ∨ (k, delValue v) ∈ (d.remove dht key value).1.puts := by
  rw [mem_remove_puts]
  unfold remove dhtRemove at h
  dsimp only at h
  split_ifs at h with hput
  · change (d.deletedMap.set key value).get? k = some v at h
    rw [Dict.get?_set] at h
    split_ifs at h with hk
    · obtain rfl := Option.some.inj h
      exact Or.inr (Or.inr ⟨by rw [hk], mem_dhtGet.mp hput⟩)
    · exact Or.inl h
  · exact Or.inl h

theorem mem_insert_republisher (dht : Dht) {key value : Text} {d : DhtDbase} {p : Text × Text}
    (h : p ∈ (d.insert dht key value).1.republisher.map) : p = (key, value) ∨ p ∈ d.republisher.map := by
  unfold insert at h
  split_ifs at h
  · exact Or.inr h
  · exact Republisher.mem_add.mp h

/-- What is told of a value that came: it is to be sent, unless it is the server's own, or was deleted last. -/
theorem dhtValueCallback_plain {key value : Text} {d : DhtDbase} (hplain : Plain value) :
    (d.dhtValueCallback key value false).deletedMap = d.deletedMap ∧
      (d.dhtValueCallback key value false).updates =
        if (key, value) ∈ d.republisher.map ∨ d.deletedMap.get? key = some value then d.updates
        else d.updates ++ [(key, value)] := by
  unfold dhtValueCallback
  rw [if_neg hplain.1]
  simp only [hplain.2, Bool.false_eq_true, false_or, if_false]
  split_ifs <;> exact ⟨rfl, rfl⟩

/-- What is told of a mark: the value is deleted, and updates are dropped. -/
theorem dhtValueCallback_mark (key value : Text) (d : DhtDbase) :
    (d.dhtValueCallback key (delValue value) false).deletedMap = d.deletedMap.set key value ∧
      (d.dhtValueCallback key (delValue value) false).updates =
        d.updates.filter fun u => u.1 ≠ key ∧ u.2 ≠ value := by
  unfold dhtValueCallback
  rw [if_neg (by simp [delValue])]
  simp only [isDelValue_delValue, true_or, or_true, if_true]
  exact ⟨rfl, rfl⟩

end DhtDbase

end Riaps.Discovery
