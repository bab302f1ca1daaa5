import Mathlib.Data.List.Nodup
import Mathlib.Data.List.Dedup

/-!
# Dictionaries

A Python dictionary keeps its keys in the order in which they were first
inserted, each key once: assigning to a key that is present changes its value
in place, a new key goes to the end, `del` takes a key out. A `Dict` is the
list of its items together with the proof that no key occurs twice, so a
dictionary with a repeated key cannot be built.

Two views of a dictionary are used: its items in order, which is what a `for`
loop runs over, and the partial function `get?`. The lemmas say what each
operation does to the second.
-/

namespace Riaps.Foundation

universe u v

/-- A dictionary: its items in the order of insertion, no key twice. -/
structure Dict (K : Type u) (V : Type v) where
  /-- The items, in order. -/
  items : List (K × V)
  /-- No key occurs twice. -/
  nodup : (items.map Prod.fst).Nodup

namespace Dict

variable {K : Type u} {V : Type v}

@[ext] theorem ext {d e : Dict K V} (h : d.items = e.items) : d = e := by
  cases d; cases e; cases h; rfl

instance [DecidableEq K] [DecidableEq V] : DecidableEq (Dict K V) := fun d e =>
  decidable_of_iff (d.items = e.items) ⟨Dict.ext, fun h => h ▸ rfl⟩

/-- `{ }`. -/
def empty : Dict K V := ⟨[], List.nodup_nil⟩

/-- The keys, in order. -/
def keys (d : Dict K V) : List K := d.items.map Prod.fst

/-- `len(d)`. -/
def len (d : Dict K V) : ℕ := d.items.length

/-- `k in d`. -/
instance : Membership K (Dict K V) := ⟨fun d k => k ∈ d.keys⟩

theorem mem_iff_mem_keys {d : Dict K V} {k : K} : k ∈ d ↔ k ∈ d.keys := Iff.rfl

instance [DecidableEq K] (d : Dict K V) (k : K) : Decidable (k ∈ d) :=
  inferInstanceAs (Decidable (k ∈ d.keys))

@[simp] theorem not_mem_empty (k : K) : k ∉ (empty : Dict K V) := by
  simp [mem_iff_mem_keys, keys, empty]

theorem len_eq_length_keys (d : Dict K V) : d.len = d.keys.length := by simp [len, keys]

/-- `del d[k]`, for each key of a list. -/
def delAll [DecidableEq K] (d : Dict K V) (ks : List K) : Dict K V where
  items := d.items.filter fun i => i.1 ∉ ks
  nodup := d.nodup.sublist (List.filter_sublist.map _)

/-- The same keys, with each value changed. -/
def mapVals (f : V → V) (d : Dict K V) : Dict K V where
  items := d.items.map fun i => (i.1, f i.2)
  nodup := by
    rw [List.map_map]
    exact d.nodup

variable [DecidableEq K]

/-- The value at key `k`, if there is one. -/
def get? (d : Dict K V) (k : K) : Option V := (d.items.find? fun i => i.1 = k).map Prod.snd

@[simp] theorem get?_empty (k : K) : (empty : Dict K V).get? k = none := rfl

theorem get?_eq_some_iff {d : Dict K V} {k : K} {v : V} : d.get? k = some v ↔ (k, v) ∈ d.items := by
  constructor
  · intro h
    obtain ⟨⟨k', v'⟩, hf, rfl⟩ := Option.map_eq_some_iff.mp h
    obtain rfl : k' = k := by simpa using List.find?_some hf
    exact List.mem_of_find?_eq_some hf
  · intro h
    have hsome : (d.items.find? fun i => i.1 = k).isSome := List.find?_isSome.mpr ⟨_, h, by simp⟩
    obtain ⟨⟨k', v'⟩, hf⟩ := Option.isSome_iff_exists.mp hsome
    obtain rfl : k' = k := by simpa using List.find?_some hf
    have heq := List.inj_on_of_nodup_map d.nodup (List.mem_of_find?_eq_some hf) h rfl
    rw [get?, hf, heq]
    rfl

theorem get?_eq_none_iff {d : Dict K V} {k : K} : d.get? k = none ↔ k ∉ d := by
  rw [get?, Option.map_eq_none_iff, List.find?_eq_none, mem_iff_mem_keys, keys]
  constructor
  · rintro h hk
    obtain ⟨i, hi, rfl⟩ := List.mem_map.mp hk
    exact h i hi (by simp)
  · intro h i hi hik
    exact h (List.mem_map.mpr ⟨i, hi, by simpa using hik⟩)

theorem mem_iff_exists_get? {d : Dict K V} {k : K} : k ∈ d ↔ ∃ v, d.get? k = some v := by
  rw [← not_iff_not, ← get?_eq_none_iff, ← Option.ne_none_iff_exists', not_not]

theorem mem_of_get? {d : Dict K V} {k : K} {v : V} (h : d.get? k = some v) : k ∈ d :=
  mem_iff_exists_get?.mpr ⟨v, h⟩

/-- What a function finds at key `k`, of all it finds in the items: what it finds in the value there. -/
theorem filterMap_items {W : Type*} (d : Dict K V) (k : K) (f : V → Option W) :
    (d.items.filterMap fun i => if i.1 = k then f i.2 else none) = ((d.get? k).bind f).toList := by
  rcases d with ⟨items, hnodup⟩
  unfold get?
  simp only
  induction items with
  | nil => rfl
  | cons i items ih =>
    rw [List.map_cons, List.nodup_cons] at hnodup
    rw [List.filterMap_cons, List.find?_cons, ih hnodup.2]
    by_cases hi : i.1 = k
    · have hno : (items.find? fun j => j.1 = k) = none := by
        rw [List.find?_eq_none]
        intro j hj hjk
        exact hnodup.1 (List.mem_map.mpr ⟨j, hj, (of_decide_eq_true hjk).trans hi.symm⟩)
      simp only [hi, if_true, hno, Option.map_none, Option.bind_none, Option.toList_none, decide_true, Option.map_some,
        Option.bind_some]
      cases f i.2 <;> rfl
    · simp [hi]

/-! ### Assignment -/

/-- The items after `d[k] = v`. -/
def setItems (k : K) (v : V) : List (K × V) → List (K × V)
  | [] => [(k, v)]
  | i :: is => if i.1 = k then (k, v) :: is else i :: setItems k v is

theorem keys_setItems (k : K) (v : V) (is : List (K × V)) :
    (setItems k v is).map Prod.fst =
      if k ∈ is.map Prod.fst then is.map Prod.fst else is.map Prod.fst ++ [k] := by
  induction is with
  | nil => simp [setItems]
  | cons i is ih =>
    rw [setItems]
    by_cases h : i.1 = k
    · simp [h]
    · rw [if_neg h, List.map_cons, ih]
      by_cases hk : k ∈ is.map Prod.fst
      · rw [if_pos hk, if_pos (by simp only [List.map_cons, List.mem_cons, hk, or_true]), List.map_cons]
      · rw [if_neg hk, if_neg (by simp only [List.map_cons, List.mem_cons, hk, or_false]; exact Ne.symm h)]
        rfl

theorem find?_setItems (k : K) (v : V) (is : List (K × V)) (j : K) :
    ((setItems k v is).find? fun i => i.1 = j).map Prod.snd =
      if j = k then some v else (is.find? fun i => i.1 = j).map Prod.snd := by
  induction is with
  | nil =>
    by_cases hj : j = k
    · simp [setItems, hj]
    · simp [setItems, hj, Ne.symm hj]
  | cons i is ih =>
    rw [setItems]
    by_cases h : i.1 = k
    · by_cases hj : j = k
      · simp [h, hj]
      · simp [h, hj, Ne.symm hj]
    · rw [if_neg h, List.find?_cons]
      by_cases hij : i.1 = j
      · have hj : j ≠ k := fun e => h (hij.trans e)
        simp [hij, hj]
      · simp [hij, ih]

/-- `d[k] = v`. -/
def set (d : Dict K V) (k : K) (v : V) : Dict K V where
  items := setItems k v d.items
  nodup := by
    rw [keys_setItems]
    split_ifs with h
    · exact d.nodup
    · exact d.nodup.append (List.nodup_singleton k) (by simpa using h)

theorem keys_set (d : Dict K V) (k : K) (v : V) :
    (d.set k v).keys = if k ∈ d then d.keys else d.keys ++ [k] := keys_setItems k v d.items

theorem get?_set (d : Dict K V) (k j : K) (v : V) :
    (d.set k v).get? j = if j = k then some v else d.get? j := find?_setItems k v d.items j

@[simp] theorem get?_set_self (d : Dict K V) (k : K) (v : V) : (d.set k v).get? k = some v := by simp [get?_set]

@[simp] theorem mem_set {d : Dict K V} {k j : K} {v : V} : j ∈ d.set k v ↔ j = k ∨ j ∈ d := by
  rw [mem_iff_exists_get?, mem_iff_exists_get?, get?_set]
  by_cases h : j = k <;> simp [h]

/-- Assigning to a key that is present adds none. -/
theorem mem_of_mem_set {d : Dict K V} {k j : K} {v : V} (hk : k ∈ d) (h : j ∈ d.set k v) : j ∈ d := by
  rcases mem_set.mp h with rfl | h
  exacts [hk, h]

theorem get?_set_of_ne (d : Dict K V) {k j : K} (v : V) (h : j ≠ k) : (d.set k v).get? j = d.get? j := by
  simp [get?_set, h]

theorem get?_set_eq_some {d : Dict K V} {k j : K} {v w : V} :
    (d.set k v).get? j = some w ↔ j = k ∧ w = v ∨ j ≠ k ∧ d.get? j = some w := by
  rw [get?_set]
  by_cases h : j = k
  · simp [h, eq_comm]
  · simp [h]

/-! ### Deletion -/

/-- `del d[k]`, for a key that is present (nothing otherwise: the callers check). -/
def del (d : Dict K V) (k : K) : Dict K V := d.delAll [k]

theorem get?_delAll (d : Dict K V) (ks : List K) (j : K) :
    (d.delAll ks).get? j = if j ∈ ks then none else d.get? j := by
  by_cases h : j ∈ ks
  · rw [if_pos h, get?_eq_none_iff]
    intro hj
    obtain ⟨i, hi, rfl⟩ := List.mem_map.mp hj
    simpa [h] using (List.mem_filter.mp hi).2
  · rw [if_neg h]
    ext v
    rw [get?_eq_some_iff, get?_eq_some_iff, delAll, List.mem_filter]
    simp [h]

theorem get?_del (d : Dict K V) (k j : K) : (d.del k).get? j = if j = k then none else d.get? j := by
  simp [del, get?_delAll]

theorem mem_delAll {d : Dict K V} {ks : List K} {j : K} : j ∈ d.delAll ks ↔ j ∈ d ∧ j ∉ ks := by
  rw [mem_iff_exists_get?, mem_iff_exists_get?, get?_delAll]
  by_cases h : j ∈ ks <;> simp [h]

theorem mem_del {d : Dict K V} {k j : K} : j ∈ d.del k ↔ j ∈ d ∧ j ≠ k := by simp [del, mem_delAll]

/-! ### Items in any order -/

omit [DecidableEq K] in
theorem nodup_items (d : Dict K V) : d.items.Nodup := d.nodup.of_map Prod.fst

/-- Without the key there is an item less. -/
theorem items_perm_del {d : Dict K V} {k : K} {v : V} (h : d.get? k = some v) :
    d.items.Perm ((k, v) :: (d.del k).items) := by
  have hnot : (k, v) ∉ (d.del k).items := by
    rw [← get?_eq_some_iff, get?_del, if_pos rfl]
    simp
  refine (List.perm_ext_iff_of_nodup d.nodup_items ((d.del k).nodup_items.cons hnot)).mpr fun i => ?_
  obtain ⟨j, w⟩ := i
  rw [List.mem_cons, ← get?_eq_some_iff, ← get?_eq_some_iff, get?_del, Prod.mk.injEq]
  by_cases hj : j = k
  · simp [hj, h, eq_comm]
  · simp [hj]

/-- With it there is one of it. -/
theorem items_set_perm (d : Dict K V) (k : K) (v : V) : (d.set k v).items.Perm ((k, v) :: (d.del k).items) := by
  have hdel : ((d.set k v).del k).items.Perm (d.del k).items := by
    refine (List.perm_ext_iff_of_nodup (nodup_items _) (nodup_items _)).mpr fun i => ?_
    obtain ⟨j, w⟩ := i
    rw [← get?_eq_some_iff, ← get?_eq_some_iff, get?_del, get?_del, get?_set]
    by_cases hj : j = k <;> simp [hj]
  exact (items_perm_del (d.get?_set_self k v)).trans (hdel.cons _)

theorem del_of_notMem {d : Dict K V} {k : K} (h : k ∉ d) : d.del k = d := by
  refine ext (List.filter_eq_self.mpr fun i hi => ?_)
  have hne : i.1 ≠ k := fun he => h (List.mem_map.mpr ⟨i, hi, he⟩)
  simpa using hne

omit [DecidableEq K] in
theorem eq_empty_iff {d : Dict K V} : d = empty ↔ d.keys = [] := by
  rw [keys, List.map_eq_nil_iff]
  exact ⟨fun h => h ▸ rfl, fun h => ext h⟩

/-- The order does not matter. -/
theorem delAll_congr (d : Dict K V) {ks ks' : List K} (h : ∀ k, k ∈ ks ↔ k ∈ ks') : d.delAll ks = d.delAll ks' :=
  ext (List.filter_congr fun i _ => by simp only [h])

@[simp] theorem delAll_nil (d : Dict K V) : d.delAll [] = d := ext (by simp [delAll])

theorem delAll_delAll (d : Dict K V) (ks ks' : List K) : (d.delAll ks).delAll ks' = d.delAll (ks ++ ks') := by
  refine ext ?_
  simp only [delAll, List.filter_filter]
  refine List.filter_congr fun i _ => ?_
  simp [Bool.and_comm]

theorem del_delAll (d : Dict K V) (k : K) (ks : List K) : (d.del k).delAll ks = d.delAll (k :: ks) :=
  d.delAll_delAll [k] ks

theorem delAll_keys (d : Dict K V) : d.delAll d.keys = empty := by
  refine ext (List.filter_eq_nil_iff.mpr fun i hi => ?_)
  have hkey : i.1 ∈ d.keys := List.mem_map_of_mem hi
  simpa using hkey

@[simp] theorem delAll_empty (ks : List K) : (empty : Dict K V).delAll ks = empty := rfl

end Dict

end Riaps.Foundation
