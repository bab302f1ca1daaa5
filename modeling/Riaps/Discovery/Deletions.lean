import Riaps.Foundation.Runs
import Riaps.Discovery.Fetching

/-!
# Notices of deletions

A listener is told that a value of its key was deleted, by the mark of the value, or has
expired. An update of that value which is pending is to be dropped. What is dropped is
every update of the key, whatever its value, and every update of the value, whatever its
key: `dropsOnly_iff`.

Values that were deleted are not announced again. The database remembers one deleted value
of each key, the last one, so that an earlier one comes back: `suppressed_iff`.
-/

namespace Riaps.Discovery

open Riaps.Foundation

namespace DhtDbase

/-! ### What is dropped -/

/-- The listener of the key is told that the value is gone, by its mark or since it has expired. -/
def IsNotice (value : Text) (expired : Bool) : Prop := expired = true ∨ isDelValue value = true

/-- A notice drops the pending update of its key and value, and no other one. -/
def DropsOnly (d : DhtDbase) (key value : Text) (expired : Bool) : Prop :=
  (d.dhtValueCallback key value expired).updates = d.updates.filter (· ≠ (key, orgValue value))

/-- No other update that is pending has the key, and none has the value. An empty value is not
looked at, so that it is not to be pending. -/
def NoneAlike (d : DhtDbase) (key value : Text) : Prop :=
  if value = [] then (key, value) ∉ d.updates
  else ∀ u ∈ d.updates, u ≠ (key, orgValue value) → u.1 ≠ key ∧ u.2 ≠ orgValue value

/-- Filters that keep the same of a list. -/
theorem filter_eq_filter_iff {α : Type*} {p q : α → Bool} {l : List α} :
    l.filter p = l.filter q ↔ ∀ a ∈ l, p a = q a := by
  refine ⟨fun h a ha => ?_, List.filter_congr⟩
  have hmem : a ∈ l.filter p ↔ a ∈ l.filter q := by rw [h]
  simpa [ha] using hmem

theorem dhtValueCallback_nil (key : Text) (expired : Bool) (d : DhtDbase) :
    d.dhtValueCallback key [] expired = d := by
  rw [dhtValueCallback, if_pos rfl]

/-- What a notice does. -/
theorem dhtValueCallback_notice {key value : Text} {expired : Bool} {d : DhtDbase} (hvalue : value ≠ [])
    (h : IsNotice value expired) :
    (d.dhtValueCallback key value expired).deletedMap = d.deletedMap.set key (orgValue value) ∧
      (d.dhtValueCallback key value expired).updates =
        d.updates.filter fun u => u.1 ≠ key ∧ u.2 ≠ orgValue value := by
  unfold dhtValueCallback
  have hpass : expired ∨ isDelValue value ∨ (key, value) ∈ d.republisher.map ∨ d.deletedMap.get? key = some value :=
    h.elim Or.inl fun hdel => Or.inr (Or.inl hdel)
  rw [if_neg hvalue, if_pos hpass]
  dsimp only
  rw [if_pos (show expired = true ∨ isDelValue value = true from h)]
  exact ⟨rfl, rfl⟩

/-- A notice drops its own update only, exactly if no other one has its key or its value. -/
theorem dropsOnly_iff {key value : Text} {expired : Bool} (d : DhtDbase) (h : IsNotice value expired) :
    DropsOnly d key value expired ↔ NoneAlike d key value := by
  rw [DropsOnly, NoneAlike]
  split_ifs with hvalue
  · subst hvalue
    rw [dhtValueCallback_nil, eq_comm, List.filter_eq_self]
    exact ⟨fun hall hmem => absurd rfl (of_decide_eq_true (hall _ hmem)),
      fun hno u hu => decide_eq_true fun he => hno (he ▸ hu)⟩
  · rw [(dhtValueCallback_notice hvalue h).2, filter_eq_filter_iff]
    refine forall₂_congr fun u _ => ?_
    rw [decide_eq_decide]
    constructor
    · exact fun hiff => hiff.mpr
    · refine fun himp => ⟨fun hu he => ?_, himp⟩
      exact hu.1 (congrArg Prod.fst he)

/-! ### What is suppressed -/

/-- What may happen: a call on the database, or that another host puts a value into the table. -/
inductive TableOp where
  | call (c : Call)
  | otherPut (key value : Text)
  deriving DecidableEq

variable (dht : Dht)

/-- It happens. -/
def stepTable (d : DhtDbase) : TableOp → DhtDbase
  | .call c => step dht d c
  | .otherPut key value => d.dhtPut key value

/-- The value that this deletes, with its key: the listener was told so, or it was there and is removed. -/
def deletes (d : DhtDbase) : TableOp → List (Text × Text)
  | .call (.dhtValueCallback key value expired) =>
    if value ≠ [] ∧ (expired = true ∨ isDelValue value = true) then [(key, orgValue value)] else []
  | .call (.remove key value) => if value ∈ d.dhtGet dht key then [(key, value)] else []
  | _ => []

/-- The values that a history has deleted, the last one at the end. -/
def deletions (ops : List TableOp) : List (Text × Text) := collect (stepTable dht) (deletes dht) init ops

/-- The last value of a key. -/
def lastOf (l : List (Text × Text)) (key : Text) : Option Text := (l.reverse.find? fun p => p.1 = key).map Prod.snd

@[simp] theorem lastOf_nil (key : Text) : lastOf [] key = none := rfl

@[simp] theorem lastOf_concat (l : List (Text × Text)) (p : Text × Text) (key : Text) :
    lastOf (l ++ [p]) key = if key = p.1 then some p.2 else lastOf l key := by
  rw [lastOf, List.reverse_append, List.reverse_singleton, List.singleton_append, List.find?_cons]
  by_cases h : key = p.1
  · simp [h]
  · simp [h, Ne.symm h, lastOf]

theorem mem_of_lastOf {l : List (Text × Text)} {key value : Text} (h : lastOf l key = some value) :
    (key, value) ∈ l := by
  obtain ⟨p, hp, rfl⟩ := Option.map_eq_some_iff.mp h
  have hkey := List.find?_some hp
  obtain rfl := of_decide_eq_true hkey
  exact List.mem_reverse.mp (List.mem_of_find?_eq_some hp)

/-- What removing a value does to the memory. -/
theorem remove_deletedMap (key value : Text) (d : DhtDbase) :
    (d.remove dht key value).1.deletedMap =
      if value ∈ d.dhtGet dht key then d.deletedMap.set key value else d.deletedMap := by
  change (if value ∈ d.dhtGet dht key then _ else _ : DhtDbase).deletedMap = _
  split_ifs <;> rfl

/-- The memory has the last value of each key that was deleted. -/
def Remembers (d : DhtDbase) (deleted : List (Text × Text)) : Prop :=
  ∀ key, d.deletedMap.get? key = lastOf deleted key

theorem Remembers.step {d : DhtDbase} {l : List (Text × Text)} (h : Remembers d l) (op : TableOp) :
    Remembers (stepTable dht d op) (l ++ deletes dht d op) := by
  intro key
  cases op with
  | otherPut k v => simpa [stepTable, dhtPut, deletes] using h key
  | call c =>
    cases c with
    | insert k v => simpa [stepTable, DhtDbase.step, deletes] using h key
    | fetch k c => simpa [stepTable, DhtDbase.step, fetch, dhtAddClient, deletes] using h key
    | detach k c => simpa [stepTable, DhtDbase.step, deletes] using h key
    | fetchUpdates => simpa [stepTable, DhtDbase.step, fetchUpdates, deletes] using h key
    | dhtRepublish event => simpa [stepTable, DhtDbase.step, deletes] using h key
    | remove k v =>
      rw [stepTable, DhtDbase.step, remove_deletedMap, deletes]
      split_ifs
      · rw [Dict.get?_set, lastOf_concat, h]
      · rw [List.append_nil, h]
    | dhtValueCallback k v expired =>
      rw [stepTable, DhtDbase.step, deletes]
      by_cases hv : v = []
      · subst hv
        simpa [dhtValueCallback_nil] using h key
      · by_cases hnotice : IsNotice v expired
        · rw [(dhtValueCallback_notice hv hnotice).1, if_pos ⟨hv, hnotice⟩, Dict.get?_set, lastOf_concat, h]
        · obtain ⟨hexpired, hdel⟩ := not_or.mp hnotice
          rw [if_neg fun hboth => hnotice hboth.2, List.append_nil, ← h]
          rw [Bool.not_eq_true] at hexpired hdel
          rw [hexpired, (dhtValueCallback_plain ⟨hv, hdel⟩).1]

theorem remembers_run (ops : List TableOp) : Remembers (run (stepTable dht) init ops) (deletions dht ops) := by
  have hstart : Remembers init [] := fun key => by simp [init]
  exact AllSteps.inv_collect (I := Remembers) (stepTable dht) (deletes dht) (C := fun _ _ => True)
    (fun _ op _ h _ => h.step dht op) hstart (AllSteps.of_forall (fun _ _ => trivial) init ops)

/-- A value that is announced is not passed on. -/
def Suppressed (d : DhtDbase) (key value : Text) : Prop :=
  (d.dhtValueCallback key value false).updates = d.updates

/-- What is suppressed: a value of the server's own, and the last deleted one of its key. -/
theorem suppressed_run_iff (ops : List TableOp) {key value : Text} (hplain : Plain value) :
    Suppressed (run (stepTable dht) init ops) key value ↔
      (key, value) ∈ (run (stepTable dht) init ops).republisher.map ∨
        lastOf (deletions dht ops) key = some value := by
  rw [Suppressed, (dhtValueCallback_plain hplain).2, remembers_run]
  split_ifs with h
  · exact iff_of_true rfl h
  · exact iff_of_false (by simp) h

/-- A value is suppressed if it was deleted or is the server's own, and only then, exactly if it was
not deleted, or is the server's own, or was the last of its key to be deleted. -/
theorem suppressed_iff (ops : List TableOp) {key value : Text} (hplain : Plain value) :
    (Suppressed (run (stepTable dht) init ops) key value ↔
        (key, value) ∈ deletions dht ops ∨ (key, value) ∈ (run (stepTable dht) init ops).republisher.map) ↔
      ((key, value) ∈ deletions dht ops → (key, value) ∈ (run (stepTable dht) init ops).republisher.map ∨
        lastOf (deletions dht ops) key = some value) := by
  rw [suppressed_run_iff dht ops hplain]
  have hmem : lastOf (deletions dht ops) key = some value → (key, value) ∈ deletions dht ops := mem_of_lastOf
  tauto

/-- **Notices of deletions are local** where they meet nothing alike: a notice drops its own update only exactly
if no other one pending has its key or its value, and a deleted value is suppressed as it should be exactly if it
was the last of its key, unless it is the server's own. -/
theorem notices_local_iff :
    (∀ (d : DhtDbase) (key value : Text) (expired : Bool), IsNotice value expired →
        (DropsOnly d key value expired ↔ NoneAlike d key value)) ∧
      ∀ (ops : List TableOp) (key value : Text), Plain value →
        ((Suppressed (run (stepTable dht) init ops) key value ↔
            (key, value) ∈ deletions dht ops ∨ (key, value) ∈ (run (stepTable dht) init ops).republisher.map) ↔
          ((key, value) ∈ deletions dht ops → (key, value) ∈ (run (stepTable dht) init ops).republisher.map ∨
            lastOf (deletions dht ops) key = some value)) :=
  ⟨fun d _ _ _ h => dropsOnly_iff d h, fun ops _ _ hplain => suppressed_iff dht ops hplain⟩

/-- The update that is pending is dropped, and the value that was deleted is announced no more. -/
theorem notices_local_one :
    DropsOnly (run (stepTable .inOrder) init [.call (.dhtValueCallback ['k'] ['v'] false)]) ['k'] ['-', 'v'] false ∧
      (Suppressed (run (stepTable .inOrder) init [.call (.dhtValueCallback ['k'] ['-', 'v'] false)]) ['k'] ['v'] ↔
        (['k'], ['v']) ∈ deletions .inOrder [.call (.dhtValueCallback ['k'] ['-', 'v'] false)] ∨
          (['k'], ['v']) ∈
            (run (stepTable .inOrder) init [.call (.dhtValueCallback ['k'] ['-', 'v'] false)]).republisher.map) :=
  ⟨((notices_local_iff .inOrder).1 _ ['k'] ['-', 'v'] false (Or.inr rfl)).mpr fun u hu hne => by
      obtain rfl := List.mem_singleton.mp hu
      exact absurd rfl hne,
    ((notices_local_iff .inOrder).2 _ ['k'] ['v'] (by decide)).mpr fun _ => Or.inr (by decide +kernel)⟩

/-- Two values of a key are pending when the first of them is deleted, and both are dropped; and of two
values that are deleted the first is announced again. -/
theorem not_notices_local :
    ¬ DropsOnly
        (run (stepTable .inOrder) init
          [.call (.dhtValueCallback ['k'] ['v'] false), .call (.dhtValueCallback ['k'] ['w'] false)])
        ['k'] ['-', 'v'] false ∧
      ¬ (Suppressed
          (run (stepTable .inOrder) init
            [.call (.dhtValueCallback ['k'] ['-', 'v'] false), .call (.dhtValueCallback ['k'] ['-', 'w'] false)])
          ['k'] ['v'] ↔
        (['k'], ['v']) ∈ deletions .inOrder
            [.call (.dhtValueCallback ['k'] ['-', 'v'] false), .call (.dhtValueCallback ['k'] ['-', 'w'] false)] ∨
          (['k'], ['v']) ∈ (run (stepTable .inOrder) init
            [.call (.dhtValueCallback ['k'] ['-', 'v'] false),
              .call (.dhtValueCallback ['k'] ['-', 'w'] false)]).republisher.map) := by
  refine ⟨fun h => ?_, fun h => ?_⟩
  · unfold DropsOnly at h
    exact absurd h (by decide +kernel)
  · have hsup := h.mpr (Or.inl (by decide +kernel))
    unfold Suppressed at hsup
    exact absurd hsup (by decide +kernel)

end DhtDbase

end Riaps.Discovery
