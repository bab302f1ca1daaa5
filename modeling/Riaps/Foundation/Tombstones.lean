import Mathlib.Data.Set.Insert
import Mathlib.Data.List.Basic
import Mathlib.Data.List.Induction
import Riaps.Foundation.Runs

/-!
# Sets with deletion marks

A store that forgets nothing cannot delete. It can keep, beside the elements
that were inserted, marks of those that were removed, and show the elements
without a mark. A mark is set when the element is there, and it is never taken
back.

What such a store stands for is a set, whose elements are those that were
inserted last and not removed since. `mem_visible_run_iff` says what it shows,
and `mem_visible_iff_latestInsert` how far the two agree: on every element but
those that were inserted again after a removal.
-/

namespace Riaps.Foundation

universe u

variable {α : Type u}

/-- An operation on a set. -/
inductive SetOp (α : Type u) where
  /-- An element is inserted. -/
  | insert (a : α)
  /-- An element is removed. -/
  | remove (a : α)
  deriving DecidableEq

namespace SetOp

/-- The element. -/
def elem : SetOp α → α
  | .insert a | .remove a => a

@[simp] theorem elem_insert (a : α) : (SetOp.insert a).elem = a := rfl

@[simp] theorem elem_remove (a : α) : (SetOp.remove a).elem = a := rfl

/-- `a` was inserted and later removed. -/
def Revoked (ops : List (SetOp α)) (a : α) : Prop := List.Sublist [.insert a, .remove a] ops

theorem revoked_concat (ops : List (SetOp α)) (op : SetOp α) (a : α) :
    Revoked (ops ++ [op]) a ↔ Revoked ops a ∨ op = .remove a ∧ .insert a ∈ ops := by
  have hrev : ∀ l : List (SetOp α), Revoked l a ↔ List.Sublist [.remove a, .insert a] l.reverse := by
    intro l
    rw [Revoked, ← List.reverse_sublist]
    rfl
  rw [hrev, hrev, List.reverse_append, List.reverse_singleton, List.singleton_append, List.cons_sublist_cons',
    List.singleton_sublist, List.mem_reverse, eq_comm (a := SetOp.remove a)]

section Latest

variable [DecidableEq α]

/-- The latest operation on `a`. -/
def latest (ops : List (SetOp α)) (a : α) : Option (SetOp α) := ops.reverse.find? fun op => op.elem = a

theorem latest_concat (ops : List (SetOp α)) (op : SetOp α) (a : α) :
    latest (ops ++ [op]) a = if op.elem = a then some op else latest ops a := by
  rw [latest, List.reverse_append, List.reverse_singleton, List.singleton_append, List.find?_cons]
  by_cases h : op.elem = a
  · simp [h]
  · simp [h, latest]

/-- The latest operation on `a` was an insertion. -/
def LatestInsert (ops : List (SetOp α)) (a : α) : Prop := latest ops a = some (.insert a)

instance (ops : List (SetOp α)) (a : α) : Decidable (LatestInsert ops a) :=
  inferInstanceAs (Decidable (latest ops a = some (.insert a)))

instance (ops : List (SetOp α)) (a : α) : Decidable (Revoked ops a) :=
  inferInstanceAs (Decidable (List.Sublist [.insert a, .remove a] ops))

theorem latestInsert_concat (ops : List (SetOp α)) (op : SetOp α) (a : α) :
    LatestInsert (ops ++ [op]) a ↔ op = .insert a ∨ op.elem ≠ a ∧ LatestInsert ops a := by
  rw [LatestInsert, latest_concat]
  by_cases h : op.elem = a
  · rw [if_pos h, Option.some.injEq]
    exact ⟨Or.inl, fun h' => h'.resolve_right fun hne => hne.1 h⟩
  · rw [if_neg h]
    refine ⟨fun hl => Or.inr ⟨h, hl⟩, fun h' => ?_⟩
    rcases h' with rfl | ⟨-, hl⟩
    · exact absurd rfl h
    · exact hl

theorem LatestInsert.mem {ops : List (SetOp α)} {a : α} (h : LatestInsert ops a) : .insert a ∈ ops :=
  List.mem_reverse.mp (List.mem_of_find?_eq_some h)

/-- What was inserted and not removed after that was inserted last. -/
theorem latestInsert_of_not_revoked {ops : List (SetOp α)} {a : α} (h : .insert a ∈ ops)
    (hr : ¬ Revoked ops a) : LatestInsert ops a := by
  induction ops using List.reverseRecOn with
  | nil => simp at h
  | append_singleton ops op ih =>
    rw [revoked_concat, not_or] at hr
    rw [latestInsert_concat]
    by_cases hop : op = .insert a
    · exact Or.inl hop
    have hmem : .insert a ∈ ops := by
      rcases List.mem_append.mp h with h | h
      · exact h
      · exact absurd (List.mem_singleton.mp h).symm hop
    refine Or.inr ⟨fun he => ?_, ih hmem hr.1⟩
    cases op with
    | insert b => exact hop (congrArg SetOp.insert he)
    | remove b => exact hr.2 ⟨congrArg SetOp.remove he, hmem⟩

end Latest

end SetOp

/-! ### Elements and marks -/

/-- The elements that were inserted, and those that were marked as removed. -/
structure Marked (α : Type u) where
  /-- The elements. -/
  added : Set α
  /-- The marks. -/
  removed : Set α

namespace Marked

/-- Nothing yet. -/
def empty : Marked α := ⟨∅, ∅⟩

/-- What an operation does: an element is added, an element that is there is marked. -/
def step (m : Marked α) : SetOp α → Marked α
  | .insert a => { m with added := insert a m.added }
  | .remove a => { m with removed := { b | b ∈ m.removed ∨ b = a ∧ a ∈ m.added } }

/-- The elements without a mark. -/
def visible (m : Marked α) : Set α := m.added \ m.removed

theorem mem_added_run (ops : List (SetOp α)) (a : α) : a ∈ (run step empty ops).added ↔ .insert a ∈ ops := by
  induction ops using List.reverseRecOn with
  | nil => simp [empty]
  | append_singleton ops op ih =>
    rw [run_append, List.mem_append, List.mem_singleton, ← ih]
    cases op with
    | insert b => simp [step, or_comm]
    | remove b => simp [step]

theorem mem_removed_run (ops : List (SetOp α)) (a : α) :
    a ∈ (run step empty ops).removed ↔ SetOp.Revoked ops a := by
  induction ops using List.reverseRecOn with
  | nil => simp [empty, SetOp.Revoked]
  | append_singleton ops op ih =>
    rw [run_append, SetOp.revoked_concat, ← ih]
    cases op with
    | insert b => simp [step]
    | remove b =>
      simp only [run_cons, run_nil, step, Set.mem_ofPred_eq, SetOp.remove.injEq, ← mem_added_run]
      constructor
      · rintro (h | ⟨rfl, h⟩)
        exacts [Or.inl h, Or.inr ⟨rfl, h⟩]
      · rintro (h | ⟨rfl, h⟩)
        exacts [Or.inl h, Or.inr ⟨rfl, h⟩]

/-- What the store shows: what was inserted and not removed after that. -/
theorem mem_visible_run_iff (ops : List (SetOp α)) (a : α) :
    a ∈ (run step empty ops).visible ↔ .insert a ∈ ops ∧ ¬ SetOp.Revoked ops a := by
  rw [visible, Set.mem_sdiff, mem_added_run, mem_removed_run]

/-- **How far a store with marks is a set**: it shows an element exactly if the latest operation
on it was an insertion, unless that insertion came after a removal. -/
theorem mem_visible_iff_latestInsert [DecidableEq α] (ops : List (SetOp α)) (a : α) :
    (a ∈ (run step empty ops).visible ↔ SetOp.LatestInsert ops a) ↔
      (SetOp.LatestInsert ops a → ¬ SetOp.Revoked ops a) := by
  rw [mem_visible_run_iff]
  constructor
  · intro h hl
    exact (h.mpr hl).2
  · intro h
    exact ⟨fun hv => SetOp.latestInsert_of_not_revoked hv.1 hv.2, fun hl => ⟨hl.mem, h hl⟩⟩

end Marked

end Riaps.Foundation
