import Mathlib.Logic.Function.Basic
import Mathlib.Data.List.Basic
import Mathlib.Data.List.Infix
import Mathlib.Tactic.Common

/-!
# One sequence out of many

Sources have items to give, each its own in an order, and what they give is one sequence, in which an
item is beside its source. `ofSource i` are the items that are of source `i`. `Interleaves` says that
what has been given and what each source has left are what it had: nothing is lost or given twice, and
the items of a source are in its order. It is a rule of one step, `Interleaves.give`, and `Interleaves.all`
has what follows for a source with nothing left.
-/

namespace Riaps.Foundation

universe u v

variable {ι : Type u} {μ : Type v} [DecidableEq ι]

/-- What is of a source, in order. -/
def ofSource (i : ι) (given : List (ι × μ)) : List μ := (given.filter fun p => p.1 = i).map Prod.snd

@[simp] theorem ofSource_nil (i : ι) : ofSource i ([] : List (ι × μ)) = [] := rfl

@[simp] theorem ofSource_append (i : ι) (l m : List (ι × μ)) : ofSource i (l ++ m) = ofSource i l ++ ofSource i m := by
  rw [ofSource, List.filter_append, List.map_append]
  rfl

@[simp] theorem ofSource_singleton_self (i : ι) (x : μ) : ofSource i [(i, x)] = [x] := by simp [ofSource]

theorem ofSource_singleton_ne {i j : ι} (h : i ≠ j) (x : μ) : ofSource j [(i, x)] = [] := by simp [ofSource, h]

theorem mem_ofSource {i : ι} {x : μ} {given : List (ι × μ)} : x ∈ ofSource i given ↔ (i, x) ∈ given := by
  simp [ofSource]

theorem ofSource_mono {l m : List (ι × μ)} (h : l <+: m) (i : ι) : ofSource i l <+: ofSource i m := by
  obtain ⟨t, rfl⟩ := h
  rw [ofSource_append]
  exact List.prefix_append _ _

/-- What has been given and what each source has left are what the sources had. -/
def Interleaves (whole : ι → List μ) (given : List (ι × μ)) (left : ι → List μ) : Prop :=
  ∀ i, ofSource i given ++ left i = whole i

namespace Interleaves

variable {whole left left' : ι → List μ} {given : List (ι × μ)} {i : ι}

protected theorem nil : Interleaves whole [] whole := fun _ => rfl

/-- A source gives the first that it has left. -/
theorem give {x : μ} (h : Interleaves whole given left) (hi : left i = x :: left' i)
    (hother : ∀ j, j ≠ i → left' j = left j) : Interleaves whole (given ++ [(i, x)]) left' := by
  intro j
  by_cases hj : i = j
  · subst hj
    rw [ofSource_append, ofSource_singleton_self, List.append_assoc, List.singleton_append, ← hi]
    exact h i
  · rw [ofSource_append, ofSource_singleton_ne hj, List.append_nil, hother j (Ne.symm hj)]
    exact h j

theorem prefix_whole (h : Interleaves whole given left) (i : ι) : ofSource i given <+: whole i := ⟨_, h i⟩

/-- Of a source with nothing left, everything has been given. -/
theorem all (h : Interleaves whole given left) (hi : left i = []) : ofSource i given = whole i := by
  rw [← h i, hi, List.append_nil]

end Interleaves

end Riaps.Foundation
