import Mathlib.Data.Sum.Basic
import Mathlib.Tactic.Common

/-!
# Loops

A loop is what one round of it does: it goes on in another state, or it is left with a
result. `Exits` says in which result a loop ends that begins in a state; there is none if
it never ends. Each rule takes a round off the loop, and `not_exits_of_inv` is for an
invariant of rounds that all go on.
-/

namespace Riaps.Foundation

universe u v

variable {σ : Type u} {ρ : Type v}

/-- The loop ends, in this result. -/
inductive Exits (round : σ → σ ⊕ ρ) : σ → ρ → Prop where
  | last {s : σ} {r : ρ} (h : round s = .inr r) : Exits round s r
  | next {s t : σ} {r : ρ} (h : round s = .inl t) (ht : Exits round t r) : Exits round s r

variable {round : σ → σ ⊕ ρ} {s : σ} {r : ρ}

theorem exits_of_inr {r' : ρ} (h : round s = .inr r') : Exits round s r ↔ r = r' := by
  constructor
  · intro hexits
    cases hexits with
    | last h' => exact Sum.inr.inj (h'.symm.trans h)
    | next h' _ => cases h'.symm.trans h
  · rintro rfl
    exact .last h

theorem exits_of_inl {t : σ} (h : round s = .inl t) : Exits round s r ↔ Exits round t r := by
  constructor
  · intro hexits
    cases hexits with
    | last h' => cases h'.symm.trans h
    | next h' ht =>
      obtain rfl := Sum.inl.inj (h'.symm.trans h)
      exact ht
  · exact .next h

/-- A loop whose rounds all go on does not end. -/
theorem not_exits_of_inv {I : σ → Prop} (hI : ∀ t, I t → ∃ u, round t = .inl u ∧ I u) (hs : I s) :
    ¬Exits round s r := by
  intro h
  induction h with
  | last hr =>
    obtain ⟨u, hu, -⟩ := hI _ hs
    cases hr.symm.trans hu
  | next ht _ ih =>
    obtain ⟨u, hu, hIu⟩ := hI _ hs
    obtain rfl := Sum.inl.inj (ht.symm.trans hu)
    exact ih hIu

end Riaps.Foundation
