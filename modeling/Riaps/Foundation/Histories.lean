import Riaps.Foundation.Dict

/-!
# What a history leaves open

Some entries of a history open something and some close it. It is open at the
end if an entry opened it and none after that one closed it (`IsOpen`).

A component may keep a table of what each of its users has open. `Tracks` says
that nothing open is missing from the table: entries that open nothing may drop
what they close (`Tracks.append`), and what an entry opens is to be entered
(`Tracks.concat`).
-/

namespace Riaps.Foundation

universe u v w

variable {β : Type w}

/-- An entry of the history opened it, and none after that one closed it. -/
def IsOpen (opens closes : β → Prop) (history : List β) : Prop :=
  ∃ pre b post, history = pre ++ b :: post ∧ opens b ∧ ∀ c ∈ post, ¬ closes c

variable {opens closes : β → Prop}

theorem not_isOpen_nil : ¬ IsOpen opens closes [] := by
  rintro ⟨pre, b, post, h, -⟩
  simp at h

/-- What is open after more entries: what they leave open, and what was open and they do not close. -/
theorem isOpen_append {l m : List β} :
    IsOpen opens closes (l ++ m) ↔ IsOpen opens closes m ∨ IsOpen opens closes l ∧ ∀ c ∈ m, ¬ closes c := by
  constructor
  · rintro ⟨pre, b, post, h, hb, hpost⟩
    rcases List.append_eq_append_iff.mp h with ⟨as, rfl, rfl⟩ | ⟨cs, rfl, hcs⟩
    · exact Or.inl ⟨as, b, post, rfl, hb, hpost⟩
    · cases cs with
      | nil => exact Or.inl ⟨[], b, post, hcs.symm, hb, hpost⟩
      | cons c cs =>
        obtain ⟨rfl, rfl⟩ := List.cons.inj hcs
        refine Or.inr ⟨⟨pre, b, cs, rfl, hb, fun c hc => ?_⟩, fun c hc => ?_⟩
        · exact hpost c (List.mem_append_left _ hc)
        · exact hpost c (List.mem_append_right _ hc)
  · rintro (⟨pre, b, post, rfl, hb, hpost⟩ | ⟨⟨pre, b, post, rfl, hb, hpost⟩, hm⟩)
    · exact ⟨l ++ pre, b, post, by simp, hb, hpost⟩
    · refine ⟨pre, b, post ++ m, by simp, hb, fun c hc => ?_⟩
      rcases List.mem_append.mp hc with hc | hc
      exacts [hpost c hc, hm c hc]

theorem isOpen_singleton {b : β} : IsOpen opens closes [b] ↔ opens b := by
  constructor
  · rintro ⟨pre, c, post, h, hc, -⟩
    cases pre with
    | nil => exact (List.cons.inj h).1 ▸ hc
    | cons d pre => simp at h
  · intro hb
    exact ⟨[], b, [], rfl, hb, by simp⟩

theorem isOpen_concat {l : List β} {b : β} :
    IsOpen opens closes (l ++ [b]) ↔ opens b ∨ IsOpen opens closes l ∧ ¬ closes b := by
  rw [isOpen_append, isOpen_singleton, List.forall_mem_singleton]

/-- Entries that open nothing leave nothing open. -/
theorem not_isOpen_of_forall {l : List β} (h : ∀ b ∈ l, ¬ opens b) : ¬ IsOpen opens closes l := by
  rintro ⟨pre, b, post, rfl, hb, -⟩
  exact h b (by simp) hb

/-! ### Tables of what is open -/

section Tables

variable {K : Type u} {P : Type v} [DecidableEq K] {opens : K → P → β → Prop} {closes : P → β → Prop}

/-- What a user opened and is open still is in its entry of the table. -/
def Tracks (opens : K → P → β → Prop) (closes : P → β → Prop) (table : Dict K (List P)) (history : List β) : Prop :=
  ∀ k p, IsOpen (opens k p) (closes p) history → p ∈ (table.get? k).getD []

theorem tracks_nil (table : Dict K (List P)) : Tracks opens closes table [] :=
  fun _ _ h => absurd h not_isOpen_nil

variable {table table' : Dict K (List P)} {l m : List β}

/-- Entries that open nothing, after which the table lacks nothing but what they close. -/
theorem Tracks.append (h : Tracks opens closes table l) (hm : ∀ b ∈ m, ∀ k p, ¬ opens k p b)
    (htable : ∀ k, ∀ p ∈ (table.get? k).getD [], (∀ b ∈ m, ¬ closes p b) → p ∈ (table'.get? k).getD []) :
    Tracks opens closes table' (l ++ m) := by
  intro k p hopen
  rcases isOpen_append.mp hopen with hopen | ⟨hopen, hclose⟩
  · exact absurd hopen (not_isOpen_of_forall fun b hb => hm b hb k p)
  · exact htable k p (h k p hopen) hclose

/-- What an entry opens is entered. -/
theorem Tracks.concat [BEq P] [LawfulBEq P] (h : Tracks opens closes table l) {b : β} {k : K} {p : P} {pairs : List P}
    (hget : table.get? k = some pairs) (hb : ∀ k' p', opens k' p' b → k' = k ∧ p' = p) :
    Tracks opens closes (table.set k (pairs.insert p)) (l ++ [b]) := by
  intro k' p' hopen
  rw [Dict.get?_set]
  rcases isOpen_concat.mp hopen with hnew | ⟨hold, -⟩
  · obtain ⟨rfl, rfl⟩ := hb k' p' hnew
    simp
  · have hmem := h k' p' hold
    split_ifs with hk
    · rw [hk, hget] at hmem
      exact List.mem_insert_of_mem hmem
    · exact hmem

end Tables

end Riaps.Foundation
