import Mathlib.Data.List.Sort

/-!
# Sorted entries and their ranks

In a list of entries sorted by distinct keys an entry stands where as many entries
are before it as have smaller keys (`rank`). So what a position decides (being among
the first `n`, or being after them) can be said by counting keys, whatever the order
the entries were in before they were sorted.
-/

namespace Riaps.Foundation

universe u v

variable {K : Type u} {V : Type v} [LinearOrder K]

/-- The number of entries with smaller keys. -/
def rank (l : List (K × V)) (key : K) : ℕ := l.countP fun e => e.1 < key

/-- The entries are in increasing order of their keys. -/
def Ascending (l : List (K × V)) : Prop := l.Pairwise fun a b => a.1 < b.1

theorem rank_perm {l l' : List (K × V)} (h : l.Perm l') (key : K) : rank l key = rank l' key := h.countP_eq _

/-- Sorting entries with distinct keys puts them in increasing order. -/
theorem ascending_insertionSort {l : List (K × V)} (h : (l.map Prod.fst).Nodup) :
    Ascending (l.insertionSort fun a b => a.1 ≤ b.1) := by
  have : Std.Total fun a b : K × V => a.1 ≤ b.1 := ⟨fun a b => le_total a.1 b.1⟩
  have : IsTrans (K × V) fun a b => a.1 ≤ b.1 := ⟨fun _ _ _ hab hbc => le_trans hab hbc⟩
  have hperm := (List.perm_insertionSort (fun a b : K × V => a.1 ≤ b.1) l).map Prod.fst
  have hne := List.pairwise_map.mp (hperm.nodup_iff.mpr h)
  exact ((List.pairwise_insertionSort _ l).and hne).imp fun hab => lt_of_le_of_ne hab.1 hab.2

namespace Ascending

theorem nodup {l : List (K × V)} (h : Ascending l) : l.Nodup := by
  refine List.Pairwise.imp ?_ h
  rintro a b hab rfl
  exact lt_irrefl _ hab

theorem rank_head {e : K × V} {l : List (K × V)} (h : Ascending (e :: l)) : rank (e :: l) e.1 = 0 := by
  refine List.countP_eq_zero.mpr fun e' he' => ?_
  rcases List.mem_cons.mp he' with rfl | he'
  · simp
  · simpa using ((List.pairwise_cons.mp h).1 e' he').le

theorem rank_tail {e e' : K × V} {l : List (K × V)} (h : Ascending (e :: l)) (he' : e' ∈ l) :
    rank (e :: l) e'.1 = rank l e'.1 + 1 :=
  List.countP_cons_of_pos (by simpa using (List.pairwise_cons.mp h).1 e' he')

/-- An entry is among the first `n` when fewer than `n` have smaller keys. -/
theorem mem_take_iff {l : List (K × V)} (h : Ascending l) {e : K × V} (he : e ∈ l) (n : ℕ) :
    e ∈ l.take n ↔ rank l e.1 < n := by
  induction l generalizing n with
  | nil => simp at he
  | cons a l ih =>
    cases n with
    | zero => simp
    | succ n =>
      rw [List.take_succ_cons, List.mem_cons]
      rcases List.mem_cons.mp he with rfl | he'
      · simp [h.rank_head]
      · have hne : e ≠ a := by
          rintro rfl
          exact (List.nodup_cons.mp h.nodup).1 he'
        rw [h.rank_tail he', or_iff_right hne, ih (List.pairwise_cons.mp h).2 he' n]
        omega

/-- An entry comes after the first `n` when at least `n` have smaller keys. -/
theorem mem_drop_iff {l : List (K × V)} (h : Ascending l) {e : K × V} (he : e ∈ l) (n : ℕ) :
    e ∈ l.drop n ↔ n ≤ rank l e.1 := by
  rw [← not_lt, ← h.mem_take_iff he]
  constructor
  · intro hdrop htake
    exact List.disjoint_take_drop h.nodup le_rfl htake hdrop
  · intro htake
    rw [← List.take_append_drop n l] at he
    exact (List.mem_append.mp he).resolve_left htake

/-- The first entry whose key is greater than `key` stands after those whose keys are not. -/
theorem findIdx?_lt {l : List (K × V)} (h : Ascending l) (key : K) :
    (l.findIdx? fun e => key < e.1) =
      if l.countP (fun e => e.1 ≤ key) = l.length then none else some (l.countP fun e => e.1 ≤ key) := by
  induction l with
  | nil => simp
  | cons e l ih =>
    rw [List.findIdx?_cons, ih (List.pairwise_cons.mp h).2]
    by_cases hlt : key < e.1
    · -- the keys after it are greater too
      have hnone : (e :: l).countP (fun e' => e'.1 ≤ key) = 0 := by
        refine List.countP_eq_zero.mpr fun e' he' => ?_
        rcases List.mem_cons.mp he' with rfl | he'
        · simpa using hlt
        · simpa using hlt.trans ((List.pairwise_cons.mp h).1 e' he')
      rw [hnone]
      simp [hlt]
    · have hcons : (e :: l).countP (fun e' => e'.1 ≤ key) = l.countP (fun e' => e'.1 ≤ key) + 1 :=
        List.countP_cons_of_pos (by simpa using hlt)
      rw [hcons, List.length_cons, if_neg (by simpa using hlt)]
      by_cases hall : l.countP (fun e' => e'.1 ≤ key) = l.length
      · simp [hall]
      · simp [hall]

/-- As many entries as have keys up to `key` are those at the front, -/
theorem take_countP {l : List (K × V)} (h : Ascending l) (key : K) :
    l.take (l.countP fun e => e.1 ≤ key) = l.filter fun e => e.1 ≤ key := by
  induction l with
  | nil => rfl
  | cons e l ih =>
    obtain ⟨hlt, htail⟩ := List.pairwise_cons.mp h
    by_cases hle : e.1 ≤ key
    · rw [List.countP_cons_of_pos (by simpa using hle), List.take_succ_cons, ih htail,
        List.filter_cons_of_pos (by simpa using hle)]
    · -- the keys after it are greater too
      have hnone : ∀ e' ∈ e :: l, ¬e'.1 ≤ key := by
        intro e' he' hle'
        rcases List.mem_cons.mp he' with rfl | he'
        · exact hle hle'
        · exact hle ((hlt e' he').le.trans hle')
      rw [List.countP_eq_zero.mpr (by simpa using hnone), List.filter_eq_nil_iff.mpr (by simpa using hnone),
        List.take_zero]

/-- and those behind them have greater keys. -/
theorem drop_countP {l : List (K × V)} (h : Ascending l) (key : K) :
    l.drop (l.countP fun e => e.1 ≤ key) = l.filter fun e => key < e.1 := by
  induction l with
  | nil => rfl
  | cons e l ih =>
    obtain ⟨hlt, htail⟩ := List.pairwise_cons.mp h
    by_cases hle : e.1 ≤ key
    · rw [List.countP_cons_of_pos (by simpa using hle), List.drop_succ_cons, ih htail,
        List.filter_cons_of_neg (by simpa using hle)]
    · have hnone : ∀ e' ∈ e :: l, key < e'.1 := by
        intro e' he'
        rcases List.mem_cons.mp he' with rfl | he'
        · exact not_le.mp hle
        · exact (not_le.mp hle).trans (hlt e' he')
      rw [List.countP_eq_zero.mpr (by simpa using hnone), List.filter_eq_self.mpr (by simpa using hnone),
        List.drop_zero]

end Ascending

end Riaps.Foundation
