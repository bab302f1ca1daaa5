import Mathlib.Data.List.Induction
import Riaps.Foundation.Dict
import Riaps.Foundation.Exceptions

/-!
# Tables

A loop enters what it computes, one thing after another, in a dictionary that is empty at first, and may fail on the
way. If the keys differ, or the loop checks that they do, the dictionary has the values in the order of the loop.
-/

namespace Riaps.Foundation

universe u

variable {ε α K V : Type u}

namespace Dict

/-- The items are the values of a list under its keys, in order. -/
def Lists (d : Dict K V) (key : α → K) (f : α → Except ε V) (l : List α) : Prop :=
  d.items.map (fun i => (i.1, (.ok i.2 : Except ε V))) = l.map fun x => (key x, f x)

variable {d : Dict K V} {key : α → K} {f : α → Except ε V} {l : List α} {x : α}

theorem Lists.keys (h : d.Lists key f l) : d.keys = l.map key := by
  have hfst := congrArg (List.map Prod.fst) h
  rwa [List.map_map, List.map_map] at hfst

/-- What is entered for a value is there. -/
theorem Lists.get? [DecidableEq K] (h : d.Lists key f l) (hx : x ∈ l) : ∃ v, f x = .ok v ∧ d.get? (key x) = some v := by
  have hmem : (key x, f x) ∈ d.items.map fun i => (i.1, (.ok i.2 : Except ε V)) :=
    h ▸ List.mem_map_of_mem hx
  obtain ⟨i, hi, heq⟩ := List.mem_map.mp hmem
  obtain ⟨hkey, hval⟩ := Prod.mk.inj heq
  exact ⟨i.2, hval.symm, Dict.get?_eq_some_iff.mpr (hkey ▸ hi)⟩

/-- If all values are there, the items are these. -/
theorem lists_iff_of_ok {g : α → V} (hg : ∀ x ∈ l, f x = .ok (g x)) :
    d.Lists key f l ↔ d.items = l.map fun x => (key x, g x) := by
  have hinj : Function.Injective fun i : K × V => (i.1, (.ok i.2 : Except ε V)) :=
    fun i j hij => Prod.ext (Prod.mk.inj hij).1 (Except.ok.inj (Prod.mk.inj hij).2)
  have hvalues : (l.map fun x => (key x, f x)) = (l.map fun x => (key x, g x)).map fun i => (i.1, .ok i.2) := by
    rw [List.map_map]
    exact List.map_congr_left fun x hx => congrArg (Prod.mk (key x)) (hg x hx)
  rw [Lists, hvalues]
  exact (List.map_injective_iff.mpr hinj).eq_iff

theorem lists_nil : d.Lists key f [] ↔ (empty : Dict K V) = d := by
  rw [Lists, List.map_nil, List.map_eq_nil_iff]
  exact ⟨fun h => Dict.ext h.symm, fun h => h ▸ rfl⟩

variable [DecidableEq K]

theorem items_set_of_notMem {k : K} (h : k ∉ d) (v : V) : (d.set k v).items = d.items ++ [(k, v)] := by
  have hlist : ∀ is : List (K × V), k ∉ is.map Prod.fst → setItems k v is = is ++ [(k, v)] := by
    intro is
    induction is with
    | nil => exact fun _ => rfl
    | cons i is ih =>
      intro hk
      rw [List.map_cons, List.mem_cons, not_or] at hk
      rw [setItems, if_neg (Ne.symm hk.1), ih hk.2]
      rfl
  exact hlist d.items h

/-- The last round enters the last value. -/
theorem lists_concat : d.Lists key f (l ++ [x]) ↔
    ∃ (d' : Dict K V) (v : V), d'.Lists key f l ∧ f x = .ok v ∧ key x ∉ d' ∧ d'.set (key x) v = d := by
  constructor
  · intro h
    rw [Lists, List.map_append] at h
    obtain ⟨is, js, hitems, his, hjs⟩ := List.map_eq_append_iff.mp h
    obtain ⟨i, rfl, hi⟩ := List.map_eq_singleton_iff.mp hjs
    obtain ⟨hkey, hval⟩ := Prod.mk.inj hi
    have hnodup : ((is ++ [i]).map Prod.fst).Nodup := hitems ▸ d.nodup
    rw [List.map_append, List.nodup_append] at hnodup
    have hnot : key x ∉ (⟨is, hnodup.1⟩ : Dict K V) :=
      fun hmem => hnodup.2.2 _ hmem _ (List.mem_singleton_self _) hkey.symm
    refine ⟨⟨is, hnodup.1⟩, i.2, his, hval.symm, hnot, Dict.ext ?_⟩
    rw [items_set_of_notMem hnot, hitems, ← hkey]
  · rintro ⟨d', v, h, hv, hnot, rfl⟩
    rw [Lists, items_set_of_notMem hnot, List.map_append, List.map_append, h, List.map_singleton, List.map_singleton,
      hv]

/-- **A loop that enters values under keys that differ.** -/
theorem foldlM_set_eq_ok_iff (h : (l.map key).Nodup) :
    (l.foldlM (fun d x => do return d.set (key x) (← f x)) (empty : Dict K V)) = .ok d ↔ d.Lists key f l := by
  induction l using List.reverseRecOn generalizing d with
  | nil => exact pure_eq_ok_iff.trans lists_nil.symm
  | append_singleton l x ih =>
    rw [List.map_append, List.nodup_append] at h
    rw [foldlM_concat_eq_ok_iff, lists_concat]
    refine exists_congr fun d' => ?_
    rw [bind_eq_ok_iff, ih h.1]
    constructor
    · rintro ⟨hd', v, hv, hset⟩
      have hnot : key x ∉ d' := fun hmem =>
        h.2.2 _ (hd'.keys ▸ hmem) _ (List.mem_singleton_self _) rfl
      exact ⟨v, hd', hv, hnot, pure_eq_ok_iff.mp hset⟩
    · rintro ⟨v, hd', hv, -, hset⟩
      exact ⟨hd', v, hv, pure_eq_ok_iff.mpr hset⟩

/-- **A loop that checks that the keys differ.** -/
theorem foldlM_fresh_eq_ok_iff {e : α → ε} :
    (l.foldlM (fun d x => if key x ∈ d then throw (e x) else do return d.set (key x) (← f x)) (empty : Dict K V)) =
      .ok d ↔ (l.map key).Nodup ∧ d.Lists key f l := by
  induction l using List.reverseRecOn generalizing d with
  | nil => exact pure_eq_ok_iff.trans (lists_nil.symm.trans (and_iff_right List.nodup_nil).symm)
  | append_singleton l x ih =>
    rw [foldlM_concat_eq_ok_iff, lists_concat]
    constructor
    · rintro ⟨d', hl, hround⟩
      obtain ⟨hnodup, hd'⟩ := ih.mp hl
      split_ifs at hround with hmem
      obtain ⟨v, hv, hset⟩ := bind_eq_ok_iff.mp hround
      refine ⟨?_, d', v, hd', hv, hmem, pure_eq_ok_iff.mp hset⟩
      rw [List.map_append, List.map_singleton, ← List.concat_eq_append, List.nodup_concat]
      exact ⟨fun h => hmem (mem_iff_mem_keys.mpr (hd'.keys ▸ h)), hnodup⟩
    · rintro ⟨hnodup, d', v, hd', hv, hnot, hset⟩
      rw [List.map_append, List.nodup_append] at hnodup
      refine ⟨d', ih.mpr ⟨hnodup.1, hd'⟩, ?_⟩
      rw [if_neg hnot]
      exact bind_eq_ok_iff.mpr ⟨v, hv, pure_eq_ok_iff.mpr hset⟩

end Dict

/-- A loop that collects things of a list, and checks that their keys differ. -/
theorem foldlM_collect_eq_ok_iff {β : Type u} [BEq K] [LawfulBEq K] (key : β → K) (make : α → β) (e : α → ε)
    {l : List α} {res : List β} :
    (l.foldlM (fun res x => if key (make x) ∈ res.map key then throw (e x) else pure (res ++ [make x])) [] :
      Except ε (List β)) = .ok res ↔
      (l.map fun x => key (make x)).Nodup ∧ res = l.map make := by
  induction l using List.reverseRecOn generalizing res with
  | nil => exact pure_eq_ok_iff.trans ⟨fun h => ⟨List.nodup_nil, h.symm⟩, fun h => h.2.symm⟩
  | append_singleton l x ih =>
    rw [foldlM_concat_eq_ok_iff, List.map_append, List.map_append, List.map_singleton, List.map_singleton,
      ← List.concat_eq_append, List.nodup_concat]
    constructor
    · rintro ⟨res', hl, hround⟩
      obtain ⟨hnodup, rfl⟩ := ih.mp hl
      split_ifs at hround with hmem
      rw [List.map_map] at hmem
      exact ⟨⟨hmem, hnodup⟩, (pure_eq_ok_iff.mp hround).symm⟩
    · rintro ⟨⟨hmem, hnodup⟩, rfl⟩
      refine ⟨l.map make, ih.mpr ⟨hnodup, rfl⟩, ?_⟩
      rw [List.map_map]
      exact (if_neg hmem).trans rfl

end Riaps.Foundation
