import Mathlib.Data.List.Infix
import Mathlib.Data.List.Nodup

/-!
# Marked regions of a text

A text with regions in it that are marked by what stands before and after them, and what
it takes to find the text of a region again.

`search` is the search for the regular expression `b(.+)e`: from the first `b` with a match
to the last `e` after it. `transfer` puts what is found in one text in the place of what is
found in another. A mark is a separator with a tag after it that is no prefix of another
tag. Where the separator is not in the fixed text, and no mark in the text of a region, a
mark is found only where it belongs (`skips_render`), so that `transfer` changes the region
of a mark that each text has once, and nothing else (`transfer_render`).
-/

namespace Riaps.Foundation

universe u v w

variable {α : Type u}

/-! ### Searching -/

section Search

variable [DecidableEq α]

/-- What stands before the last `e`, and the rest from there. -/
def splitLast (e : List α) : List α → Option (List α × List α)
  | [] => if e <+: [] then some ([], []) else none
  | c :: s =>
    match splitLast e s with
    | some (x, y) => some (c :: x, y)
    | none => if e <+: c :: s then some ([], c :: s) else none

/-- A match at the start: `b`, the group, which is not empty and as long as possible, and the rest from an `e`. -/
def matchAt (b e s : List α) : Option (List α × List α × List α) :=
  if b <+: s then
    match s.drop b.length with
    | [] => none
    | c :: s => (splitLast e s).map fun m => (b, c :: m.1, m.2)
  else none

/-- The first match: what stands before the group, the group, and the rest. -/
def search (b e : List α) : List α → Option (List α × List α × List α)
  | [] => matchAt b e []
  | c :: s =>
    match matchAt b e (c :: s) with
    | some m => some m
    | none => (search b e s).map fun m => (c :: m.1, m.2)

/-- The group that is found in one text put in the place of that in another. -/
def transfer (b e orig new : List α) : List α :=
  match search b e orig, search b e new with
  | some (_, g, _), some (x, _, y) => x ++ g ++ y
  | _, _ => new

theorem transfer_of_left_eq_none {b e orig new : List α} (h : search b e orig = none) :
    transfer b e orig new = new := by
  rw [transfer, h]

theorem transfer_of_right_eq_none {b e orig new : List α} (h : search b e new = none) :
    transfer b e orig new = new := by
  rw [transfer, h]
  cases search b e orig <;> rfl

end Search

/-- No `m` begins in the first of two texts that follow each other. -/
def Skips (m : List α) : List α → List α → Prop
  | [], _ => True
  | c :: a, r => ¬m <+: c :: (a ++ r) ∧ Skips m a r

variable {m a r : List α}

theorem skips_append {a' : List α} : Skips m (a ++ a') r ↔ Skips m a (a' ++ r) ∧ Skips m a' r := by
  induction a with
  | nil => simp [Skips]
  | cons c a ih => rw [List.cons_append, Skips, Skips, ih, List.append_assoc, and_assoc]

/-- Where an `m` ends what comes before it, there is only one way to see it so. -/
theorem append_inj_of_skips {a' r' : List α} (h : Skips m a (m ++ r)) (h' : Skips m a' (m ++ r'))
    (heq : a ++ (m ++ r) = a' ++ (m ++ r')) : a = a' ∧ r = r' := by
  induction a generalizing a' with
  | nil =>
    cases a' with
    | nil => exact ⟨rfl, List.append_cancel_left heq⟩
    | cons c a' => exact absurd ⟨r, heq⟩ h'.1
  | cons c a ih =>
    cases a' with
    | nil => exact absurd ⟨r', heq.symm⟩ h.1
    | cons c' a' =>
      obtain ⟨rfl, htail⟩ := List.cons.inj heq
      obtain ⟨rfl, rfl⟩ := ih h.2 h'.2 htail
      exact ⟨rfl, rfl⟩

section Search

variable [DecidableEq α] {b e : List α}

theorem splitLast_append (a : List α) {s x y : List α} (h : splitLast e s = some (x, y)) :
    splitLast e (a ++ s) = some (a ++ x, y) := by
  induction a with
  | nil => exact h
  | cons c a ih =>
    rw [List.cons_append, splitLast, ih]
    rfl

theorem splitLast_of_skips (h : Skips e a []) (he : e ≠ []) : splitLast e a = none := by
  induction a with
  | nil => rw [splitLast, if_neg (he ∘ List.prefix_nil.mp)]
  | cons c a ih =>
    rw [Skips, List.append_nil] at h
    rw [splitLast, ih h.2]
    exact if_neg h.1

/-- An `e` with none after it. -/
theorem splitLast_self {c : α} {e : List α} (h : Skips (c :: e) (e ++ r) []) :
    splitLast (c :: e) (c :: e ++ r) = some ([], c :: e ++ r) := by
  rw [List.cons_append, splitLast, splitLast_of_skips h (List.cons_ne_nil c e)]
  exact if_pos ⟨r, rfl⟩

theorem search_append (h : Skips b a r) : search b e (a ++ r) = (search b e r).map fun m => (a ++ m.1, m.2) := by
  induction a with
  | nil => simp
  | cons c a ih =>
    have hat : matchAt b e (c :: (a ++ r)) = none := if_neg h.1
    rw [List.cons_append, search, hat, ih h.2]
    simp [Function.comp_def]

theorem search_of_skips (h : Skips b a []) (hb : b ≠ []) : search b e a = none := by
  have hnil : search b e [] = none := if_neg (hb ∘ List.prefix_nil.mp)
  have happend := search_append (e := e) h
  rwa [List.append_nil, hnil] at happend

theorem matchAt_append (s : List α) :
    matchAt b e (b ++ s) = match s with
      | [] => none
      | c :: s => (splitLast e s).map fun m => (b, c :: m.1, m.2) := by
  rw [matchAt, if_pos (List.prefix_append b s), List.drop_left]

/-- From a `b` to the last `e`. -/
theorem search_self {c d : α} {t e' : List α} (h : Skips (d :: e') (e' ++ r) []) :
    search b (d :: e') (b ++ (c :: t ++ (d :: e' ++ r))) = some (b, c :: t, d :: e' ++ r) := by
  have hat : matchAt b (d :: e') (b ++ (c :: t ++ (d :: e' ++ r))) = some (b, c :: t, d :: e' ++ r) := by
    rw [matchAt_append, List.cons_append]
    simp only [splitLast_append t (splitLast_self h), Option.map_some, List.append_nil]
  cases hs : b ++ (c :: t ++ (d :: e' ++ r)) with
  | nil => rwa [hs] at hat
  | cons c' s => rw [search, ← hs, hat]

/-- Nothing is found from a `b` to the only `e` if that comes at once. -/
theorem search_self_nil {c d : α} {b' e' : List α} (hb : Skips (c :: b') (b' ++ (d :: e' ++ r)) [])
    (he : Skips (d :: e') (e' ++ r) []) : search (c :: b') (d :: e') (c :: b' ++ (d :: e' ++ r)) = none := by
  have hat : matchAt (c :: b') (d :: e') (c :: b' ++ (d :: e' ++ r)) = none := by
    rw [matchAt_append, List.cons_append]
    simp only [splitLast_of_skips he (List.cons_ne_nil d e'), Option.map_none]
  rw [List.cons_append] at hat ⊢
  rw [search, hat, search_of_skips hb (List.cons_ne_nil c b')]
  rfl

end Search

/-! ### Marks -/

/-- Tags that are told apart by how they begin. -/
structure Marks (T : Type v) (α : Type u) where
  sep : α
  tag : T → List α
  sep_notMem : ∀ t, sep ∉ tag t
  tag_inj : ∀ s t, tag s <+: tag t → s = t

namespace Marks

variable {T : Type v} (M : Marks T α)

def mark (t : T) : List α := M.sep :: M.tag t

/-- No mark is in the text. -/
def Free (t : List α) : Prop := ∀ s, ¬M.mark s <:+: t

variable {M}

theorem mark_ne_nil (t : T) : M.mark t ≠ [] := List.cons_ne_nil _ _

theorem free_of_notMem (h : M.sep ∉ a) : M.Free a := fun _ hin => h (hin.subset List.mem_cons_self)

theorem skips_of_notMem (h : M.sep ∉ a) (s : T) : Skips (M.mark s) a r := by
  induction a with
  | nil => trivial
  | cons c a ih =>
    obtain ⟨hne, h⟩ := not_or.mp (mt List.mem_cons.mpr h)
    exact ⟨fun hprefix => hne (List.cons_prefix_cons.mp hprefix).1, ih h⟩

/-- A mark is found in another one nowhere, whatever comes after that. -/
theorem skips_mark {s t : T} (h : s ≠ t) : Skips (M.mark s) (M.mark t) r := by
  refine ⟨fun hprefix => ?_, skips_of_notMem (M.sep_notMem t) s⟩
  obtain hst | hts := List.prefix_or_prefix_of_prefix (List.cons_prefix_cons.mp hprefix).2 (List.prefix_append _ r)
  · exact h (M.tag_inj s t hst)
  · exact h (M.tag_inj t s hts).symm

theorem prefix_of_prefix_append_cons {c : α} {x : List α} (hc : c ∉ x) (h : x <+: a ++ c :: r) : x <+: a := by
  induction x generalizing a with
  | nil => exact List.nil_prefix
  | cons d x ih =>
    obtain ⟨hd, hx⟩ := not_or.mp (mt List.mem_cons.mpr hc)
    cases a with
    | nil => exact absurd (List.cons_prefix_cons.mp h).1.symm hd
    | cons d' a =>
      obtain ⟨rfl, hrest⟩ := List.cons_prefix_cons.mp h
      exact List.cons_prefix_cons.mpr ⟨rfl, ih hx hrest⟩

/-- Nor does one begin in a text without marks and go on in the next one. -/
theorem skips_of_free (h : M.Free a) (s t : T) : Skips (M.mark s) a (M.mark t ++ r) := by
  induction a with
  | nil => trivial
  | cons c a ih =>
    refine ⟨fun hprefix => h s ?_, ih fun s hin => h s (hin.trans (List.suffix_cons c a).isInfix)⟩
    obtain ⟨rfl, htag⟩ := List.cons_prefix_cons.mp hprefix
    exact (List.cons_prefix_cons.mpr ⟨rfl, prefix_of_prefix_append_cons (M.sep_notMem s) htag⟩).isInfix

end Marks

/-! ### Regions -/

/-- Where a region begins, and where it ends. -/
inductive Tag (N : Type v) where
  | opening (n : N)
  | closing (n : N)

/-- A fixed text, or a region. -/
inductive Piece (α : Type u) (K : Type w) where
  | text (t : List α)
  | region (k : K)

/-- The regions of a text, in order. -/
def regions {K : Type w} : List (Piece α K) → List K
  | [] => []
  | .text _ :: ps => regions ps
  | .region k :: ps => k :: regions ps

variable {N : Type v} {K : Type w}

/-- The text, with the texts of the regions and the names in their marks. -/
def render (M : Marks (Tag N) α) (name : K → N) (f : K → List α) : List (Piece α K) → List α
  | [] => []
  | .text t :: ps => t ++ render M name f ps
  | .region k :: ps =>
    M.mark (.opening (name k)) ++ (f k ++ (M.mark (.closing (name k)) ++ render M name f ps))

theorem regions_append (ps qs : List (Piece α K)) : regions (ps ++ qs) = regions ps ++ regions qs := by
  induction ps with
  | nil => rfl
  | cons p ps ih =>
    cases p with
    | text t => exact ih
    | region k => exact congrArg (k :: ·) ih

theorem exists_of_mem_regions {ps : List (Piece α K)} {k : K} (h : k ∈ regions ps) :
    ∃ pre post, ps = pre ++ .region k :: post := by
  induction ps with
  | nil => exact absurd h List.not_mem_nil
  | cons p ps ih =>
    cases p with
    | text t =>
      obtain ⟨pre, post, rfl⟩ := ih h
      exact ⟨.text t :: pre, post, rfl⟩
    | region k' =>
      rcases List.mem_cons.mp h with rfl | h
      · exact ⟨[], ps, rfl⟩
      · obtain ⟨pre, post, rfl⟩ := ih h
        exact ⟨.region k' :: pre, post, rfl⟩

section Render

variable {M : Marks (Tag N) α} {name : K → N} {f g : K → List α}

theorem render_append (ps qs : List (Piece α K)) :
    render M name f (ps ++ qs) = render M name f ps ++ render M name f qs := by
  induction ps with
  | nil => rfl
  | cons p ps ih => cases p <;> simp [render, ih]

theorem render_congr {ps : List (Piece α K)} (h : ∀ k ∈ regions ps, f k = g k) :
    render M name f ps = render M name g ps := by
  induction ps with
  | nil => rfl
  | cons p ps ih =>
    cases p with
    | text t => rw [render, render, ih h]
    | region k =>
      rw [render, render, h k List.mem_cons_self, ih fun k' hk' => h k' (List.mem_cons_of_mem _ hk')]

/-- The texts of the regions are those of the whole. -/
theorem render_inj {ps : List (Piece α K)} (hf : ∀ k ∈ regions ps, M.Free (f k))
    (hg : ∀ k ∈ regions ps, M.Free (g k)) (h : render M name f ps = render M name g ps) :
    ∀ k ∈ regions ps, f k = g k := by
  induction ps with
  | nil => exact fun k hk => absurd hk List.not_mem_nil
  | cons p ps ih =>
    cases p with
    | text t => exact ih hf hg (List.append_cancel_left h)
    | region k =>
      obtain ⟨hk, hrest⟩ := append_inj_of_skips (Marks.skips_of_free (hf k List.mem_cons_self) _ _)
        (Marks.skips_of_free (hg k List.mem_cons_self) _ _) (List.append_cancel_left h)
      exact List.forall_mem_cons.mpr ⟨hk, ih (fun k' hk' => hf k' (List.mem_cons_of_mem _ hk'))
        (fun k' hk' => hg k' (List.mem_cons_of_mem _ hk')) hrest⟩

/-- A mark is found only where it belongs. -/
theorem skips_render {ps : List (Piece α K)} (htext : ∀ t, .text t ∈ ps → M.sep ∉ t)
    (hf : ∀ k ∈ regions ps, M.Free (f k)) {s : Tag N}
    (hs : ∀ k ∈ regions ps, s ≠ .opening (name k) ∧ s ≠ .closing (name k)) :
    Skips (M.mark s) (render M name f ps) r := by
  induction ps with
  | nil => trivial
  | cons p ps ih =>
    have htext' : ∀ t, .text t ∈ ps → M.sep ∉ t := fun t ht => htext t (List.mem_cons_of_mem _ ht)
    cases p with
    | text t =>
      exact skips_append.mpr ⟨Marks.skips_of_notMem (htext t List.mem_cons_self) s, ih htext' hf hs⟩
    | region k =>
      obtain ⟨hopening, hclosing⟩ := hs k List.mem_cons_self
      have hrest := ih htext' (fun k' hk' => hf k' (List.mem_cons_of_mem _ hk'))
        fun k' hk' => hs k' (List.mem_cons_of_mem _ hk')
      refine skips_append.mpr ⟨Marks.skips_mark hopening, skips_append.mpr ⟨?_, skips_append.mpr
        ⟨Marks.skips_mark hclosing, hrest⟩⟩⟩
      rw [List.append_assoc]
      exact Marks.skips_of_free (hf k List.mem_cons_self) s _

/-- A region with its marks not found before it or after it is found if there is anything in it. -/
theorem search_region [DecidableEq α] {n : N} {pre t post : List α}
    (hpre : Skips (M.mark (.opening n)) pre (M.mark (.opening n) ++ (t ++ (M.mark (.closing n) ++ post))))
    (hopening : Skips (M.mark (.opening n)) post []) (hclosing : Skips (M.mark (.closing n)) post []) :
    search (M.mark (.opening n)) (M.mark (.closing n))
        (pre ++ (M.mark (.opening n) ++ (t ++ (M.mark (.closing n) ++ post)))) =
      if t = [] then none else some (pre ++ M.mark (.opening n), t, M.mark (.closing n) ++ post) := by
  have hlast : Skips (M.mark (.closing n)) (M.tag (.closing n) ++ post) [] :=
    skips_append.mpr ⟨Marks.skips_of_notMem (M.sep_notMem _) _, hclosing⟩
  rw [search_append hpre]
  cases t with
  | nil =>
    have hfirst : Skips (M.mark (.opening n)) (M.tag (.opening n) ++ (M.mark (.closing n) ++ post)) [] :=
      skips_append.mpr ⟨Marks.skips_of_notMem (M.sep_notMem _) _,
        skips_append.mpr ⟨Marks.skips_mark nofun, hopening⟩⟩
    exact congrArg (Option.map _) (search_self_nil hfirst hlast)
  | cons c t => exact congrArg (Option.map _) (search_self hlast)

end Render

/-- What of a text is fixed. -/
structure Layout (sep : α) (K : Type w) where
  pieces : List (Piece α K)
  /-- No mark begins in a fixed text. -/
  sep_notMem : ∀ t, .text t ∈ pieces → sep ∉ t
  /-- A region is there only once. -/
  nodup : (regions pieces).Nodup

namespace Layout

variable {M : Marks (Tag N) α} {name : K → N} {f u : K → List α} {n : N}

/-- The layout's text. -/
def fill (l : Layout M.sep K) (name : K → N) (f : K → List α) : List α := render M name f l.pieces

/-- No region has a mark in it. -/
def Free (l : Layout M.sep K) (f : K → List α) : Prop := ∀ k ∈ regions l.pieces, M.Free (f k)

/-- What stands before a region and after it. -/
theorem exists_split (l : Layout M.sep K) {k : K} (hk : k ∈ regions l.pieces) :
    ∃ pre post, l.pieces = pre ++ .region k :: post ∧
      ∀ k', k' ∈ regions pre ∨ k' ∈ regions post → k' ∈ regions l.pieces ∧ k' ≠ k := by
  obtain ⟨pre, post, hpieces⟩ := exists_of_mem_regions hk
  have hnodup := l.nodup
  rw [hpieces, regions_append, regions, List.nodup_middle, List.nodup_cons] at hnodup
  refine ⟨pre, post, hpieces, fun k' hk' => ⟨?_, ?_⟩⟩
  · rw [hpieces, regions_append, regions, List.mem_append, List.mem_cons]
    exact hk'.imp_right .inr
  · rintro rfl
    exact hnodup.1 (List.mem_append.mpr hk')

section Search

variable [DecidableEq α]

theorem search_fill_of_notMem {l : Layout M.sep K} (hf : l.Free f) (hn : ∀ k ∈ regions l.pieces, name k ≠ n) :
    search (M.mark (.opening n)) (M.mark (.closing n)) (l.fill name f) = none := by
  refine search_of_skips (skips_render l.sep_notMem hf fun k hk => ⟨fun h => ?_, nofun⟩) (Marks.mark_ne_nil _)
  exact hn k hk (Tag.opening.inj h).symm

variable [DecidableEq K]

/-- A region that is the only one of its name is found if there is anything in it. -/
theorem exists_search_fill {l : Layout M.sep K} (hf : l.Free f) {k : K} (hk : k ∈ regions l.pieces)
    (hn : ∀ k' ∈ regions l.pieces, name k' = name k → k' = k) :
    ∃ x y, (∀ t, l.fill name (Function.update f k t) = x ++ t ++ y) ∧
      search (M.mark (.opening (name k))) (M.mark (.closing (name k))) (l.fill name f) =
        if f k = [] then none else some (x, f k, y) := by
  obtain ⟨pre, post, hpieces, hother⟩ := l.exists_split hk
  have hname : ∀ k', k' ∈ regions pre ∨ k' ∈ regions post → name k ≠ name k' := fun k' hk' h =>
    (hother k' hk').2 (hn k' (hother k' hk').1 h.symm)
  have htext : ∀ ps, ps ⊆ l.pieces → ∀ t, .text t ∈ ps → M.sep ∉ t := fun ps hps t ht => l.sep_notMem t (hps ht)
  have hpre : ∀ r, Skips (M.mark (.opening (name k))) (render M name f pre) r := fun r =>
    skips_render (htext pre fun p hp => by simp [hpieces, hp]) (fun k' hk' => hf k' (hother k' (.inl hk')).1)
      fun k' hk' => ⟨fun h => hname k' (.inl hk') (Tag.opening.inj h), nofun⟩
  have hpost : ∀ s, s = .opening (name k) ∨ s = .closing (name k) → Skips (M.mark s) (render M name f post) [] := by
    intro s hs
    refine skips_render (htext post fun p hp => by simp [hpieces, hp]) (fun k' hk' => hf k' (hother k' (.inr hk')).1)
      fun k' hk' => ?_
    have hne := hname k' (.inr hk')
    rcases hs with rfl | rfl
    · exact ⟨fun h => hne (Tag.opening.inj h), nofun⟩
    · exact ⟨nofun, fun h => hne (Tag.closing.inj h)⟩
  refine ⟨render M name f pre ++ M.mark (.opening (name k)), M.mark (.closing (name k)) ++ render M name f post,
    fun t => ?_, ?_⟩
  · have hupdate : ∀ ps, (∀ k' ∈ regions ps, k' ≠ k) →
        render M name (Function.update f k t) ps = render M name f ps := fun ps hps =>
      render_congr fun k' hk' => Function.update_of_ne (hps k' hk') t f
    rw [fill, hpieces, render_append, render, hupdate pre fun k' hk' => (hother k' (.inl hk')).2,
      hupdate post fun k' hk' => (hother k' (.inr hk')).2, Function.update_self]
    simp only [List.append_assoc]
  · rw [fill, hpieces, render_append, render]
    exact search_region (hpre _) (hpost _ (.inl rfl)) (hpost _ (.inr rfl))

variable [DecidableEq N]

/-- The one region of a name is transferred, if both texts have it and something in it. -/
theorem transfer_fill {o l : Layout M.sep K} (hu : o.Free u) (hf : l.Free f)
    (hn : ∀ k ∈ regions l.pieces, ∀ k' ∈ regions o.pieces, name k = n → name k' = n → k = k') :
    transfer (M.mark (.opening n)) (M.mark (.closing n)) (o.fill name u) (l.fill name f) =
      l.fill name fun k => if name k = n ∧ k ∈ regions o.pieces ∧ u k ≠ [] ∧ f k ≠ [] then u k else f k := by
  by_cases ho : ∃ k' ∈ regions o.pieces, name k' = n
  · by_cases hl : ∃ k ∈ regions l.pieces, name k = n
    · obtain ⟨k, hk, rfl⟩ := hl
      obtain ⟨k', hk', hname⟩ := ho
      obtain rfl := hn k hk k' hk' rfl hname
      have heq : ∀ k' ∈ regions l.pieces, name k' = name k → k' = k := fun k' hl h => hn k' hl k hk' h rfl
      obtain ⟨x, y, hfill, hnew⟩ := exists_search_fill hf hk heq
      obtain ⟨x', y', -, horig⟩ := exists_search_fill hu hk' fun k'' ho h => (hn k hk k'' ho rfl h).symm
      by_cases hne : u k ≠ [] ∧ f k ≠ []
      · rw [if_neg hne.1] at horig
        rw [if_neg hne.2] at hnew
        rw [transfer, horig, hnew]
        refine (hfill (u k)).symm.trans (render_congr fun k'' hk'' => ?_)
        by_cases hkk : k'' = k
        · rw [hkk, Function.update_self, if_pos ⟨rfl, hk', hne⟩]
        · rw [Function.update_of_ne hkk, if_neg fun h => hkk (heq k'' hk'' h.1)]
      · have hsame : transfer (M.mark (.opening (name k))) (M.mark (.closing (name k))) (o.fill name u)
            (l.fill name f) = l.fill name f := by
          by_cases hnil : u k = []
          · exact transfer_of_left_eq_none (horig.trans (if_pos hnil))
          · exact transfer_of_right_eq_none (hnew.trans (if_pos (not_not.mp fun h => hne ⟨hnil, h⟩)))
        rw [hsame]
        refine render_congr fun k'' hk'' => (if_neg fun h => hne ?_).symm
        obtain rfl := heq k'' hk'' h.1
        exact h.2.2
    · rw [transfer_of_right_eq_none (search_fill_of_notMem hf fun k hk h => hl ⟨k, hk, h⟩)]
      exact render_congr fun k hk => (if_neg fun h => hl ⟨k, hk, h.1⟩).symm
  · rw [transfer_of_left_eq_none (search_fill_of_notMem hu fun k hk h => ho ⟨k, hk, h⟩)]
    exact render_congr fun k _ => (if_neg fun h => ho ⟨k, h.2.1, h.1⟩).symm

/-- Rule by rule, all regions of the names are transferred that both texts have. -/
theorem foldl_transfer_fill {o l : Layout M.sep K} (hu : o.Free u) (hf : l.Free f)
    (hne : ∀ k ∈ regions l.pieces, f k ≠ []) (ns : List N)
    (hn : ∀ k ∈ regions l.pieces, ∀ k' ∈ regions o.pieces, name k = name k' → k = k') :
    ns.foldl (fun new n => transfer (M.mark (.opening n)) (M.mark (.closing n)) (o.fill name u) new) (l.fill name f) =
      l.fill name fun k => if name k ∈ ns ∧ k ∈ regions o.pieces ∧ u k ≠ [] then u k else f k := by
  induction ns generalizing f with
  | nil => exact render_congr fun k _ => (if_neg fun h => absurd h.1 List.not_mem_nil).symm
  | cons n ns ih =>
    rw [List.foldl_cons, transfer_fill hu hf fun k hk k' hk' h h' => hn k hk k' hk' (h.trans h'.symm), ih]
    · refine render_congr fun k hk => ?_
      by_cases htake : k ∈ regions o.pieces ∧ u k ≠ []
      · simp only [htake.1, htake.2, hne k hk, ne_eq, not_false_eq_true, and_true, List.mem_cons]
        by_cases hfirst : name k = n <;> simp [hfirst]
      · exact (if_neg fun h => htake h.2).trans
          ((if_neg fun h => htake ⟨h.2.1, h.2.2.1⟩).trans (if_neg fun h => htake h.2).symm)
    · intro k hk
      dsimp only
      split_ifs with h
      exacts [hu k h.2.1, hf k hk]
    · intro k hk
      split_ifs with h
      exacts [h.2.2.1, hne k hk]

end Search

end Layout

end Riaps.Foundation
