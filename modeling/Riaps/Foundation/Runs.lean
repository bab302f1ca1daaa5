import Mathlib.Data.List.Basic

/-!
# Runs

A component that handles one call after another is a step function: from the
state before a call and the call to the state after it. This module has the
runs of such a function and the rules by which properties of whole runs are
proved from properties of one step. Nothing here depends on what the states or
the calls are.

`Always P` says that `P` holds of every state a run passes through, `AllSteps C`
that every step of the run meets `C`, a condition on the state before the step
and its call. The rules are the invariant rule (`AllSteps.inv`), its forms for
all the states passed (`AllSteps.always`) and for all the steps taken
(`AllSteps.of_inv`), and `always_iff_allSteps`: when one step keeps `P` exactly
if it meets `C`, the same is true of whole runs; `always_iff_allSteps_of_inv` has it
for an invariant that only good steps keep.
-/

namespace Riaps.Foundation

universe u v w

variable {σ : Type u} {α : Type v}

/-- The state after the calls `cs`, handled one after another from state `s`. -/
def run (step : σ → α → σ) (s : σ) (cs : List α) : σ := cs.foldl step s

section Run

variable (step : σ → α → σ)

@[simp] theorem run_nil (s : σ) : run step s [] = s := rfl

@[simp] theorem run_cons (s : σ) (c : α) (cs : List α) : run step s (c :: cs) = run step (step s c) cs := rfl

@[simp] theorem run_append (s : σ) (cs ds : List α) : run step s (cs ++ ds) = run step (run step s cs) ds :=
  List.foldl_append

/-- `P` holds of every state the run passes through, the first and the last included. -/
def Always (P : σ → Prop) (s : σ) (cs : List α) : Prop := ∀ pre, pre <+: cs → P (run step s pre)

/-- Every step of the run meets `C`, a condition on the state before it and its call. -/
def AllSteps (C : σ → α → Prop) (s : σ) (cs : List α) : Prop :=
  ∀ pre c, pre ++ [c] <+: cs → C (run step s pre) c

variable {step}

theorem always_nil {P : σ → Prop} {s : σ} : Always step P s [] ↔ P s := by
  refine ⟨fun h => h [] (List.prefix_refl _), fun h pre hpre => ?_⟩
  rw [List.prefix_nil.mp hpre]
  exact h

theorem always_cons {P : σ → Prop} {s : σ} {c : α} {cs : List α} :
    Always step P s (c :: cs) ↔ P s ∧ Always step P (step s c) cs := by
  constructor
  · intro h
    exact ⟨h [] List.nil_prefix, fun pre hpre => h (c :: pre) (List.cons_prefix_cons.mpr ⟨rfl, hpre⟩)⟩
  · rintro ⟨h₀, h⟩ pre hpre
    cases pre with
    | nil => exact h₀
    | cons d pre =>
      obtain ⟨rfl, hpre'⟩ := List.cons_prefix_cons.mp hpre
      exact h pre hpre'

theorem allSteps_nil {C : σ → α → Prop} {s : σ} : AllSteps step C s [] :=
  fun pre c h => by simp at h

theorem allSteps_cons {C : σ → α → Prop} {s : σ} {c : α} {cs : List α} :
    AllSteps step C s (c :: cs) ↔ C s c ∧ AllSteps step C (step s c) cs := by
  constructor
  · intro h
    refine ⟨h [] c (by simp), fun pre d hpre => ?_⟩
    exact h (c :: pre) d (List.cons_prefix_cons.mpr ⟨rfl, hpre⟩)
  · rintro ⟨h₀, h⟩ pre d hpre
    cases pre with
    | nil =>
      obtain ⟨rfl, -⟩ := List.cons_prefix_cons.mp hpre
      exact h₀
    | cons e pre =>
      obtain ⟨rfl, hpre'⟩ := List.cons_prefix_cons.mp hpre
      exact h pre d hpre'

instance decidableAllSteps {C : σ → α → Prop} [∀ s c, Decidable (C s c)] :
    ∀ (s : σ) (cs : List α), Decidable (AllSteps step C s cs)
  | _, [] => isTrue allSteps_nil
  | s, c :: cs =>
    have := decidableAllSteps (C := C) (step s c) cs
    decidable_of_iff' _ allSteps_cons

theorem allSteps_append {C : σ → α → Prop} {s : σ} {cs ds : List α} :
    AllSteps step C s (cs ++ ds) ↔ AllSteps step C s cs ∧ AllSteps step C (run step s cs) ds := by
  induction cs generalizing s with
  | nil => simp [allSteps_nil]
  | cons c cs ih => simp only [List.cons_append, allSteps_cons, ih, run_cons, and_assoc]

theorem Always.last {P : σ → Prop} {s : σ} {cs : List α} (h : Always step P s cs) : P (run step s cs) :=
  h cs (List.prefix_refl _)

theorem AllSteps.mono {C D : σ → α → Prop} {s : σ} {cs : List α} (h : AllSteps step C s cs)
    (hCD : ∀ t c, C t c → D t c) : AllSteps step D s cs :=
  fun pre c hpre => hCD _ _ (h pre c hpre)

theorem AllSteps.of_forall {C : σ → α → Prop} (h : ∀ t c, C t c) (s : σ) (cs : List α) : AllSteps step C s cs :=
  fun _ _ _ => h _ _

/-- A condition on the calls alone. -/
theorem AllSteps.of_forall_mem {D : α → Prop} {cs : List α} (h : ∀ c ∈ cs, D c) (s : σ) :
    AllSteps step (fun _ c => D c) s cs :=
  fun _ c hpre => h c (hpre.subset (List.mem_append_right _ (List.mem_singleton_self c)))

/-- Two conditions that agree on every step are met by the same runs. -/
theorem allSteps_congr {C D : σ → α → Prop} (h : ∀ t c, C t c ↔ D t c) (s : σ) (cs : List α) :
    AllSteps step C s cs ↔ AllSteps step D s cs :=
  ⟨fun hC => hC.mono fun t c => (h t c).mp, fun hD => hD.mono fun t c => (h t c).mpr⟩

/-- **The invariant rule**: what holds at the start and is kept by every step that
meets `C` holds at the end of a run whose steps all meet `C`. -/
theorem AllSteps.inv {C : σ → α → Prop} {I : σ → Prop} (hI : ∀ t c, I t → C t c → I (step t c)) {s : σ}
    {cs : List α} (hs : I s) (h : AllSteps step C s cs) : I (run step s cs) := by
  induction cs generalizing s with
  | nil => exact hs
  | cons c cs ih =>
    obtain ⟨hc, hcs⟩ := allSteps_cons.mp h
    exact ih (hI s c hs hc) hcs

theorem AllSteps.initial {C : σ → α → Prop} {s : σ} {cs pre : List α} (h : AllSteps step C s cs)
    (hpre : pre <+: cs) : AllSteps step C s pre :=
  fun p c hp => h p c (hp.trans hpre)

/-- The invariant holds of all the states passed, -/
theorem AllSteps.always {C : σ → α → Prop} {I : σ → Prop} (hI : ∀ t c, I t → C t c → I (step t c)) {s : σ}
    {cs : List α} (hs : I s) (h : AllSteps step C s cs) : Always step I s cs :=
  fun _ hpre => (h.initial hpre).inv hI hs

/-- and with it what it says of each step. -/
theorem AllSteps.of_inv {C D : σ → α → Prop} {I : σ → Prop} (hI : ∀ t c, I t → C t c → I (step t c))
    (hD : ∀ t c, I t → C t c → D t c) {s : σ} {cs : List α} (hs : I s) (h : AllSteps step C s cs) :
    AllSteps step D s cs :=
  fun pre c hpre => hD _ c (h.always hI hs pre ((List.prefix_append _ _).trans hpre)) (h pre c hpre)

/-- What every step keeps holds at the end of every run. -/
theorem inv_run {I : σ → Prop} (hI : ∀ t c, I t → I (step t c)) {s : σ} (hs : I s) (cs : List α) :
    I (run step s cs) :=
  (AllSteps.of_forall (fun _ _ => trivial) s cs : AllSteps step (fun _ _ => True) s cs).inv
    (fun t c ht _ => hI t c ht) hs

/-- **Runs whose steps are all good.** When, from a state where `P` and the invariant
`I` hold, a step leads to a state where `P` holds exactly if it meets `C`, then `P`
holds all along a run exactly if every step of the run meets `C`. -/
theorem always_iff_allSteps {C : σ → α → Prop} {I P : σ → Prop} (hI : ∀ t c, I t → P t → I (step t c))
    (hP : ∀ t c, I t → P t → (P (step t c) ↔ C t c)) {s : σ} (hIs : I s) (hPs : P s) (cs : List α) :
    Always step P s cs ↔ AllSteps step C s cs := by
  induction cs generalizing s with
  | nil => simp [always_nil, allSteps_nil, hPs]
  | cons c cs ih =>
    rw [always_cons, allSteps_cons, and_iff_right hPs]
    constructor
    · intro h
      have hP' : P (step s c) := h [] List.nil_prefix
      exact ⟨(hP s c hIs hPs).mp hP', (ih (hI s c hIs hPs) hP').mp h⟩
    · rintro ⟨hc, h⟩
      exact (ih (hI s c hIs hPs) ((hP s c hIs hPs).mpr hc)).mpr h

/-- **Runs that keep an invariant exactly while they are good.** When a step that meets `C` keeps the invariant
`J`, and a step from `J` that does not meet `C` breaks `P`, then `P` holds all along a run exactly if every
step of the run meets `C`. -/
theorem always_iff_allSteps_of_inv {C : σ → α → Prop} {J P : σ → Prop} (hP : ∀ t, J t → P t)
    (hJ : ∀ t c, J t → C t c → J (step t c)) (hC : ∀ t c, J t → P (step t c) → C t c) {s : σ} (hs : J s)
    (cs : List α) : Always step P s cs ↔ AllSteps step C s cs := by
  constructor
  · intro h
    induction cs generalizing s with
    | nil => exact allSteps_nil
    | cons c cs ih =>
      obtain ⟨-, hrest⟩ := always_cons.mp h
      have hc := hC s c hs (hrest [] List.nil_prefix)
      exact allSteps_cons.mpr ⟨hc, ih (hJ s c hs hc) hrest⟩
  · exact fun h pre hpre => hP _ (h.always hJ hs pre hpre)

end Run

/-- **The simulation rule**: a relation that a step on either side keeps is kept by runs of
the same calls. -/
theorem run_sim {τ : Type w} {step : σ → α → σ} {step' : τ → α → τ} {R : σ → τ → Prop}
    (hR : ∀ s t c, R s t → R (step s c) (step' t c)) {s : σ} {t : τ} (h : R s t) (cs : List α) :
    R (run step s cs) (run step' t cs) := by
  induction cs generalizing s t with
  | nil => exact h
  | cons c cs ih => exact ih (hR s t c h)

/-! ### Histories -/

/-- A step, with all the calls so far kept beside the state. -/
def recorded (step : σ → α → σ) (t : σ × List α) (c : α) : σ × List α := (step t.1 c, t.2 ++ [c])

/-! ### Views -/

/-- **What one user sees of a run.** If a call of the user's own changes the user's view as `viewStep`
says, and a call of another leaves it, then the view of the whole run is that of the user's own calls. -/
theorem AllSteps.view {τ : Type w} {β : Type*} {step : σ → α → σ} {C : σ → α → Prop} {view : σ → τ} {own : α → Option β}
    {viewStep : τ → β → Option τ}
    (hown : ∀ s c b, C s c → own c = some b → viewStep (view s) b = some (view (step s c)))
    (hother : ∀ s c, C s c → own c = none → view (step s c) = view s) {s : σ} {cs : List α}
    (h : AllSteps step C s cs) : (cs.filterMap own).foldlM viewStep (view s) = some (view (run step s cs)) := by
  induction cs generalizing s with
  | nil => rfl
  | cons c cs ih =>
    obtain ⟨hc, hcs⟩ := allSteps_cons.mp h
    have hrest := ih hcs
    cases hb : own c with
    | none =>
      rw [List.filterMap_cons_none hb, run_cons, ← hrest, hother s c hc hb]
    | some b =>
      rw [List.filterMap_cons_some hb, List.foldlM_cons, hown s c b hc hb, run_cons, ← hrest]
      rfl

/-! ### What a run produces -/

section Collect

variable {β : Type w} (step : σ → α → σ) (out : σ → α → List β)

/-- What the steps of a run produce, in order. -/
def collect : σ → List α → List β
  | _, [] => []
  | s, c :: cs => out s c ++ collect (step s c) cs

@[simp] theorem collect_nil (s : σ) : collect step out s [] = [] := rfl

@[simp] theorem collect_cons (s : σ) (c : α) (cs : List α) :
    collect step out s (c :: cs) = out s c ++ collect step out (step s c) cs := rfl

@[simp] theorem collect_append (s : σ) (cs ds : List α) :
    collect step out s (cs ++ ds) = collect step out s cs ++ collect step out (run step s cs) ds := by
  induction cs generalizing s with
  | nil => rfl
  | cons c cs ih => simp [ih, List.append_assoc]

/-- A run that produces its calls. -/
@[simp] theorem collect_calls (s : σ) (cs : List α) : collect step (fun _ c => [c]) s cs = cs := by
  induction cs generalizing s with
  | nil => rfl
  | cons c cs ih => simp [ih]

/-- The invariant rule for a property of a state and of what has been produced so far. -/
theorem AllSteps.inv_collect {C : σ → α → Prop} {I : σ → List β → Prop}
    (hI : ∀ t c l, I t l → C t c → I (step t c) (l ++ out t c)) {s : σ} {cs : List α} {l : List β}
    (hs : I s l) (h : AllSteps step C s cs) : I (run step s cs) (l ++ collect step out s cs) := by
  induction cs generalizing s l with
  | nil => simpa using hs
  | cons c cs ih =>
    obtain ⟨hc, hcs⟩ := allSteps_cons.mp h
    simpa [List.append_assoc] using ih (hI s c l hs hc) hcs

end Collect

/-! ### Two components -/

section Both

variable {τ : Type*} {β : Type*} (f : σ → α → σ) (k : τ → β → τ)

/-- Two components side by side, a call to the one or to the other at a time. -/
def both (p : σ × τ) : α ⊕ β → σ × τ
  | .inl c => (f p.1 c, p.2)
  | .inr c => (p.1, k p.2 c)

/-- **Two components that do not read each other's state** run as each does on its own,
whatever the interleaving. -/
theorem run_both (p : σ × τ) (ds : List (α ⊕ β)) :
    run (both f k) p ds = (run f p.1 (ds.filterMap Sum.getLeft?), run k p.2 (ds.filterMap Sum.getRight?)) := by
  induction ds generalizing p with
  | nil => rfl
  | cons d ds ih =>
    rw [run_cons, ih]
    cases d <;> rfl

end Both

end Riaps.Foundation
