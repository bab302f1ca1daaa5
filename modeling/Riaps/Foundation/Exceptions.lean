import Mathlib.Data.List.Forall2
import Mathlib.Tactic.Common

/-!
# Exceptions

A computation that may be ended by an exception, and leaves what it has done by
then. `Ends x s Q E` says what holds after it: `Q` of its value and the state, or
`E` of the exception and the state. The rules take a computation apart, from its
last step to its first.

`check`, `found` and `update` are the steps that may fail: a condition, a lookup,
and an operation that tells whether it went through. `zoom` is a computation on a
part of the state, and `forKeys` a loop over a dictionary that may be changed by it.
-/

namespace Riaps.Foundation

universe u

variable {ε σ α β : Type u}

/-- `Q` holds after the computation, or `E` if an exception has ended it. -/
def Ends (x : EStateM ε σ α) (s : σ) (Q : α → σ → Prop) (E : ε → σ → Prop) : Prop :=
  match x s with
  | .ok a s => Q a s
  | .error e s => E e s

/-- The state after the computation, whatever has ended it. -/
def stateAfter (x : EStateM ε σ α) (s : σ) : σ :=
  match x s with
  | .ok _ s => s
  | .error _ s => s

/-! ### Steps that may fail -/

/-- The exception is raised unless `p`. -/
def check (e : ε) (p : Prop) [Decidable p] : EStateM ε σ PUnit := fun s => if p then .ok ⟨⟩ s else .error e s

/-- The exception is raised if there is nothing. -/
def found (e : ε) (a : Option α) : EStateM ε σ α := fun s =>
  match a with
  | some a => .ok a s
  | none => .error e s

/-- An operation on the state that may fail, in an exception that is told by the state before it. -/
def update (e : σ → ε) (f : σ → σ × Bool) : EStateM ε σ PUnit := fun s =>
  if (f s).2 then .ok ⟨⟩ (f s).1 else .error (e s) (f s).1

/-- A computation on a part of the state. -/
def zoom {ε' τ : Type u} (get : σ → τ) (set : τ → σ → σ) (e : ε' → ε) (x : EStateM ε' τ α) : EStateM ε σ α := fun s =>
  match x (get s) with
  | .ok a t => .ok a (set t s)
  | .error err t => .error (e err) (set t s)

/-- A loop over the keys of a dictionary of the state: before each round, and at the end, its size must be what it was
at the start. -/
def forKeys (e : ε) (len : σ → ℕ) (size : ℕ) (f : β → EStateM ε σ PUnit) : List β → EStateM ε σ PUnit
  | [] => do
    let s ← get
    check e (len s = size)
  | k :: ks => do
    let s ← get
    check e (len s = size)
    f k
    forKeys e len size f ks

/-! ### Rules -/

variable {s : σ} {Q Q' : α → σ → Prop} {E E' : ε → σ → Prop}

theorem ends_stateAfter (x : EStateM ε σ α) (P : σ → Prop) :
    P (stateAfter x s) ↔ Ends x s (fun _ s => P s) fun _ s => P s := by
  rw [stateAfter, Ends]
  cases x s <;> exact Iff.rfl

theorem Ends.mono {x : EStateM ε σ α} (h : Ends x s Q E) (hQ : ∀ a t, Q a t → Q' a t) (hE : ∀ e t, E e t → E' e t) :
    Ends x s Q' E' := by
  rw [Ends] at h ⊢
  cases hx : x s with
  | ok a t => exact hQ a t (by simpa [hx] using h)
  | error e t => exact hE e t (by simpa [hx] using h)

/-- Where `P` holds after the computation, a postcondition may be changed to one that is the same for `P`. -/
theorem Ends.congr {x : EStateM ε σ α} {P : σ → Prop} (h : Ends x s (fun _ t => P t) fun _ t => P t)
    (hQ : ∀ a t, P t → (Q a t ↔ Q' a t)) (hE : ∀ e t, P t → (E e t ↔ E' e t)) : Ends x s Q E ↔ Ends x s Q' E' := by
  rw [Ends] at h ⊢
  rw [Ends]
  cases hx : x s with
  | ok a t => exact hQ a t (by simpa [hx] using h)
  | error e t => exact hE e t (by simpa [hx] using h)

@[simp] theorem ends_true (x : EStateM ε σ α) : Ends x s (fun _ _ => True) fun _ _ => True := by
  rw [Ends]
  cases x s <;> trivial

@[simp] theorem ends_pure (a : α) : Ends (pure a : EStateM ε σ α) s Q E ↔ Q a s := Iff.rfl

@[simp] theorem ends_throw (e : ε) : Ends (throw e : EStateM ε σ α) s Q E ↔ E e s := Iff.rfl

@[simp] theorem ends_bind (x : EStateM ε σ α) (f : α → EStateM ε σ β) {Q : β → σ → Prop} :
    Ends (x >>= f) s Q E ↔ Ends x s (fun a s => Ends (f a) s Q E) E := by
  have hbind : (x >>= f) s = match x s with
    | .ok a s => f a s
    | .error e s => .error e s := rfl
  rw [Ends, Ends, hbind]
  cases x s <;> exact Iff.rfl

@[simp] theorem ends_tryCatch (x : EStateM ε σ α) (f : ε → EStateM ε σ α) :
    Ends (tryCatch x f) s Q E ↔ Ends x s Q fun e s => Ends (f e) s Q E := by
  have hcatch : (tryCatch x f : EStateM ε σ α) s = match x s with
    | .ok a s => .ok a s
    | .error e s => f e s := by
    show EStateM.tryCatch x f s = _
    rw [EStateM.tryCatch]
    cases x s <;> rfl
  rw [Ends, Ends, hcatch]
  cases x s <;> exact Iff.rfl

@[simp] theorem ends_get {Q : σ → σ → Prop} : Ends (get : EStateM ε σ σ) s Q E ↔ Q s s := Iff.rfl

@[simp] theorem ends_modify (f : σ → σ) {Q : PUnit → σ → Prop} :
    Ends (modify f : EStateM ε σ PUnit) s Q E ↔ Q ⟨⟩ (f s) := Iff.rfl

@[simp] theorem ends_check (e : ε) (p : Prop) [Decidable p] {Q : PUnit → σ → Prop} :
    Ends (check e p) s Q E ↔ (p → Q ⟨⟩ s) ∧ (¬p → E e s) := by
  by_cases hp : p <;> simp [Ends, check, hp]

@[simp] theorem ends_found (e : ε) (a : Option α) :
    Ends (found e a) s Q E ↔ (∀ b ∈ a, Q b s) ∧ (a = none → E e s) := by
  cases a <;> simp [Ends, found]

@[simp] theorem ends_update (e : σ → ε) (f : σ → σ × Bool) {Q : PUnit → σ → Prop} :
    Ends (update e f) s Q E ↔ ((f s).2 = true → Q ⟨⟩ (f s).1) ∧ ((f s).2 = false → E (e s) (f s).1) := by
  cases h : (f s).2 <;> simp [Ends, update, h]

@[simp] theorem ends_zoom {ε' τ : Type u} (get : σ → τ) (set : τ → σ → σ) (e : ε' → ε) (x : EStateM ε' τ α) :
    Ends (zoom get set e x) s Q E ↔ Ends x (get s) (fun a t => Q a (set t s)) fun err t => E (e err) (set t s) := by
  rw [Ends, Ends, zoom]
  cases x (get s) <;> exact Iff.rfl

/-- A dictionary that has changed its size ends the loop in an exception. -/
theorem ends_forKeys_of_ne {e : ε} {len : σ → ℕ} {size : ℕ} (f : β → EStateM ε σ PUnit) (ks : List β)
    {Q : PUnit → σ → Prop} (h : len s ≠ size) : Ends (forKeys e len size f ks) s Q E ↔ E e s := by
  cases ks <;> simp [forKeys, h]

/-- Otherwise there is a round more, if there is a key. -/
theorem ends_forKeys_of_eq {e : ε} {len : σ → ℕ} {size : ℕ} {f : β → EStateM ε σ PUnit} {ks : List β}
    {Q : PUnit → σ → Prop} (h : len s = size) :
    Ends (forKeys e len size f ks) s Q E ↔
      match ks with
      | [] => Q ⟨⟩ s
      | k :: ks => Ends (f k) s (fun _ t => Ends (forKeys e len size f ks) t Q E) E := by
  cases ks <;> simp [forKeys, h]

/-- The computation leaves something of the state as it is. -/
def Leaves {τ : Type*} (g : σ → τ) (x : EStateM ε σ α) : Prop :=
  ∀ s, Ends x s (fun _ t => g t = g s) fun _ t => g t = g s

theorem Leaves.bind {τ : Type*} {g : σ → τ} {x : EStateM ε σ α} {f : α → EStateM ε σ β} (hx : Leaves g x)
    (hf : ∀ a, Leaves g (f a)) : Leaves g (x >>= f) := by
  intro s
  rw [ends_bind]
  refine (hx s).mono (fun a t ht => ?_) fun _ _ => id
  rw [← ht]
  exact hf a t

/-- The loop rule: what each round keeps is kept. -/
theorem ends_forM {P : σ → Prop} {f : β → EStateM ε σ PUnit} {l : List β}
    (hf : ∀ b ∈ l, ∀ t, P t → Ends (f b) t (fun _ u => P u) fun _ u => P u) (hs : P s) :
    Ends (l.forM f) s (fun _ t => P t) fun _ t => P t := by
  induction l generalizing s with
  | nil => exact hs
  | cons b l ih =>
    show Ends (f b >>= fun _ => l.forM f) s _ _
    rw [ends_bind]
    refine (hf b List.mem_cons_self s hs).mono (fun _ t ht => ?_) fun _ t ht => ht
    exact ih (fun c hc => hf c (List.mem_cons_of_mem b hc)) ht

/-- The loop rule for what is still to be done: no round raises an exception, and so the loop does not. -/
theorem ends_forM_rest {P : List β → σ → Prop} {f : β → EStateM ε σ PUnit} {l : List β}
    (hf : ∀ b l t, P (b :: l) t → Ends (f b) t (fun _ u => P l u) fun _ _ => False) (hs : P l s) :
    Ends (l.forM f) s (fun _ t => P [] t) fun _ _ => False := by
  induction l generalizing s with
  | nil => exact hs
  | cons b l ih =>
    show Ends (f b >>= fun _ => l.forM f) s _ _
    rw [ends_bind]
    exact (hf b l s hs).mono (fun _ t ht => ih ht) fun _ _ => id

/-! ### Returning -/

section Returns

variable {f : α → EStateM ε σ β}

end Returns

/-! ### Results -/

theorem bind_eq_ok_iff {x : Except ε α} {f : α → Except ε β} {b : β} :
    x >>= f = .ok b ↔ ∃ a, x = .ok a ∧ f a = .ok b := by
  cases x with
  | error e => exact iff_of_false nofun fun ⟨_, ha, _⟩ => nomatch ha
  | ok a =>
    constructor
    · exact fun h => ⟨a, rfl, h⟩
    · rintro ⟨_, ⟨⟩, h⟩
      exact h

@[simp] theorem pure_eq_ok_iff {a b : α} : (pure a : Except ε α) = .ok b ↔ a = b :=
  ⟨Except.ok.inj, congrArg Except.ok⟩

@[simp] theorem throw_ne_ok {e : ε} {a : α} : (throw e : Except ε α) ≠ .ok a := nofun

theorem mapError_eq_ok_iff {ε' : Type u} {f : ε → ε'} {x : Except ε α} {a : α} : x.mapError f = .ok a ↔ x = .ok a := by
  cases x with
  | error e => exact iff_of_false nofun nofun
  | ok b => exact ⟨fun h => congrArg Except.ok (Except.ok.inj h), fun h => congrArg Except.ok (Except.ok.inj h)⟩

/-- Steps that are taken one after another go through if each of them does. -/
theorem mapM_eq_ok_iff {γ : Type u} {f : β → Except ε γ} {l : List β} {l' : List γ} :
    l.mapM f = .ok l' ↔ List.Forall₂ (fun b c => f b = .ok c) l l' := by
  induction l generalizing l' with
  | nil => rw [List.mapM_nil, List.forall₂_nil_left_iff, pure_eq_ok_iff, eq_comm]
  | cons b l ih =>
    rw [List.mapM_cons, List.forall₂_cons_left_iff, bind_eq_ok_iff]
    refine exists_congr fun c => ?_
    rw [bind_eq_ok_iff]
    constructor
    · rintro ⟨hc, cs, hcs, h⟩
      exact ⟨cs, hc, ih.mp hcs, (pure_eq_ok_iff.mp h).symm⟩
    · rintro ⟨cs, hc, hcs, rfl⟩
      exact ⟨hc, cs, ih.mpr hcs, rfl⟩

theorem exists_of_mapM_eq_ok {γ : Type u} {f : β → Except ε γ} {l : List β} {l' : List γ} (h : l.mapM f = .ok l')
    {b : β} (hb : b ∈ l) : ∃ c ∈ l', f b = .ok c := by
  induction mapM_eq_ok_iff.mp h with
  | nil => exact absurd hb List.not_mem_nil
  | cons hc hl ih =>
    rcases List.mem_cons.mp hb with rfl | hb
    · exact ⟨_, List.mem_cons_self, hc⟩
    · obtain ⟨c, hmem, hok⟩ := ih (mapM_eq_ok_iff.mpr hl) hb
      exact ⟨c, List.mem_cons_of_mem _ hmem, hok⟩

theorem mapM_of_forall {γ : Type u} {f : β → Except ε γ} {g : β → γ} {l : List β} (h : ∀ b ∈ l, f b = .ok (g b)) :
    l.mapM f = .ok (l.map g) :=
  mapM_eq_ok_iff.mpr (List.forall₂_map_right_iff.mpr (List.forall₂_same.mpr h))

/-- Checks are passed if each of them is. -/
theorem forM_eq_ok_iff {f : β → Except ε PUnit.{u + 1}} {l : List β} : l.forM f = .ok ⟨⟩ ↔ ∀ b ∈ l, f b = .ok ⟨⟩ := by
  induction l with
  | nil => exact iff_of_true rfl fun _ h => absurd h List.not_mem_nil
  | cons b l ih =>
    show f b >>= (fun _ => l.forM f) = .ok ⟨⟩ ↔ _
    rw [bind_eq_ok_iff, List.forall_mem_cons, ← ih]
    exact ⟨fun ⟨_, hb, hl⟩ => ⟨hb, hl⟩, fun ⟨hb, hl⟩ => ⟨_, hb, hl⟩⟩

/-- A loop goes through if all its rounds before the last one do, and the last one then. -/
theorem foldlM_concat_eq_ok_iff {f : α → β → Except ε α} {a c : α} {l : List β} {b : β} :
    (l ++ [b]).foldlM f a = .ok c ↔ ∃ a', l.foldlM f a = .ok a' ∧ f a' b = .ok c := by
  rw [List.foldlM_append, bind_eq_ok_iff]
  simp only [List.foldlM_cons, List.foldlM_nil, bind_pure]

/-- Each round of a loop that goes through goes through. -/
theorem exists_of_foldlM_eq_ok {f : α → β → Except ε α} {a c : α} {l : List β} (h : l.foldlM f a = .ok c) {b : β}
    (hb : b ∈ l) : ∃ a' c', f a' b = .ok c' := by
  induction l generalizing a with
  | nil => exact absurd hb List.not_mem_nil
  | cons d l ih =>
    rw [List.foldlM_cons] at h
    obtain ⟨a', ha, hl⟩ := bind_eq_ok_iff.mp h
    rcases List.mem_cons.mp hb with rfl | hb
    · exact ⟨a, a', ha⟩
    · exact ih hl hb

end Riaps.Foundation
