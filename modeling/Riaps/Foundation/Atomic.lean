import Mathlib.Logic.Function.Basic
import Riaps.Foundation.Runs

/-!
# Objects that answer one call at a time

An object has a state, and threads call it. What is seen of it is when a call begins, when it returns
and with what, and what the object does on its own. An object is *atomic* if a call has its effect
all at once, at some moment between the two; `Atomic` is the machine that works like that, and a
history is linearizable if that machine can have it.

A system is shown to be so by a simulation: each of its steps is some acts of the machine, and the
state of the machine is read off that of the system (`linearizable_run`).
-/

namespace Riaps.Foundation

universe u v w

variable {θ : Type u} {C : Type v} {R : Type w} {σ X : Type*}

/-- What a call does to the state and returns, and what the object does on its own. -/
structure Service (σ : Type*) (C : Type v) (R : Type w) (X : Type*) where
  exec : σ → C → σ × R
  own : σ → X → σ

/-- An act: all but the effect of a call are seen. -/
inductive Act (θ : Type u) (C : Type v) (R : Type w) (X : Type*) where
  | call (t : θ) (c : C)
  | exec (t : θ)
  | ret (t : θ) (r : R)
  | own (x : X)

/-- It is seen. -/
def Act.visible : Act θ C R X → Bool
  | .exec _ => false
  | .call .. | .ret .. | .own _ => true

/-- What a thread is about. -/
inductive Phase (C : Type v) (R : Type w) where
  | idle
  | called (c : C)
  | done (r : R)

/-- The object, and what each thread is about. -/
structure Atomic (θ : Type u) (C : Type v) (R : Type w) (σ : Type*) where
  state : σ
  phase : θ → Phase C R

namespace Atomic

/-- No thread calls. -/
def init (s : σ) : Atomic θ C R σ := ⟨s, fun _ => .idle⟩

variable [DecidableEq θ] (S : Service σ C R X)

/-- A thread changes to a phase. -/
def goto (t : θ) (p : Phase C R) (a : Atomic θ C R σ) : Atomic θ C R σ :=
  { a with phase := Function.update a.phase t p }

/-- One act leads from `a` to `b`. -/
inductive Step : Atomic θ C R σ → Act θ C R X → Atomic θ C R σ → Prop where
  | call {a : Atomic θ C R σ} {t : θ} (c : C) (h : a.phase t = .idle) : Step a (.call t c) (a.goto t (.called c))
  | exec {a : Atomic θ C R σ} {t : θ} {c : C} (h : a.phase t = .called c) :
    Step a (.exec t) ({ a with state := (S.exec a.state c).1 }.goto t (.done (S.exec a.state c).2))
  | ret {a : Atomic θ C R σ} {t : θ} {r : R} (h : a.phase t = .done r) : Step a (.ret t r) (a.goto t .idle)
  | own {a : Atomic θ C R σ} (x : X) : Step a (.own x) { a with state := S.own a.state x }

/-- Acts one after another. -/
inductive Steps : Atomic θ C R σ → List (Act θ C R X) → Atomic θ C R σ → Prop where
  | nil (a : Atomic θ C R σ) : Steps a [] a
  | cons {a b c : Atomic θ C R σ} {x : Act θ C R X} {xs : List (Act θ C R X)} (h : Step S a x b)
    (hs : Steps b xs c) : Steps a (x :: xs) c

variable {S}

theorem Steps.append {a b c : Atomic θ C R σ} {xs ys : List (Act θ C R X)} (h : Steps S a xs b) (h' : Steps S b ys c) :
    Steps S a (xs ++ ys) c := by
  induction h with
  | nil a => exact h'
  | cons hx _ ih => exact .cons hx (ih h')

theorem Steps.single {a b : Atomic θ C R σ} {x : Act θ C R X} (h : Step S a x b) : Steps S a [x] b := .cons h (.nil b)

variable (S)

/-- **A history of an atomic object**: what is seen of some acts. -/
def Linearizable (s : σ) (history : List (Act θ C R X)) : Prop :=
  ∃ acts a, Steps S (init s) acts a ∧ acts.filter Act.visible = history

variable {S}

/-- **The simulation rule.** A system whose steps are acts of the machine has the histories of an atomic object. -/
theorem linearizable_run {τ α : Type*} {step : τ → α → τ} {acts : τ → α → List (Act θ C R X)}
    (view : τ → Atomic θ C R σ) (I : τ → Prop) {s : σ} {t : τ} (hinit : view t = init s) (ht : I t)
    (hI : ∀ t e, I t → I (step t e)) (hstep : ∀ t e, I t → Steps S (view t) (acts t e) (view (step t e)))
    (events : List α) : Linearizable S s ((collect step acts t events).filter Act.visible) := by
  refine ⟨collect step acts t events, view (run step t events), ?_, rfl⟩
  rw [← hinit]
  clear hinit
  induction events generalizing t with
  | nil => exact .nil _
  | cons e events ih => exact (hstep t e ht).append (ih (hI t e ht))

end Atomic

end Riaps.Foundation
