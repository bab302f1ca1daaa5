import Mathlib.Logic.Function.Basic
import Riaps.Foundation.Runs

/-!
# Broadcast

Nodes that publish to all nodes, themselves among them. A node is a state with a
log of what it has published; it acts on its own, or it hears a message. Between
any two nodes messages arrive in the order in which they were published, however
late, and some may be lost: all there is to know of a link is how many messages
of the one node have come to the other, or were lost on the way.

A state of the network keeps the proof that no node has heard what was not
published. The lemmas say what a move does to the lists of what has been heard,
so that a law about messages sent and received can be proved by counting.
-/

namespace Riaps.Foundation

universe u v w

/-- Nodes that act, hear, and publish. What is published stays in the log. -/
structure Broadcast (ι : Type u) (σ : Type v) (μ : Type w) (α ε : ι → Type*) where
  /-- A node acts on its own. -/
  act : ∀ i, σ → α i → σ
  /-- A node hears a message. -/
  hear : ∀ i, σ → ε i → μ → σ
  /-- What was published in order. -/
  log : σ → List μ
  log_act : ∀ i s c, log s <+: log (act i s c)
  log_hear : ∀ i s e m, log s <+: log (hear i s e m)

/-- The moves of a network. -/
inductive Move {ι : Type u} (α ε : ι → Type*) where
  /-- Node `i` acts. -/
  | act (i : ι) (c : α i)
  /-- The next message from `j` comes to `i`. -/
  | deliver (i j : ι) (e : ε i)
  /-- The next message from `j` to `i` is lost. -/
  | lose (i j : ι)

namespace Broadcast

variable {ι : Type u} {σ : Type v} {μ : Type w} {α ε : ι → Type*} (B : Broadcast ι σ μ α ε)

/-- A state of the network: the nodes, and how many messages of `j` have gone to `i`. -/
structure Net where
  node : ι → σ
  got : ι → ι → ℕ
  got_le : ∀ i j, got i j ≤ (B.log (node j)).length

variable {B}

namespace Net

/-- The messages of `j` that have gone to `i`. -/
def heard (n : B.Net) (i j : ι) : List μ := (B.log (n.node j)).take (n.got i j)

/-- The next message from `j` to `i`. -/
def next (n : B.Net) (i j : ι) : Option μ := (B.log (n.node j))[n.got i j]?

theorem heard_prefix (n : B.Net) (i j : ι) : n.heard i j <+: B.log (n.node j) := List.take_prefix _ _

/-- What was heard and the message that comes next were published. -/
theorem heard_next_prefix {n : B.Net} {i j : ι} {m : μ} (h : n.next i j = some m) :
    n.heard i j ++ [m] <+: B.log (n.node j) := by
  obtain ⟨hlt, hm⟩ := List.getElem?_eq_some_iff.mp h
  rw [heard, ← hm, List.take_append_getElem hlt]
  exact List.take_prefix _ _

variable [DecidableEq ι]

/-- Node `i` goes to state `t`, in which its log may be longer. -/
def update (n : B.Net) (i : ι) (t : σ) (h : B.log (n.node i) <+: B.log t) : B.Net where
  node := Function.update n.node i t
  got := n.got
  got_le k j := by
    by_cases hj : j = i
    · subst hj
      rw [Function.update_self]
      exact Nat.le_trans (n.got_le k j) h.length_le
    · rw [Function.update_of_ne hj]
      exact n.got_le k j

/-- The next message from `j` to `i` goes, if there is one. -/
def advance (n : B.Net) (i j : ι) : B.Net where
  node := n.node
  got k l := if k = i ∧ l = j then min (n.got i j + 1) (B.log (n.node j)).length else n.got k l
  got_le k l := by
    split
    · next h =>
      rw [h.2]
      exact Nat.min_le_right _ _
    · exact n.got_le k l

theorem node_update (n : B.Net) (i : ι) (t : σ) (h : B.log (n.node i) <+: B.log t) (k : ι) :
    (n.update i t h).node k = if k = i then t else n.node k := by
  simp only [update, Function.update_apply]

/-- What was heard before a node moves on is heard after. -/
@[simp] theorem heard_update (n : B.Net) (i : ι) (t : σ) (h : B.log (n.node i) <+: B.log t) (k j : ι) :
    (n.update i t h).heard k j = n.heard k j := by
  unfold heard
  rw [node_update]
  split
  · next hj =>
    subst hj
    have htake : (B.log t).take (n.got k j) = (B.log (n.node j)).take (n.got k j) := by
      obtain ⟨l, hl⟩ := h
      rw [← hl, List.take_append_of_le_length (n.got_le k j)]
    exact htake
  · rfl

/-- A message goes to the end of what was heard, on its link. -/
theorem heard_advance {n : B.Net} {i j : ι} {m : μ} (h : n.next i j = some m) (k l : ι) :
    (n.advance i j).heard k l = if k = i ∧ l = j then n.heard k l ++ [m] else n.heard k l := by
  obtain ⟨hlt, hm⟩ := List.getElem?_eq_some_iff.mp h
  simp only [heard, advance]
  split
  · next hkl =>
    obtain ⟨rfl, rfl⟩ := hkl
    rw [Nat.min_eq_left hlt, ← hm, List.take_append_getElem hlt]
  · rfl

/-- Without a message nothing goes. -/
theorem heard_advance_of_none {n : B.Net} {i j : ι} (h : n.next i j = none) (k l : ι) :
    (n.advance i j).heard k l = n.heard k l := by
  have hlen : (B.log (n.node j)).length ≤ n.got i j := List.getElem?_eq_none_iff.mp h
  simp only [heard, advance]
  split
  · next hkl =>
    obtain ⟨rfl, rfl⟩ := hkl
    rw [Nat.min_eq_right (Nat.le_succ_of_le hlen), List.take_length, List.take_of_length_le hlen]
  · rfl

end Net

variable [DecidableEq ι]

/-- A move of the network. -/
def step (n : B.Net) : Move α ε → B.Net
  | .act i c => n.update i (B.act i (n.node i) c) (B.log_act i _ c)
  | .deliver i j e =>
    match n.next i j with
    | none => n
    | some m => (n.advance i j).update i (B.hear i ((n.advance i j).node i) e m) (B.log_hear i _ e m)
  | .lose i j => n.advance i j

section Moves

variable {n : B.Net} {i j : ι}

theorem node_act (c : α i) (k : ι) :
    (step n (.act i c)).node k = if k = i then B.act i (n.node i) c else n.node k :=
  n.node_update i _ (B.log_act i _ c) k

@[simp] theorem heard_act (c : α i) (k l : ι) : (step n (.act i c)).heard k l = n.heard k l :=
  n.heard_update i _ (B.log_act i _ c) k l

theorem step_deliver_of_none (h : n.next i j = none) (e : ε i) : step n (.deliver i j e) = n := by
  simp only [step, h]

theorem step_deliver {m : μ} (h : n.next i j = some m) (e : ε i) :
    step n (.deliver i j e) =
      (n.advance i j).update i (B.hear i ((n.advance i j).node i) e m) (B.log_hear i _ e m) := by
  simp only [step, h]

theorem node_deliver {m : μ} (h : n.next i j = some m) (e : ε i) (k : ι) :
    (step n (.deliver i j e)).node k = if k = i then B.hear i (n.node i) e m else n.node k := by
  rw [step_deliver h, Net.node_update]
  rfl

theorem heard_deliver {m : μ} (h : n.next i j = some m) (e : ε i) (k l : ι) :
    (step n (.deliver i j e)).heard k l = if k = i ∧ l = j then n.heard k l ++ [m] else n.heard k l := by
  rw [step_deliver h, Net.heard_update, Net.heard_advance h]

/-- What was heard stays heard. -/
theorem heard_lose (k l : ι) : n.heard k l <+: (step n (.lose i j : Move α ε)).heard k l := by
  cases hm : n.next i j with
  | none =>
    simp only [step, Net.heard_advance_of_none hm, List.prefix_refl]
  | some m =>
    rw [step, Net.heard_advance hm]
    split
    · exact List.prefix_append _ _
    · exact List.prefix_refl _

end Moves

/-! ### Messages in another form -/

/-- A network whose nodes are those of another one, and publish and hear the messages of that one in another form. A
state is good if all it has published has a form from which it can be told. -/
structure Coding {μ' : Type*} (B : Broadcast ι σ μ α ε) (B' : Broadcast ι σ μ' α ε) where
  form : μ → μ'
  Fits : μ → Prop
  Good : ι → σ → Prop
  act_eq : ∀ i s c, B'.act i s c = B.act i s c
  hear_eq : ∀ i s e m, Fits m → B'.hear i s e (form m) = B.hear i s e m
  log_eq : ∀ s, B'.log s = (B.log s).map form
  fits : ∀ i s, Good i s → ∀ m ∈ B.log s, Fits m
  good_act : ∀ i s c, Good i s → Good i (B.act i s c)
  good_hear : ∀ i s e m, Good i s → Fits m → Good i (B.hear i s e m)

namespace Coding

variable {μ' : Type*} {B' : Broadcast ι σ μ' α ε} (K : Coding B B')

/-- The two networks are in the same state. -/
structure Same (n : B.Net) (n' : B'.Net) : Prop where
  node : n'.node = n.node
  got : n'.got = n.got
  good : ∀ i, K.Good i (n.node i)

variable {K} {n : B.Net} {n' : B'.Net}

omit [DecidableEq ι] in
/-- The next message is the same, in the other form. -/
theorem Same.next (h : K.Same n n') (i j : ι) : n'.next i j = (n.next i j).map K.form := by
  rw [Net.next, Net.next, h.node, h.got, K.log_eq, List.getElem?_map]

theorem Same.advance (h : K.Same n n') (i j : ι) : K.Same (n.advance i j) (n'.advance i j) := by
  refine ⟨h.node, ?_, h.good⟩
  simp only [Net.advance, h.node, h.got, K.log_eq, List.length_map]

theorem Same.update (h : K.Same n n') {i : ι} {t : σ} (hpre : B.log (n.node i) <+: B.log t)
    (hpre' : B'.log (n'.node i) <+: B'.log t) (ht : K.Good i t) :
    K.Same (n.update i t hpre) (n'.update i t hpre') := by
  refine ⟨?_, h.got, fun j => ?_⟩
  · simp only [Net.update, h.node]
  · rw [Net.node_update]
    split
    · next hj =>
      rw [hj]
      exact ht
    · exact h.good j

/-- A move of the one is a move of the other. -/
theorem Same.step (h : K.Same n n') (a : Move α ε) : K.Same (step n a) (step n' a) := by
  cases a with
  | act i c =>
    have heq : B'.act i (n'.node i) c = B.act i (n.node i) c := by rw [h.node, K.act_eq]
    simp only [Broadcast.step, heq]
    exact h.update _ _ (K.good_act i _ c (h.good i))
  | deliver i j e =>
    cases hm : n.next i j with
    | none =>
      rw [step_deliver_of_none hm, step_deliver_of_none (by rw [h.next, hm]; rfl)]
      exact h
    | some m =>
      have hm' : n'.next i j = some (K.form m) := by
        rw [h.next, hm]
        rfl
      have hfits : K.Fits m := K.fits j _ (h.good j) m ((Net.heard_next_prefix hm).subset (by simp))
      have hadvance := h.advance i j
      have heq : B'.hear i ((n'.advance i j).node i) e (K.form m) = B.hear i ((n.advance i j).node i) e m := by
        rw [hadvance.node, K.hear_eq i _ e m hfits]
      rw [step_deliver hm, step_deliver hm']
      simp only [heq]
      exact hadvance.update _ _ (K.good_hear i _ e m (h.good i) hfits)
  | lose i j => exact h.advance i j

/-- **The simulation rule.** What holds of the nodes in all runs of the one holds in all runs of the other. -/
theorem Same.run (h : K.Same n n') (moves : List (Move α ε)) :
    K.Same (run Broadcast.step n moves) (run Broadcast.step n' moves) := by
  induction moves generalizing n n' with
  | nil => exact h
  | cons a moves ih => exact ih (h.step a)

end Coding

end Broadcast

end Riaps.Foundation
