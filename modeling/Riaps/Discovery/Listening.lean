import Riaps.Foundation.Histories
import Riaps.Foundation.Runs
import Riaps.Discovery.DhtDbase

/-!
# Listeners and clients

The database listens to the keys that its clients have asked for. All clients of a key
share one listener, which the first of them sets up; and the first that is detached
takes it away again, whoever else was there.

So a key with clients has a listener for as long as a client that is detached is the
last one of its key: `listens_iff`.
-/

namespace Riaps.Discovery

open Riaps.Foundation

/-- What clients do. -/
inductive ClientOp where
  | fetch (key client : Text)
  | detach (key client : Text)
  deriving DecidableEq

namespace DhtDbase

/-- They do it. -/
def stepClient (dht : Dht) (d : DhtDbase) : ClientOp → DhtDbase
  | .fetch key client => (d.fetch dht key client).1
  | .detach key client => d.detach key client

/-- The client fetched the key, and was not detached from it since. -/
def Attached (key client : Text) (ops : List ClientOp) : Prop :=
  IsOpen (· = .fetch key client) (· = .detach key client) ops

/-- A key has a listener if it has a client, and only then. -/
def Listens (t : DhtDbase × List ClientOp) : Prop :=
  ∀ key, key ∈ t.1.listeners ↔ ∃ client, Attached key client t.2

/-- A client that is detached leaves no other client of its key. -/
def LeavesNone (t : DhtDbase × List ClientOp) : ClientOp → Prop
  | .fetch .. => True
  | .detach key client => ∀ other, Attached key other t.2 → other = client

variable {key client other : Text} {ops : List ClientOp}

theorem attached_fetch {k c : Text} :
    Attached key client (ops ++ [.fetch k c]) ↔ (k = key ∧ c = client) ∨ Attached key client ops := by
  rw [Attached, isOpen_concat, Attached]
  simp

theorem attached_detach {k c : Text} :
    Attached key client (ops ++ [.detach k c]) ↔ Attached key client ops ∧ ¬(k = key ∧ c = client) := by
  rw [Attached, isOpen_concat, Attached]
  simp

theorem mem_listeners_detach (key client : Text) (d : DhtDbase) (k : Text) :
    k ∈ (d.detach key client).listeners ↔ k ∈ d.listeners ∧ k ≠ key := by
  have hlisteners : (d.detach key client).listeners = d.listeners.filter (· ≠ key) := by
    unfold detach
    dsimp only
    split_ifs <;> rfl
  rw [hlisteners, List.mem_filter, decide_eq_true_eq]

/-- Nothing but a `detach` that leaves a client takes a listener that is needed. -/
theorem listens_step_iff (dht : Dht) {t : DhtDbase × List ClientOp} (h : Listens t) (op : ClientOp) :
    Listens (recorded (stepClient dht) t op) ↔ LeavesNone t op := by
  cases op with
  | fetch k c =>
    refine iff_of_true (fun key => ?_) trivial
    have hone : (∃ client, k = key ∧ c = client) ↔ key = k := by simp [eq_comm]
    simp only [recorded, stepClient, mem_listeners_fetch, attached_fetch, exists_or, hone, h key]
  | detach k c =>
    have hiff (key : Text) : (key ∈ (recorded (stepClient dht) t (.detach k c)).1.listeners ↔
        ∃ client, Attached key client (recorded (stepClient dht) t (.detach k c)).2) ↔
          (key = k → ∀ other, Attached k other t.2 → other = c) := by
      simp only [recorded, stepClient, mem_listeners_detach, attached_detach, h key]
      by_cases hkey : key = k
      · subst hkey
        simp only [ne_eq, not_true_eq_false, and_false, true_and, false_iff, not_exists, not_and, not_not, true_imp_iff]
        exact forall₂_congr fun _ _ => eq_comm
      · simp [hkey, Ne.symm hkey]
    exact (forall_congr' hiff).trans forall_eq

/-- **Listeners follow clients** all along a run exactly if each client that is detached is the last one of its
key. -/
theorem listens_iff (dht : Dht) {d : DhtDbase} (hd : d.listeners = []) (ops : List ClientOp) :
    Always (recorded (stepClient dht)) Listens (d, []) ops ↔
      AllSteps (recorded (stepClient dht)) LeavesNone (d, []) ops := by
  have hstart : Listens (d, []) := fun key => by
    rw [hd]
    exact iff_of_false List.not_mem_nil fun ⟨_, h⟩ => not_isOpen_nil h
  exact always_iff_allSteps (I := fun _ => True) (fun _ _ _ _ => trivial)
    (fun t op _ h => listens_step_iff dht (t := t) h op) trivial hstart ops

theorem listens_one :
    Always (recorded (stepClient .inOrder)) Listens (init, []) [.fetch ['k'] ['a'], .detach ['k'] ['a']] := by
  refine (listens_iff .inOrder rfl _).mpr ?_
  rw [allSteps_cons, allSteps_cons]
  refine ⟨trivial, fun other hother => ?_, allSteps_nil⟩
  rcases attached_fetch.mp hother with ⟨-, rfl⟩ | h
  exacts [rfl, absurd h not_isOpen_nil]

/-- One of two clients of a key is detached, and the other hears of nothing any more. -/
theorem not_listens :
    ¬ Always (recorded (stepClient .inOrder)) Listens (init, [])
      [.fetch ['k'] ['a'], .fetch ['k'] ['b'], .detach ['k'] ['a']] := by
  intro h
  have hmem := (h.last ['k']).mpr ⟨['b'], [_], _, [_], rfl, rfl, by simp⟩
  exact absurd hmem (by decide +kernel)

end DhtDbase

end Riaps.Discovery
