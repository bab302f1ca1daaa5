import Riaps.Discovery.DhtDbase

/-!
# What the discovery database finds

What `fetch` returns after any sequence of calls on the database. The pairs of a
key and a plain value that were inserted, and the marks of those that were
removed, are a set with deletion marks, and every call on the database keeps
that (`Stores`).

A mark is never taken back, though: a value that is inserted after its removal
stays hidden. `fetch_iff` says that this is all that goes wrong.
-/

namespace Riaps.Discovery

open Riaps.Foundation

namespace DhtDbase

/-- A call on the database. -/
inductive Call where
  /-- `insert`. -/
  | insert (key value : Text)
  /-- `fetch`. -/
  | fetch (key client : Text)
  /-- `remove`. -/
  | remove (key value : Text)
  /-- `detach`. -/
  | detach (key client : Text)
  /-- `fetchUpdates`. -/
  | fetchUpdates
  /-- `dhtRepublish`, by an event of the republisher. -/
  | dhtRepublish (event : ℕ)
  /-- `dhtValueCallback`, by the listener of a key. -/
  | dhtValueCallback (key value : Text) (expired : Bool)
  deriving DecidableEq

/-- The database after a call. -/
def step (dht : Dht) (d : DhtDbase) : Call → DhtDbase
  | .insert key value => (d.insert dht key value).1
  | .fetch key client => (d.fetch dht key client).1
  | .remove key value => (d.remove dht key value).1
  | .detach key client => d.detach key client
  | .fetchUpdates => d.fetchUpdates.1
  | .dhtRepublish event => d.dhtRepublish event
  | .dhtValueCallback key value expired => d.dhtValueCallback key value expired

/-- What is inserted and removed is plain. -/
def Call.IsPlain : Call → Prop
  | .insert _ value | .remove _ value => Plain value
  | _ => True

instance : ∀ c : Call, Decidable c.IsPlain
  | .insert _ value | .remove _ value => inferInstanceAs (Decidable (Plain value))
  | .fetch .. | .detach .. | .fetchUpdates | .dhtRepublish _ | .dhtValueCallback .. => isTrue trivial

/-- What a call does to the set of the pairs that are stored. -/
def Call.setOp : Call → Option (SetOp (Text × Text))
  | .insert key value => some (.insert (key, value))
  | .remove key value => some (.remove (key, value))
  | _ => none

/-- The insertions and removals of a sequence of calls. -/
def setOps (calls : List Call) : List (SetOp (Text × Text)) := calls.filterMap Call.setOp

/-- The table has the elements and the marks of `m`, and the republisher puts nothing new. -/
structure Stores (d : DhtDbase) (m : Marked (Text × Text)) : Prop where
  added : ∀ {key value}, Plain value → ((key, value) ∈ d.puts ↔ (key, value) ∈ m.added)
  removed : ∀ {key value}, Plain value → ((key, delValue value) ∈ d.puts ↔ (key, value) ∈ m.removed)
  plain : ∀ {p}, p ∈ m.added → Plain p.2
  nonempty : ∀ key, (key, []) ∉ d.puts
  backed : Backed d

theorem Stores.init : Stores init .empty where
  added _ := by simp [DhtDbase.init, Marked.empty]
  removed _ := by simp [DhtDbase.init, Marked.empty]
  plain h := absurd h (by simp [Marked.empty])
  nonempty _ := by simp [DhtDbase.init]
  backed _ h := absurd h (by simp [DhtDbase.init, Republisher.init])

/-- Calls that put nothing new. -/
theorem Stores.of_puts {d d' : DhtDbase} {m : Marked (Text × Text)} (h : Stores d m)
    (hputs : ∀ p, p ∈ d'.puts ↔ p ∈ d.puts) (hbacked : Backed d') : Stores d' m where
  added hv := (hputs _).trans (h.added hv)
  removed hv := (hputs _).trans (h.removed hv)
  plain := h.plain
  nonempty key hk := h.nonempty key ((hputs _).mp hk)
  backed := hbacked

theorem Stores.insert {d : DhtDbase} {m : Marked (Text × Text)} (h : Stores d m) (dht : Dht) {key value : Text}
    (hv : Plain value) : Stores (d.insert dht key value).1 (m.step (.insert (key, value))) where
  added {k v} hv' := by
    rw [mem_insert_puts, h.added hv', Marked.step, Set.mem_insert_iff]
  removed {k v} hv' := by
    rw [mem_insert_puts, h.removed hv', Marked.step]
    exact or_iff_right fun he => hv.ne_delValue (congrArg Prod.snd he).symm
  plain {p} hp := by
    rcases hp with rfl | hp
    exacts [hv, h.plain hp]
  nonempty k hk := by
    rcases (mem_insert_puts ..).mp hk with he | hk
    · exact hv.1 (congrArg Prod.snd he).symm
    · exact h.nonempty k hk
  backed := h.backed.insert dht key value

theorem Stores.remove {d : DhtDbase} {m : Marked (Text × Text)} (h : Stores d m) (dht : Dht) {key value : Text}
    (hv : Plain value) : Stores (d.remove dht key value).1 (m.step (.remove (key, value))) where
  added {k v} hv' := by
    rw [mem_remove_puts, h.added hv', Marked.step]
    exact or_iff_left fun he => hv'.ne_delValue (congrArg Prod.snd he.1)
  removed {k v} hv' := by
    rw [mem_remove_puts, h.removed hv', h.added hv]
    simp [Marked.step, delValue]
  plain := h.plain
  nonempty k hk := by
    rcases (mem_remove_puts ..).mp hk with hk | ⟨he, -⟩
    · exact h.nonempty k hk
    · exact absurd (congrArg Prod.snd he) (by simp [delValue])
  backed := h.backed.remove dht key value

theorem Stores.step {d : DhtDbase} {m : Marked (Text × Text)} (h : Stores d m) (dht : Dht) {c : Call}
    (hc : c.IsPlain) : Stores (step dht d c) (run Marked.step m c.setOp.toList) := by
  cases c with
  | insert key value => exact h.insert dht hc
  | remove key value => exact h.remove dht hc
  | dhtRepublish event => exact h.of_puts (h.backed.mem_dhtRepublish_puts event) (h.backed.dhtRepublish event)
  | fetch key client => exact h.of_puts (fun p => Iff.rfl) h.backed
  | fetchUpdates => exact h.of_puts (fun p => Iff.rfl) h.backed
  | detach key client =>
    exact h.of_puts (fun p => by rw [DhtDbase.step, detach_puts])
      (h.backed.of_eq (detach_puts ..) (detach_republisher ..))
  | dhtValueCallback key value expired =>
    exact h.of_puts (fun p => by rw [DhtDbase.step, dhtValueCallback_puts])
      (h.backed.of_eq (dhtValueCallback_puts ..) (dhtValueCallback_republisher ..))

/-- **The database is a set with deletion marks**, after any sequence of calls. -/
theorem stores_run (dht : Dht) {calls : List Call} (hplain : ∀ c ∈ calls, c.IsPlain) :
    Stores (run (step dht) .init calls) (run Marked.step .empty (setOps calls)) := by
  induction calls using List.reverseRecOn with
  | nil => exact Stores.init
  | append_singleton calls c ih =>
    have hops : setOps (calls ++ [c]) = setOps calls ++ c.setOp.toList := by
      rw [setOps, List.filterMap_append]
      cases h : c.setOp <;> simp [h, setOps]
    rw [hops, run_append, run_append, run_cons, run_nil]
    exact (ih fun d hd => hplain d (List.mem_append_left _ hd)).step dht
      (hplain c (List.mem_append_right _ (List.mem_singleton_self c)))

/-- What is there are the pairs that the set shows. -/
theorem Stores.live_iff {d : DhtDbase} {m : Marked (Text × Text)} (h : Stores d m) (key value : Text) :
    d.Live key value ↔ (key, value) ∈ m.visible := by
  rw [Live, Marked.visible, Set.mem_sdiff]
  constructor
  · rintro ⟨hv, hadd, hdel⟩
    exact ⟨(h.added hv).mp hadd, fun hr => hdel ((h.removed hv).mpr hr)⟩
  · rintro ⟨hadd, hdel⟩
    have hv := h.plain hadd
    exact ⟨hv, (h.added hv).mpr hadd, fun hr => hdel ((h.removed hv).mp hr)⟩

/-- **What the discovery database finds.** After any sequence of calls on the database that insert and
remove plain values, `fetch` returns under a key exactly the values whose latest operation there was an
insertion, if and only if none of these values had been removed after it was inserted for the first time. -/
theorem fetch_iff (dht : Dht) (calls : List Call) (hplain : ∀ c ∈ calls, c.IsPlain) (key client : Text) :
    (∃ values, ((run (step dht) .init calls).fetch dht key client).2 = .ok values ∧
        ∀ value, value ∈ values ↔ SetOp.LatestInsert (setOps calls) (key, value)) ↔
      ∀ value, SetOp.LatestInsert (setOps calls) (key, value) → ¬ SetOp.Revoked (setOps calls) (key, value) := by
  have hstores := stores_run dht hplain
  obtain ⟨values, hvalues, hmem⟩ := mem_fetch dht (hstores.nonempty key) client
  simp only [← Marked.mem_visible_iff_latestInsert, ← hstores.live_iff, ← hmem]
  constructor
  · rintro ⟨values', hvalues', h⟩ value
    obtain rfl := Except.ok.inj (hvalues.symm.trans hvalues')
    exact h value
  · intro h
    exact ⟨values, hvalues, h⟩

/-- Two values, one of them removed. -/
theorem fetch_after_removal :
    ∃ values, ((run (step .inOrder) .init
          [.insert ['k'] ['v'], .insert ['k'] ['w'], .remove ['k'] ['v']]).fetch .inOrder ['k'] ['c']).2 = .ok values ∧
        ∀ value, value ∈ values ↔
          SetOp.LatestInsert (setOps [.insert ['k'] ['v'], .insert ['k'] ['w'], .remove ['k'] ['v']])
            (['k'], value) :=
  (fetch_iff .inOrder _ (by decide) ['k'] ['c']).mpr fun value hl hr => by
    have hmem : SetOp.insert (['k'], value) ∈
      [SetOp.insert (['k'], ['v']), .insert (['k'], ['w']), .remove (['k'], ['v'])] := hl.mem
    simp only [List.mem_cons, SetOp.insert.injEq, Prod.mk.injEq, true_and, reduceCtorEq, List.not_mem_nil,
      or_false] at hmem
    rcases hmem with rfl | rfl
    · exact absurd hl (by decide)
    · exact absurd hr (by decide)

/-- A value that is inserted, removed and inserted again is not found, though the latest operation on it
was an insertion. -/
theorem fetch_after_reinsertion :
    ¬ ∃ values, ((run (step .inOrder) .init
          [.insert ['k'] ['v'], .remove ['k'] ['v'], .insert ['k'] ['v']]).fetch .inOrder ['k'] ['c']).2 = .ok values ∧
        ∀ value, value ∈ values ↔
          SetOp.LatestInsert (setOps [.insert ['k'] ['v'], .remove ['k'] ['v'], .insert ['k'] ['v']])
            (['k'], value) := by
  rintro ⟨values, hvalues, h⟩
  have hfetch : ((run (step .inOrder) .init
      [.insert ['k'] ['v'], .remove ['k'] ['v'], .insert ['k'] ['v']]).fetch .inOrder ['k'] ['c']).2 = .ok [] := by
    decide +kernel
  obtain rfl := Except.ok.inj (hvalues.symm.trans hfetch)
  exact absurd ((h ['v']).mpr (by decide)) (by simp)

end DhtDbase

end Riaps.Discovery
