import Riaps.Foundation.Histories
import Riaps.Discovery.DhtDbase

/-!
# What is put again

What a server inserted into the table it puts there again from time to time, or
it would be gone after a while. The republisher has an event for each of these
values, `republishMap` has the event, and the backup has the value. All three
are to follow what is inserted and removed (`Covering`).

They do not follow an `insert` of a value that the table has already, from
another host or from before it was removed: nothing is done for that. And when a
value is removed the backup drops the others of its key with it. Runs without
such calls, and only they, are covered all along: `always_covering_iff`.
-/

namespace Riaps.Discovery

open Riaps.Foundation

/-! ### The queue and the map -/

namespace Republisher

/-- Each event of the queue is that of the map for its pair. -/
def Exact (r : Republisher) : Prop := ∀ e p, r.queue.get? e = some p → r.map.get? p = some e

variable {r : Republisher}

theorem exact_init : Exact init := fun e p h => absurd h (by simp [init])

/-- The queue has one event for a pair, if the map has the pair. -/
theorem Exact.existsUnique (h : r.Exact) {p : Text × Text} (hp : p ∈ r.map) : ∃! e, r.queue.get? e = some p := by
  obtain ⟨e, he⟩ := Dict.mem_iff_exists_get?.mp hp
  exact ⟨e, r.queued p e he, fun d hd => Option.some.inj ((h d p hd).symm.trans he)⟩

theorem Exact.add (h : r.Exact) {p : Text × Text} (hp : p ∉ r.map) : (r.add p).Exact := by
  intro e q hq
  change (r.queue.set r.next p).get? e = some q at hq
  change (r.map.set p r.next).get? q = some e
  rw [Dict.get?_set] at hq ⊢
  split_ifs at hq with he
  · rw [if_pos (Option.some.inj hq).symm, he]
  · have hmap := h e q hq
    rw [if_neg (fun hqp : q = p => hp (hqp ▸ Dict.mem_of_get? hmap)), hmap]

theorem Exact.dequeue (h : r.Exact) (e : ℕ) : (r.dequeue e).Exact := by
  intro d q hq
  change (r.queue.del e).get? d = some q at hq
  change (r.mapWithout e).get? q = some d
  rw [Dict.get?_del] at hq
  split_ifs at hq with hd
  rw [get?_mapWithout, h d q hq, if_neg (fun he => hd (Option.some.inj he))]

/-- What the map has after an event has left the queue. -/
theorem mem_dequeue {e : ℕ} {p q : Text × Text} (hmap : r.map.get? p = some e) :
    q ∈ (r.dequeue e).map ↔ q ∈ r.map ∧ q ≠ p := by
  rw [Dict.mem_iff_exists_get?]
  change (∃ d, (r.mapWithout e).get? q = some d) ↔ _
  rw [get?_mapWithout]
  split_ifs with hq
  · have hqp : q = p := Option.some.inj ((r.queued q e hq).symm.trans (r.queued p e hmap))
    simp [hqp]
  · rw [← Dict.mem_iff_exists_get?]
    refine ⟨fun h => ⟨h, ?_⟩, And.left⟩
    rintro rfl
    exact hq hmap

theorem mem_del {p q : Text × Text} : q ∈ (r.del p).map ↔ q ∈ r.map ∧ q ≠ p := by
  unfold del
  split
  · rename_i e hmap
    exact mem_dequeue hmap
  · rename_i hmap
    refine ⟨fun h => ⟨h, ?_⟩, And.left⟩
    rintro rfl
    exact Dict.get?_eq_none_iff.mp hmap h

theorem Exact.del (h : r.Exact) (p : Text × Text) : (r.del p).Exact := by
  unfold Republisher.del
  split
  · exact h.dequeue _
  · exact h

/-- An event puts its pair again, and that has a new event then. -/
theorem Exact.republish (h : r.Exact) (e : ℕ) :
    (r.republish e).1 = r.queue.get? e ∧ (r.republish e).2.Exact ∧ ∀ q, q ∈ (r.republish e).2.map ↔ q ∈ r.map := by
  unfold Republisher.republish
  cases hq : r.queue.get? e with
  | none => exact ⟨rfl, h, fun q => Iff.rfl⟩
  | some p =>
    have hmap := h e p hq
    dsimp only
    rw [if_pos (Dict.mem_of_get? hmap)]
    have hno : p ∉ (r.dequeue e).map := fun hp => ((mem_dequeue hmap).mp hp).2 rfl
    refine ⟨rfl, (h.dequeue e).add hno, fun q => ?_⟩
    rw [mem_add, mem_dequeue hmap]
    by_cases hqp : q = p
    · simp [hqp, Dict.mem_of_get? hmap]
    · simp [hqp]

end Republisher

/-! ### Steps -/

/-- What happens to the database, as far as its values go. -/
inductive DbaseOp where
  | insert (key value : Text)
  | remove (key value : Text)
  /-- An event of the republisher. -/
  | dhtRepublish (event : ℕ)
  /-- Another host puts a value into the table. -/
  | otherPut (key value : Text)
  deriving DecidableEq

namespace DhtDbase

/-- One of these. -/
def stepOp (dht : Dht) (d : DhtDbase) : DbaseOp → DhtDbase
  | .insert key value => (d.insert dht key value).1
  | .remove key value => (d.remove dht key value).1
  | .dhtRepublish event => d.dhtRepublish event
  | .otherPut key value => d.dhtPut key value

/-- A database, and what happened to it so far. -/
def stepHistory (dht : Dht) (t : DhtDbase × List DbaseOp) (op : DbaseOp) : DhtDbase × List DbaseOp :=
  (t.1.stepOp dht op, t.2 ++ [op])

/-- The pair was inserted here, and not removed since. -/
def Inserted (p : Text × Text) (history : List DbaseOp) : Prop :=
  IsOpen (· = DbaseOp.insert p.1 p.2) (· = DbaseOp.remove p.1 p.2) history

/-- The pair is put again: it is in the map and in the backup, and one event is pending for it. -/
structure Covered (d : DhtDbase) (p : Text × Text) : Prop where
  mem_map : p ∈ d.republisher.map
  backup : p.2 ∈ (d.regDb.get? p.1).getD []
  event : ∃! e, d.republisher.queue.get? e = some p

/-- What was inserted and not removed is covered, and no event puts anything else. -/
structure Covering (t : DhtDbase × List DbaseOp) : Prop where
  covered : ∀ p, Inserted p t.2 → t.1.Covered p
  silent : ∀ p, ¬ Inserted p t.2 → ∀ e, (t.1.republisher.republish e).1 ≠ some p

/-- What covers no less than before: an `insert` of a value that the table has not, or that is put again
already; and a `remove` after which the backup lacks nothing that is put again. -/
def KeepsCovering (t : DhtDbase × List DbaseOp) : DbaseOp → Prop
  | .insert key value => (key, value) ∉ t.1.puts ∨ (key, value) ∈ t.1.republisher.map
  | .remove key value =>
    value ∈ (t.1.regDb.get? key).getD [] → ∀ p ∈ t.1.republisher.map.keys, p.1 = key → p = (key, value)
  | .dhtRepublish _ | .otherPut .. => True

/-- The invariant: what is put again is in the table, was inserted here, and each event is in the map. -/
structure Republishes (t : DhtDbase × List DbaseOp) : Prop where
  backed : t.1.Backed
  exact : t.1.republisher.Exact
  inserted : ∀ p ∈ t.1.republisher.map, Inserted p t.2

variable {dht : Dht} {t : DhtDbase × List DbaseOp} {p q : Text × Text}

theorem republishes_init : Republishes (init, []) where
  backed := fun p hp => absurd hp (by simp [init, Republisher.init])
  exact := Republisher.exact_init
  inserted := fun p hp => absurd hp (by simp [init, Republisher.init])

/-! ### What is inserted -/

theorem inserted_insert {history : List DbaseOp} :
    Inserted q (history ++ [.insert p.1 p.2]) ↔ q = p ∨ Inserted q history := by
  have hopens : DbaseOp.insert p.1 p.2 = .insert q.1 q.2 ↔ q = p := by simp [Prod.ext_iff, eq_comm]
  simp [Inserted, isOpen_concat, hopens]

theorem inserted_remove {history : List DbaseOp} :
    Inserted q (history ++ [.remove p.1 p.2]) ↔ Inserted q history ∧ q ≠ p := by
  have hcloses : DbaseOp.remove p.1 p.2 = .remove q.1 q.2 ↔ q = p := by simp [Prod.ext_iff, eq_comm]
  simp [Inserted, isOpen_concat, hcloses]

@[simp] theorem inserted_dhtRepublish {history : List DbaseOp} {event : ℕ} :
    Inserted q (history ++ [.dhtRepublish event]) ↔ Inserted q history := by
  simp [Inserted, isOpen_concat]

@[simp] theorem inserted_otherPut {history : List DbaseOp} {key value : Text} :
    Inserted q (history ++ [.otherPut key value]) ↔ Inserted q history := by
  simp [Inserted, isOpen_concat]

/-! ### The invariant -/

theorem dhtRepublish_republisher (event : ℕ) (d : DhtDbase) :
    (d.dhtRepublish event).republisher = (d.republisher.republish event).2 := by
  unfold dhtRepublish
  split
  · rename_i heq
    rw [heq]
    rfl
  · rename_i heq
    rw [heq]

theorem dhtRepublish_regDb (event : ℕ) (d : DhtDbase) : (d.dhtRepublish event).regDb = d.regDb := by
  unfold dhtRepublish
  split <;> rfl

/-- An `insert` of a value that the table has not. -/
theorem insert_of_notMem {d : DhtDbase} (h : p ∉ d.puts) :
    (d.insert dht p.1 p.2).1.republisher = d.republisher.add p ∧
      (d.insert dht p.1 p.2).1.regDb = DhtBackup.addKeyValue p.1 p.2 d.regDb := by
  rw [insert, if_neg (fun hm => h (mem_dhtGet.mp hm))]
  exact ⟨rfl, rfl⟩

/-- An `insert` of a value that the table has. -/
theorem insert_of_mem {d : DhtDbase} (h : p ∈ d.puts) : (d.insert dht p.1 p.2).1 = d := by
  rw [insert, if_pos (mem_dhtGet.mpr h)]

theorem remove_regDb (d : DhtDbase) : (d.remove dht p.1 p.2).1.regDb = DhtBackup.delKeyValue p.1 p.2 d.regDb := by
  unfold remove dhtRemove
  dsimp only
  split_ifs <;> rfl

theorem Republishes.step (h : Republishes t) (op : DbaseOp) : Republishes (stepHistory dht t op) := by
  obtain ⟨hbacked, hexact, hinserted⟩ := h
  cases op with
  | insert key value =>
    refine ⟨hbacked.insert dht key value, ?_, ?_⟩
    · by_cases hput : (key, value) ∈ t.1.puts
      · simpa only [stepHistory, stepOp, insert_of_mem hput] using hexact
      · simpa only [stepHistory, stepOp, insert_of_notMem hput] using hexact.add fun hp => hput (hbacked _ hp)
    · intro q hq
      refine (inserted_insert (p := (key, value))).mpr ?_
      by_cases hput : (key, value) ∈ t.1.puts
      · simp only [stepHistory, stepOp, insert_of_mem hput] at hq
        exact Or.inr (hinserted q hq)
      · simp only [stepHistory, stepOp, insert_of_notMem hput] at hq
        exact (Republisher.mem_add.mp hq).imp_right (hinserted q)
  | remove key value =>
    refine ⟨hbacked.remove dht key value, ?_, fun q hq => ?_⟩
    · simpa only [stepHistory, stepOp, remove_republisher] using hexact.del (key, value)
    · simp only [stepHistory, stepOp, remove_republisher, Republisher.mem_del] at hq
      exact (inserted_remove (p := (key, value))).mpr ⟨hinserted q hq.1, hq.2⟩
  | dhtRepublish event =>
    obtain ⟨-, hexact', hmap⟩ := hexact.republish event
    refine ⟨hbacked.dhtRepublish event, ?_, fun q hq => ?_⟩
    · simpa only [stepHistory, stepOp, dhtRepublish_republisher] using hexact'
    · simp only [stepHistory, stepOp, dhtRepublish_republisher, hmap] at hq
      exact inserted_dhtRepublish.mpr (hinserted q hq)
  | otherPut key value =>
    refine ⟨fun q hq => List.mem_append_left _ (hbacked q hq), hexact, fun q hq => ?_⟩
    exact inserted_otherPut.mpr (hinserted q hq)

/-- Given the invariant, being covered is being in the map and in the backup. -/
theorem Republishes.covering_iff (h : Republishes t) :
    Covering t ↔ ∀ p, Inserted p t.2 → p ∈ t.1.republisher.map ∧ p.2 ∈ (t.1.regDb.get? p.1).getD [] := by
  constructor
  · intro hc p hp
    exact ⟨(hc.covered p hp).mem_map, (hc.covered p hp).backup⟩
  · intro hc
    refine ⟨fun p hp => ⟨(hc p hp).1, (hc p hp).2, h.exact.existsUnique (hc p hp).1⟩, fun p hp e he => hp ?_⟩
    rw [(h.exact.republish e).1] at he
    exact h.inserted p (Dict.mem_of_get? (h.exact e p he))

/-! ### Runs -/

/-- A step from a covered state covers what is inserted exactly if it is one of those. -/
theorem covering_step_iff (h : Republishes t) (hc : Covering t) (op : DbaseOp) :
    Covering (stepHistory dht t op) ↔ KeepsCovering t op := by
  have hcov := h.covering_iff.mp hc
  rw [(@Republishes.step dht t h op).covering_iff]
  cases op with
  | insert key value =>
    simp only [stepHistory, stepOp, KeepsCovering]
    by_cases hput : (key, value) ∈ t.1.puts
    · rw [or_iff_right (not_not.mpr hput), insert_of_mem (p := (key, value)) hput]
      constructor
      · intro hall
        exact (hall (key, value) (inserted_insert.mpr (Or.inl rfl))).1
      · intro hmap q hq
        rcases (inserted_insert (p := (key, value))).mp hq with rfl | hq
        · exact hcov _ (h.inserted _ hmap)
        · exact hcov q hq
    · refine iff_of_true (fun q hq => ?_) (Or.inl hput)
      obtain ⟨hrep, hdb⟩ := @insert_of_notMem dht (key, value) t.1 hput
      simp only at hrep hdb
      rw [hrep, hdb, Republisher.mem_add, DhtBackup.addKeyValue, Dict.get?_set]
      rcases (inserted_insert (p := (key, value))).mp hq with rfl | hq
      · exact ⟨Or.inl rfl, by simp⟩
      · refine ⟨Or.inr (hcov q hq).1, ?_⟩
        split_ifs with hk
        · rw [Option.getD_some, ← hk]
          exact List.mem_append_left _ (hcov q hq).2
        · exact (hcov q hq).2
  | remove key value =>
    have hdb := @remove_regDb dht (key, value) t.1
    simp only at hdb
    simp only [stepHistory, stepOp, KeepsCovering, remove_republisher, hdb, Republisher.mem_del, DhtBackup.delKeyValue]
    constructor
    · intro hall hvalue q hq hk
      by_contra hne
      have hbackup := (hall q ((inserted_remove (p := (key, value))).mpr ⟨h.inserted q hq, hne⟩)).2
      rw [hk, Dict.get?_set_self, Option.getD_some, if_pos hvalue] at hbackup
      simp at hbackup
    · intro honly q hq
      obtain ⟨hq, hne⟩ := (inserted_remove (p := (key, value))).mp hq
      refine ⟨⟨(hcov q hq).1, hne⟩, ?_⟩
      rw [Dict.get?_set]
      split_ifs with hk hvalue
      · exact absurd (honly hvalue q (hcov q hq).1 hk) hne
      · rw [Option.getD_some, ← hk]
        exact (hcov q hq).2
      · exact (hcov q hq).2
  | dhtRepublish event =>
    refine iff_of_true (fun q hq => ?_) trivial
    simp only [stepHistory, stepOp, dhtRepublish_republisher, dhtRepublish_regDb, (h.exact.republish event).2.2]
    exact hcov q (inserted_dhtRepublish.mp hq)
  | otherPut key value =>
    refine iff_of_true (fun q hq => ?_) trivial
    exact hcov q (inserted_otherPut.mp hq)

/-- **What is inserted is put again** all along a run, exactly if each step keeps it so. -/
theorem always_covering_iff (dht : Dht) (ops : List DbaseOp) :
    Always (stepHistory dht) Covering (init, []) ops ↔ AllSteps (stepHistory dht) KeepsCovering (init, []) ops := by
  have hcovering : Covering (init, []) :=
    republishes_init.covering_iff.mpr fun p hp => absurd hp not_isOpen_nil
  exact always_iff_allSteps (I := Republishes) (fun t op h _ => h.step op)
    (fun t op h hc => covering_step_iff h hc op) republishes_init hcovering ops

/-- A service is inserted, removed and inserted again; or it is removed while another is there under its
key. -/
theorem not_always_covering :
    (¬ Always (stepHistory .inOrder) Covering (init, [])
      [.insert ['k'] ['a'], .remove ['k'] ['a'], .insert ['k'] ['a']]) ∧
    ¬ Always (stepHistory .inOrder) Covering (init, [])
      [.insert ['k'] ['a'], .insert ['k'] ['b'], .remove ['k'] ['a']] := by
  constructor
  · intro h
    have hmap := (h.last.covered (['k'], ['a']) ⟨[_, _], _, [], rfl, rfl, by simp⟩).mem_map
    exact absurd hmap (by decide +kernel)
  · intro h
    have hbackup := (h.last.covered (['k'], ['b']) ⟨[_], _, [_], rfl, rfl, by simp⟩).backup
    exact absurd hbackup (by decide +kernel)

end DhtDbase

end Riaps.Discovery
