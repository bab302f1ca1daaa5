import Mathlib.Data.List.Basic
import Mathlib.Logic.Function.Basic
import Riaps.Foundation.Runs

/-!
# State machine components

A component derived from `FSM` declares states and events, two enumerations,
and with `@FSM.on` its transitions. `_update` handles an event: it receives the
message, asks the guards of the event's transitions in the current state one
after another, and fires the first that holds.

Guards, actions, entry and exit functions are any functions of the component;
a guard may change the component too. Two things go wrong in the loop. The
target of a transition is tested for its truth value, which for a member of a
mixed-in enumeration such as `IntEnum` can be false; and the guards after the
one that holds are asked when the functions of the transition have run already.
`update_ok_iff` says when neither matters.
-/

namespace Riaps.Component

open Riaps.Foundation

universe u

variable {S E M D : Type u}

/-! ### The class -/

/-- What the functions of the component read and change: its variables, its state, and
the last message of each port. -/
structure Obj (S E M D : Type u) where
  data : D
  /-- `_current_`. -/
  current : S
  /-- `_msg_` of the ports, named like the events. -/
  msg : E → Option M

/-- A transition, as `@FSM.on(event, state, guard, then)` declares it. -/
structure Transition (S E M D : Type u) where
  event : E
  state : S
  guard : Obj S E M D → Bool × Obj S E M D
  /-- `then`. -/
  target : Option S
  func : Obj S E M D → Obj S E M D

/-- A class derived from `FSM`. -/
structure FsmClass (S E M D : Type u) where
  /-- The transitions, in the order of declaration. -/
  transitions : List (Transition S E M D)
  /-- `_entry_map_`. -/
  entry : S → Option (Obj S E M D → Obj S E M D)
  /-- `_exit_map_`. -/
  exit : S → Option (Obj S E M D → Obj S E M D)
  /-- `bool(state)`: true of the members of a plain `Enum`, as the mixed-in type has it for others. -/
  truthy : S → Bool

/-- What `_update` does, but for asking guards. -/
inductive FsmNote (S : Type u) where
  /-- A state is left: its exit function runs, if it has one. -/
  | exit (s : S)
  /-- The function of the event's transition number `i` runs, and leaves the state `left`. -/
  | action (i : ℕ) (left : S)
  /-- A state is entered: its entry function runs, if it has one. -/
  | entry (s : S)
  /-- `handleNondeterminism`. -/
  | nondeterminism
  /-- `handleUnhandledEvent`. -/
  | unhandledEvent
  /-- `handleNoTransition`. -/
  | noTransition
  deriving DecidableEq

/-- The component and the messages that wait on its ports. -/
structure Fsm (S E M D : Type u) where
  obj : Obj S E M D
  inbox : E → List M

/-- The transition fired, if one was. -/
def FsmNote.fired : FsmNote S → Option ℕ
  | .action i _ => some i
  | _ => none

namespace FsmClass

variable (m : FsmClass S E M D)

/-- Run a function, if there is one. -/
def callOpt (f : Option (Obj S E M D → Obj S E M D)) (o : Obj S E M D) : Obj S E M D :=
  match f with
  | some f => f o
  | none => o

/-- The component when the exit function of `cid` and the function of `t` have run. -/
def act (cid : S) (t : Transition S E M D) (o : Obj S E M D) : Obj S E M D := t.func (callOpt (m.exit cid) o)

/-- `then if then else self._current_`. -/
def next (t : Transition S E M D) (current : S) : S :=
  match t.target with
  | some target => if m.truthy target then target else current
  | none => current

/-- Fire a transition in state `cid`: the component after it. -/
def fire (cid : S) (t : Transition S E M D) (o : Obj S E M D) : Obj S E M D :=
  let o := m.act cid t o
  let next := m.next t o.current
  { callOpt (m.entry next) o with current := next }

/-- What is done when transition number `i` fires in state `cid`. -/
def fireNotes (cid : S) (i : ℕ) (t : Transition S E M D) (o : Obj S E M D) : List (FsmNote S) :=
  let o := m.act cid t o
  [.exit cid, .action i o.current, .entry (m.next t o.current)]

/-- The loop over the transitions, from number `i` on. -/
def loop (cid : S) : ℕ → List (Transition S E M D) → Bool → Obj S E M D → Obj S E M D × List (FsmNote S)
  | _, [], _, o => (o, [])
  | i, t :: ts, fired, o =>
    if (t.guard o).1 then
      let o := (t.guard o).2
      if fired then
        let r := loop cid (i + 1) ts true o
        (r.1, .nondeterminism :: r.2)
      else
        let r := loop cid (i + 1) ts true (m.fire cid t o)
        (r.1, m.fireNotes cid i t o ++ r.2)
    else loop cid (i + 1) ts fired (t.guard o).2

variable [DecidableEq S] [DecidableEq E]

/-- `_trans_map_[event][state]`: the transitions in the order of declaration, as `FsmTables` has them. -/
def tlist (e : E) (s : S) : List (Transition S E M D) := m.transitions.filter fun t => t.event = e ∧ t.state = s

/-- `_recv_message`. The handler of an event runs when a message waits; if there is none,
`recv` raises an exception that is caught. -/
def recvMessage (e : E) (s : Fsm S E M D) : Fsm S E M D :=
  match s.inbox e with
  | msg :: rest =>
    { obj := { s.obj with msg := Function.update s.obj.msg e (some msg) }
      inbox := Function.update s.inbox e rest }
  | [] => s

/-- `_update`: the component after the event, and what was done. -/
def update (e : E) (s : Fsm S E M D) : Fsm S E M D × List (FsmNote S) :=
  let s := recvMessage e s
  if m.transitions.any fun t => t.event = e then
    match m.tlist e s.obj.current with
    | [] => (s, [.unhandledEvent])
    | ts =>
      let (o, notes) := m.loop s.obj.current 0 ts false s.obj
      ({ s with obj := o }, notes)
  else (s, [.noTransition])

/-! ### The loop -/

section Loop

omit [DecidableEq S] [DecidableEq E]

/-- The component when all guards have been asked, one after another. -/
def asked (ts : List (Transition S E M D)) (o : Obj S E M D) : Obj S E M D := ts.foldl (fun o t => (t.guard o).2) o

/-- How many guards hold, asked one after another. -/
def held : List (Transition S E M D) → Obj S E M D → ℕ
  | [], _ => 0
  | t :: ts, o => (if (t.guard o).1 then 1 else 0) + held ts (t.guard o).2

/-- The first transition whose guard holds, the guards asked one after another: its number
from `i` on, it, the ones after it, and the component then. -/
def search : ℕ → List (Transition S E M D) → Obj S E M D →
    Option (ℕ × Transition S E M D × List (Transition S E M D) × Obj S E M D)
  | _, [], _ => none
  | i, t :: ts, o => if (t.guard o).1 then some (i, t, ts, (t.guard o).2) else search (i + 1) ts (t.guard o).2

/-- The loop when a transition has fired: the guards that are left are asked. -/
theorem loop_fired (cid : S) (i : ℕ) (ts : List (Transition S E M D)) (o : Obj S E M D) :
    m.loop cid i ts true o = (asked ts o, List.replicate (held ts o) .nondeterminism) := by
  induction ts generalizing i o with
  | nil => rfl
  | cons t ts ih =>
    rw [loop, held, asked, List.foldl_cons]
    cases hcond : (t.guard o).1 with
    | true => simp [ih, asked, List.replicate_add]
    | false => simp [ih, asked]

/-- The loop when none has fired: the first transition found fires. -/
theorem loop_eq (cid : S) (i : ℕ) (ts : List (Transition S E M D)) (o : Obj S E M D) :
    m.loop cid i ts false o =
      match search i ts o with
      | none => (asked ts o, [])
      | some (j, t, rest, o') =>
        (asked rest (m.fire cid t o'),
          m.fireNotes cid j t o' ++ List.replicate (held rest (m.fire cid t o')) .nondeterminism) := by
  induction ts generalizing i o with
  | nil => rfl
  | cons t ts ih =>
    rw [loop, search]
    cases hcond : (t.guard o).1 with
    | true => simp [loop_fired]
    | false => simp [ih, asked]

theorem search_spec {i : ℕ} {ts : List (Transition S E M D)} {o : Obj S E M D} {j : ℕ} {t : Transition S E M D}
    {rest : List (Transition S E M D)} {o' : Obj S E M D} (h : search i ts o = some (j, t, rest, o')) :
    ∃ pre, ts = pre ++ t :: rest ∧ j = i + pre.length := by
  induction ts generalizing i o with
  | nil => cases h
  | cons u ts ih =>
    rw [search] at h
    split at h
    · cases h
      exact ⟨[], rfl, rfl⟩
    · obtain ⟨pre, rfl, rfl⟩ := ih h
      exact ⟨u :: pre, rfl, by rw [List.length_cons]; omega⟩

end Loop

/-! ### Handling an event -/

/-- The event was handled as it should be: one message was received from its port; of its
transitions in the old state the first one fired whose guard held when the message had
come, and only that; the old state was left, the action ran, and the state was entered
that `then` gives, or the one that the action left, and is the state now; and it was
reported if and only if two guards held. -/
structure UpdateOk (e : E) (s : Fsm S E M D) : Prop where
  received : (m.update e s).1.inbox = Function.update s.inbox e (s.inbox e).tail
  fired : (m.update e s).2.filterMap FsmNote.fired =
    ((m.tlist e s.obj.current).findIdx? fun t => (t.guard (recvMessage e s).obj).1).toList
  next : ∀ i left, .action i left ∈ (m.update e s).2 → ∃ t, (m.tlist e s.obj.current)[i]? = some t ∧
    (m.update e s).1.obj.current = t.target.getD left ∧
    (m.update e s).2.filter (· ≠ .nondeterminism) =
      [.exit s.obj.current, .action i left, .entry (t.target.getD left)]
  reported : .nondeterminism ∈ (m.update e s).2 ↔
    2 ≤ (m.tlist e s.obj.current).countP fun t => (t.guard (recvMessage e s).obj).1

/-- What makes `_update` do so: asked one after another, the guards give the transition that
is the first whose guard holds when the message has come; its target, if it has one, is
not false, or it is the state its action left; and of the guards after it, asked when it
has fired, none changes the state, and one holds if one held when the message had come. -/
def Regular (e : E) (s : Fsm S E M D) : Prop :=
  let o := (recvMessage e s).obj
  let ts := m.tlist e s.obj.current
  match search 0 ts o with
  | none => ∀ t ∈ ts, (t.guard o).1 = false
  | some (i, t, rest, o') =>
    (ts.findIdx? fun t => (t.guard o).1) = some i ∧
    (∀ target, t.target = some target → m.truthy target ∨ target = (m.act s.obj.current t o').current) ∧
    (asked rest (m.fire s.obj.current t o')).current = (m.fire s.obj.current t o').current ∧
    (0 < held rest (m.fire s.obj.current t o') ↔ ∃ u ∈ rest, (u.guard o).1)

omit [DecidableEq S] in
/-- One message is received. -/
theorem inbox_recvMessage (e : E) (s : Fsm S E M D) :
    (recvMessage e s).inbox = Function.update s.inbox e (s.inbox e).tail := by
  unfold recvMessage
  split
  · rename_i h
    rw [h]
    rfl
  · rename_i h
    rw [h, List.tail_nil, ← h, Function.update_eq_self]

omit [DecidableEq S] in
@[simp] theorem current_recvMessage (e : E) (s : Fsm S E M D) : (recvMessage e s).obj.current = s.obj.current := by
  unfold recvMessage
  split <;> rfl

section Branches

variable {m} {e : E} {s : Fsm S E M D}

/-- An event for which no guard holds. -/
theorem update_of_none (h : search 0 (m.tlist e s.obj.current) (recvMessage e s).obj = none) :
    (m.update e s).1.inbox = (recvMessage e s).inbox ∧
      ∀ x ∈ (m.update e s).2, x = .unhandledEvent ∨ x = .noTransition := by
  unfold update
  simp only [current_recvMessage]
  split
  · split
    · exact ⟨rfl, by simp⟩
    · rw [loop_eq, h]
      exact ⟨rfl, by simp⟩
  · exact ⟨rfl, by simp⟩

/-- An event that fires a transition. -/
theorem update_of_some {i : ℕ} {t : Transition S E M D} {rest : List (Transition S E M D)} {o : Obj S E M D}
    (h : search 0 (m.tlist e s.obj.current) (recvMessage e s).obj = some (i, t, rest, o)) :
    m.update e s =
      ({ recvMessage e s with obj := asked rest (m.fire s.obj.current t o) },
        m.fireNotes s.obj.current i t o ++
          List.replicate (held rest (m.fire s.obj.current t o)) .nondeterminism) := by
  obtain ⟨pre, hts, -⟩ := search_spec h
  have hmem : t ∈ m.tlist e s.obj.current := by simp [hts]
  have hany : (m.transitions.any fun t => t.event = e) = true := by
    obtain ⟨ht, hte⟩ := List.mem_filter.mp hmem
    exact List.any_eq_true.mpr ⟨t, ht, by simpa using (of_decide_eq_true hte).1⟩
  unfold update
  simp only [current_recvMessage, hany, if_true]
  split
  · rename_i hnil
    rw [hnil] at hmem
    cases hmem
  · rw [loop_eq, h]

end Branches

omit [DecidableEq E] in
/-- What is done when a transition fires, and how often it is reported. -/
theorem notes_of_some (cid : S) (i : ℕ) (t : Transition S E M D) (o : Obj S E M D) (n : ℕ) :
    let notes := m.fireNotes cid i t o ++ List.replicate n .nondeterminism
    notes.filterMap FsmNote.fired = [i] ∧ notes.filter (· ≠ .nondeterminism) = m.fireNotes cid i t o ∧
      (.nondeterminism ∈ notes ↔ 0 < n) ∧
        (∀ j left, .action j left ∈ notes → j = i ∧ left = (m.act cid t o).current) := by
  refine ⟨?_, ?_, ?_, fun j left h => ?_⟩
  · rw [List.filterMap_append, List.filterMap_replicate]
    rfl
  · simp [fireNotes]
  · simp [fireNotes, Nat.pos_iff_ne_zero]
  · simpa [fireNotes] using h

omit [DecidableEq S] [DecidableEq E] in
/-- When the first element to satisfy `p` is known, the others come after it. -/
theorem countP_of_findIdx? {α : Type u} {p : α → Bool} {pre rest : List α} {x : α}
    (h : (pre ++ x :: rest).findIdx? p = some pre.length) :
    (pre ++ x :: rest).countP p = rest.countP p + 1 := by
  obtain ⟨hlt, hx, hpre⟩ := List.findIdx?_eq_some_iff_getElem.mp h
  have hx' : p x = true := by simpa using hx
  have hzero : pre.countP p = 0 := by
    rw [List.countP_eq_zero]
    intro y hy
    obtain ⟨j, hj, rfl⟩ := List.mem_iff_getElem.mp hy
    simpa [List.getElem_append_left hj] using hpre j hj
  rw [List.countP_append, hzero, List.countP_cons_of_pos hx', Nat.zero_add]

omit [DecidableEq S] [DecidableEq E] in
/-- The target given is where the transition goes, if it is true or the state left anyway. -/
theorem next_eq_iff (t : Transition S E M D) (left : S) :
    m.next t left = t.target.getD left ↔ ∀ target, t.target = some target → m.truthy target ∨ target = left := by
  unfold next
  cases t.target with
  | none => simp
  | some target =>
    by_cases htrue : m.truthy target
    · simp [htrue]
    · simpa [htrue] using eq_comm

/-- With no guard that holds when asked, handling is as it should be if none held before. -/
theorem updateOk_iff_of_none {e : E} {s : Fsm S E M D}
    (h : search 0 (m.tlist e s.obj.current) (recvMessage e s).obj = none) :
    m.UpdateOk e s ↔ ∀ t ∈ m.tlist e s.obj.current, (t.guard (recvMessage e s).obj).1 = false := by
  obtain ⟨hin, hnotes⟩ := update_of_none h
  have hfired : (m.update e s).2.filterMap FsmNote.fired = [] := by
    rw [List.filterMap_eq_nil_iff]
    intro x hx
    rcases hnotes x hx with rfl | rfl <;> rfl
  constructor
  · intro hok
    have hfirst := hok.fired
    rw [hfired, eq_comm, Option.toList_eq_nil_iff, List.findIdx?_eq_none_iff] at hfirst
    exact hfirst
  · intro hnone
    refine ⟨hin.trans (inbox_recvMessage e s), ?_, fun i left hmem => ?_, ?_⟩
    · rw [hfired, eq_comm, Option.toList_eq_nil_iff, List.findIdx?_eq_none_iff]
      exact hnone
    · rcases hnotes _ hmem with hx | hx <;> cases hx
    · have hcount : ((m.tlist e s.obj.current).countP fun t => (t.guard (recvMessage e s).obj).1) = 0 :=
        List.countP_eq_zero.mpr fun t ht => by simp [hnone t ht]
      rw [hcount]
      refine iff_of_false (fun hmem => ?_) (by omega)
      rcases hnotes _ hmem with hx | hx <;> cases hx

/-- When a transition fires: it has to be the first whose guard held, to go where it says, and to leave the
guards after it as they were. -/
theorem updateOk_iff_of_some {e : E} {s : Fsm S E M D} {i : ℕ} {t : Transition S E M D}
    {rest : List (Transition S E M D)} {o : Obj S E M D}
    (h : search 0 (m.tlist e s.obj.current) (recvMessage e s).obj = some (i, t, rest, o)) :
    m.UpdateOk e s ↔
      ((m.tlist e s.obj.current).findIdx? fun t => (t.guard (recvMessage e s).obj).1) = some i ∧
      (∀ target, t.target = some target → m.truthy target ∨ target = (m.act s.obj.current t o).current) ∧
      (asked rest (m.fire s.obj.current t o)).current = (m.fire s.obj.current t o).current ∧
      (0 < held rest (m.fire s.obj.current t o) ↔ ∃ u ∈ rest, (u.guard (recvMessage e s).obj).1) := by
  have hup := update_of_some h
  obtain ⟨pre, hts, hi⟩ := search_spec h
  rw [Nat.zero_add] at hi
  obtain ⟨hfired, hran, hreported, haction⟩ := m.notes_of_some s.obj.current i t o
    (held rest (m.fire s.obj.current t o))
  have hget : (m.tlist e s.obj.current)[i]? = some t := by simp [hts, hi]
  have hcount : ((m.tlist e s.obj.current).findIdx? fun t => (t.guard (recvMessage e s).obj).1) = some i →
      (2 ≤ ((m.tlist e s.obj.current).countP fun t => (t.guard (recvMessage e s).obj).1) ↔
        ∃ u ∈ rest, (u.guard (recvMessage e s).obj).1) := by
    intro hfirst
    rw [hts, hi] at hfirst
    rw [hts, countP_of_findIdx? hfirst, ← List.countP_pos_iff]
    omega
  constructor
  · intro hok
    have hfirst := hok.fired
    rw [hup, hfired, eq_comm, Option.toList_eq_singleton_iff] at hfirst
    obtain ⟨t', ht', hcur, hnotes⟩ := hok.next i (m.act s.obj.current t o).current (by simp [hup, fireNotes])
    cases hget.symm.trans ht'
    rw [hup, hran] at hnotes
    have hnext : m.next t (m.act s.obj.current t o).current = t.target.getD (m.act s.obj.current t o).current := by
      simpa [fireNotes] using hnotes
    rw [hup] at hcur
    refine ⟨hfirst, (m.next_eq_iff t _).mp hnext, hcur.trans hnext.symm, ?_⟩
    rw [← hcount hfirst, ← hok.reported, hup, hreported]
  · rintro ⟨hfirst, htarget, hstays, hlater⟩
    have hnext := (m.next_eq_iff t _).mpr htarget
    refine ⟨by rw [hup]; exact inbox_recvMessage e s, by rw [hup, hfired, hfirst]; rfl, fun j left hmem => ?_, ?_⟩
    · rw [hup] at hmem
      obtain ⟨rfl, rfl⟩ := haction j left hmem
      refine ⟨t, hget, ?_, ?_⟩
      · rw [hup, ← hnext]
        exact hstays
      · rw [hup, hran, ← hnext]
        rfl
    · rw [hcount hfirst, hup, hreported, hlater]

/-- **Handling an event** is as it should be exactly when the step is regular. -/
theorem update_ok_iff (e : E) (s : Fsm S E M D) : m.UpdateOk e s ↔ m.Regular e s := by
  unfold Regular
  simp only
  cases h : search 0 (m.tlist e s.obj.current) (recvMessage e s).obj with
  | none => exact m.updateOk_iff_of_none h
  | some r => exact m.updateOk_iff_of_some h

/-- **Handling events**, however many: all of them are handled as they should be exactly
when every step is regular. -/
theorem updates_ok_iff (s : Fsm S E M D) (es : List E) :
    AllSteps (fun s e => (m.update e s).1) (fun s e => m.UpdateOk e s) s es ↔
      AllSteps (fun s e => (m.update e s).1) (fun s e => m.Regular e s) s es :=
  allSteps_congr (fun s e => m.update_ok_iff e s) s es

/-- Two classes for which an event is not handled as it should be. In the first the states
are the members 0 and 1 of an `IntEnum`, and a transition from 1 has the target 0. In the
second two guards hold, and the function of the first transition makes the second fail. -/
theorem update_not_ok :
    (let m : FsmClass ℕ Unit Unit Bool :=
      ⟨[⟨(), 1, fun o => (true, o), some 0, id⟩], fun _ => none, fun _ => none, fun s => s ≠ 0⟩
    ¬ m.UpdateOk () ⟨⟨true, 1, fun _ => none⟩, fun _ => [()]⟩) ∧
    (let m : FsmClass ℕ Unit Unit Bool :=
      ⟨[⟨(), 1, fun o => (o.data, o), none, fun o => { o with data := false }⟩,
        ⟨(), 1, fun o => (o.data, o), none, id⟩], fun _ => none, fun _ => none, fun _ => true⟩
    ¬ m.UpdateOk () ⟨⟨true, 1, fun _ => none⟩, fun _ => [()]⟩) := by
  constructor
  · intro m h
    obtain ⟨t, ht, hcur, -⟩ := h.next 0 1 (by decide)
    cases ht
    exact absurd hcur (by decide)
  · intro m h
    exact absurd h.reported (by decide)

end FsmClass

end Riaps.Component
