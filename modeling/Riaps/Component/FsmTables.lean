import Riaps.Component.Fsm
import Riaps.Foundation.Dict
import Riaps.Foundation.PyText

/-!
# The tables of a state machine component

The decorators in the body of a class write what they are given into the members of its two enumerations.
The first instance collects it from there (`FSM.__init__`), into tables that are attributes of the class;
all instances after it find them, those of derived classes too.

`update_eq` says that with these tables an event is handled as `FsmClass` has it, with the transitions of an
event and a state in the order of their declarations.
-/

namespace Riaps.Component

open Riaps.Foundation

universe u

variable {S E M D : Type u}

/-! ### The body of the class -/

/-- A decorated method. -/
inductive Declaration (S E M D : Type u) where
  /-- `@FSM.on(event, state, guard, then)` -/
  | on (t : Transition S E M D)
  /-- `@FSM.entry(state)` -/
  | entry (state : S) (f : Obj S E M D → Obj S E M D)
  /-- `@FSM.exit(state)` -/
  | exit (state : S) (f : Obj S E M D → Obj S E M D)

/-- The transitions, in the order of their declarations. -/
def transitions (ds : List (Declaration S E M D)) : List (Transition S E M D) :=
  ds.filterMap fun
    | .on t => some t
    | .entry .. | .exit .. => none

/-- What the decorators have written into the members of the enumerations. -/
structure Members (S E M D : Type u) where
  /-- `event.__on__` -/
  on : E → Option (List S)
  /-- `event.__dict__`, by the `id` of a state. -/
  tlist : E → Dict S (List (Transition S E M D))
  /-- `state.__dict__['__entry__']` -/
  entry : S → Option (Obj S E M D → Obj S E M D)
  /-- `state.__dict__['__exit__']` -/
  exit : S → Option (Obj S E M D → Obj S E M D)

/-- The tables of a class. -/
structure FsmTables (S E M D : Type u) where
  /-- `_e2name_map_` -/
  e2name : Dict E Text
  /-- `_entry_map_` -/
  entry : Dict S (Obj S E M D → Obj S E M D)
  /-- `_exit_map_` -/
  exit : Dict S (Obj S E M D → Obj S E M D)
  /-- `_trans_map_` -/
  trans : Dict E (Dict S (List (Transition S E M D)))
  /-- `_initial_` -/
  initial : S

variable [DecidableEq S] [DecidableEq E]

namespace Members

/-- Nothing is declared yet. -/
def empty : Members S E M D := ⟨fun _ => none, fun _ => .empty, fun _ => none, fun _ => none⟩

/-- A decorator is applied. -/
def declare (m : Members S E M D) : Declaration S E M D → Members S E M D
  | .on t =>
    let tlist := m.tlist t.event
    { m with
      on := Function.update m.on t.event (some ((m.on t.event).getD [] ++ [t.state]))
      tlist := Function.update m.tlist t.event (tlist.set t.state ((tlist.get? t.state).getD [] ++ [t])) }
  | .entry state f => { m with entry := Function.update m.entry state (some f) }
  | .exit state f => { m with exit := Function.update m.exit state (some f) }

/-- The members after the body of the class. -/
def body (ds : List (Declaration S E M D)) : Members S E M D := ds.foldl declare empty

/-- The class that is declared, if it has these states. -/
def declared (ds : List (Declaration S E M D)) (states : List S) (truthy : S → Bool) : FsmClass S E M D where
  transitions := transitions ds
  entry state := if state ∈ states then (body ds).entry state else none
  exit state := if state ∈ states then (body ds).exit state else none
  truthy := truthy

/-! ### `FSM.__init__` -/

/-- What is asserted of an event: its states, and the targets of its transitions, are among the states. -/
def checks (m : Members S E M D) (states : List S) (e : E) : Bool :=
  ((m.on e).getD []).all fun state =>
    state ∈ states && state ∈ m.tlist e &&
      (((m.tlist e).get? state).getD []).all fun t => t.target.all fun target => target ∈ states

/-- A table of those members that have something. -/
def table {K V : Type u} [DecidableEq K] (f : K → Option V) (members : List K) : Dict K V :=
  members.foldl (fun d k => match f k with | some v => d.set k v | none => d) .empty

/-- `on_map` of an event. -/
def onMap (m : Members S E M D) (e : E) : Option (Dict S (List (Transition S E M D))) :=
  (m.on e).map (table (m.tlist e).get?)

/-- The tables are collected; `none` if an `assert` fails. -/
def collect (m : Members S E M D) (states : List S) (events : Dict Text E) (initial : Option S) :
    Option (FsmTables S E M D) := do
  let initial ← initial
  if initial ∈ states ∧ events.items.all fun i => m.checks states i.2 then
    return {
      e2name := events.items.foldl (fun d i => d.set i.2 i.1) .empty
      entry := table m.entry states
      exit := table m.exit states
      trans := table m.onMap (events.items.map Prod.snd)
      initial }
  else none

/-- `FSM.__init__`: the tables that are found in the class afterwards, its own or those of a class that it is derived
from. -/
def init (m : Members S E M D) (states : List S) (events : Dict Text E) (tables : Option (FsmTables S E M D))
    (initial : Option S) : Option (FsmTables S E M D) :=
  match tables with
  | some tables => some tables
  | none => m.collect states events initial

end Members

namespace FsmTables

/-- The class with these tables; `_update` reads the transitions from another. -/
def cls (T : FsmTables S E M D) (truthy : S → Bool) : FsmClass S E M D := ⟨[], T.entry.get?, T.exit.get?, truthy⟩

/-- `_update`, with the tables. -/
def update (T : FsmTables S E M D) (truthy : S → Bool) (e : E) (s : Fsm S E M D) : Fsm S E M D × List (FsmNote S) :=
  let s := FsmClass.recvMessage e s
  match T.trans.get? e with
  | some onMap =>
    if onMap.len = 0 then (s, [.noTransition])
    else
      match onMap.get? s.obj.current with
      | some (t :: ts) =>
        let (o, notes) := (T.cls truthy).loop s.obj.current 0 (t :: ts) false s.obj
        ({ s with obj := o }, notes)
      | _ => (s, [.unhandledEvent])
  | none => (s, [.noTransition])

end FsmTables

namespace Members

/-! ### What is declared -/

variable {ds : List (Declaration S E M D)} {states : List S} {events : Dict Text E} {truthy : S → Bool}

theorem body_concat (d : Declaration S E M D) : body (ds ++ [d]) = (body ds).declare d := List.foldl_concat ..

omit [DecidableEq S] [DecidableEq E] in
theorem transitions_concat (d : Declaration S E M D) :
    transitions (ds ++ [d]) = transitions ds ++ transitions [d] := List.filterMap_append

/-- What is looked up in a table that has only lists with something in them. -/
def listed {α : Type u} (l : List α) : Option (List α) := if l.isEmpty then none else some l

omit [DecidableEq S] [DecidableEq E] in
theorem listed_concat {α : Type u} (l : List α) (x : α) : listed (l ++ [x]) = some ((listed l).getD [] ++ [x]) := by
  cases l <;> rfl

/-- The states of an event are those of its transitions. -/
theorem on_body (e : E) :
    (body ds).on e = listed (((transitions ds).filter fun t => t.event = e).map Transition.state) := by
  induction ds using List.reverseRecOn with
  | nil => rfl
  | append_singleton ds d ih =>
    rw [body_concat, transitions_concat, List.filter_append, List.map_append]
    cases d with
    | entry state f | exit state f => exact ih.trans (congrArg listed (List.append_nil _).symm)
    | on t =>
      by_cases he : t.event = e
      · subst he
        have hlast : (transitions [.on t]).filter (fun u => u.event = t.event) = [t] :=
          List.filter_eq_self.mpr fun u hu => by simp [List.mem_singleton.mp hu]
        rw [hlast, List.map_singleton, listed_concat, ← ih]
        exact Function.update_self ..
      · have hlast : (transitions [.on t]).filter (fun u => u.event = e) = [] :=
          List.filter_eq_nil_iff.mpr fun u hu => by simpa [List.mem_singleton.mp hu] using he
        rw [hlast, List.map_nil, List.append_nil, ← ih]
        exact Function.update_of_ne (Ne.symm he) ..

/-- The transitions of an event and a state, in the order of their declarations. -/
theorem tlist_body (e : E) (state : S) : ((body ds).tlist e).get? state =
    listed ((transitions ds).filter fun t => t.event = e ∧ t.state = state) := by
  induction ds using List.reverseRecOn with
  | nil => rfl
  | append_singleton ds d ih =>
    rw [body_concat, transitions_concat, List.filter_append]
    cases d with
    | entry state f | exit state f => exact ih.trans (congrArg listed (List.append_nil _).symm)
    | on t =>
      have hdeclare : ((body ds).declare (.on t)).tlist = Function.update (body ds).tlist t.event
        (((body ds).tlist t.event).set t.state ((((body ds).tlist t.event).get? t.state).getD [] ++ [t])) := rfl
      rw [hdeclare]
      by_cases hstate : t.event = e ∧ t.state = state
      · have hlast : (transitions [.on t]).filter (fun u => u.event = e ∧ u.state = state) = [t] :=
          List.filter_eq_self.mpr fun u hu => by simp [List.mem_singleton.mp hu, hstate]
        obtain ⟨rfl, rfl⟩ := hstate
        rw [hlast, listed_concat, ← ih, Function.update_self, Dict.get?_set_self]
      · have hlast : (transitions [.on t]).filter (fun u => u.event = e ∧ u.state = state) = [] :=
          List.filter_eq_nil_iff.mpr fun u hu => by simpa [List.mem_singleton.mp hu] using hstate
        rw [hlast, List.append_nil, ← ih]
        by_cases he : e = t.event
        · subst he
          rw [Function.update_self, Dict.get?_set_of_ne _ _ fun hs => hstate ⟨rfl, hs.symm⟩]
        · rw [Function.update_of_ne he]

/-! ### What is collected -/

omit [DecidableEq S] [DecidableEq E] in
theorem get?_table {K V : Type u} [DecidableEq K] (f : K → Option V) (members : List K) (k : K) :
    (table f members).get? k = if k ∈ members then f k else none := by
  have hfold : ∀ (members : List K) (d : Dict K V),
      (members.foldl (fun d k => match f k with | some v => d.set k v | none => d) d).get? k =
        if k ∈ members then (f k).or (d.get? k) else d.get? k := by
    intro members
    induction members with
    | nil => exact fun _ => rfl
    | cons j members ih =>
      intro d
      rw [List.foldl_cons, ih]
      by_cases hk : k = j
      · subst hk
        cases hf : f k <;> simp
      · cases hf : f j <;> simp [hk, Dict.get?_set_of_ne]
  rw [table, hfold]
  simp

variable {e : E} {initial : Option S} {T : FsmTables S E M D}

/-- An event without transitions has no table of them. -/
theorem onMap_eq_none_iff : (body ds).onMap e = none ↔ ∀ t ∈ transitions ds, t.event ≠ e := by
  rw [onMap, Option.map_eq_none_iff, on_body, listed]
  simp

/-- The table of an event has the transitions of each state. -/
theorem get?_onMap {d : Dict S (List (Transition S E M D))} (h : (body ds).onMap e = some d) (state : S) :
    d.get? state = listed ((declared ds states truthy).tlist e state) := by
  obtain ⟨on, hon, rfl⟩ := Option.map_eq_some_iff.mp h
  rw [get?_table, tlist_body]
  split_ifs with hstate
  · rfl
  · have hnil : (declared ds states truthy).tlist e state = [] := by
      refine List.filter_eq_nil_iff.mpr fun t ht hte => hstate ?_
      obtain ⟨he, hs⟩ := of_decide_eq_true hte
      rw [on_body, listed] at hon
      split_ifs at hon
      rw [← Option.some.inj hon, ← hs]
      exact List.mem_map_of_mem (List.mem_filter.mpr ⟨ht, decide_eq_true he⟩)
    rw [hnil]
    rfl

/-- It is not empty. -/
theorem len_onMap {d : Dict S (List (Transition S E M D))} (h : (body ds).onMap e = some d) : d.len ≠ 0 := by
  intro hlen
  refine absurd (onMap_eq_none_iff.mpr fun t ht he => ?_) (Option.ne_none_iff_exists'.mpr ⟨d, h⟩)
  have hget : d.get? t.state = listed ((declared ds [] fun _ => true).tlist e t.state) := get?_onMap h t.state
  have hmem : t ∈ (declared ds [] fun _ => true).tlist e t.state :=
    List.mem_filter.mpr ⟨ht, decide_eq_true ⟨he, rfl⟩⟩
  have hitems : d.items = [] := List.length_eq_zero_iff.mp hlen
  rw [Dict.get?, hitems, listed, if_neg (by simpa using List.ne_nil_of_mem hmem)] at hget
  cases hget

/-- What is collected. -/
structure Collected (m : Members S E M D) (states : List S) (events : Dict Text E) (T : FsmTables S E M D) : Prop where
  initial : T.initial ∈ states
  checks : ∀ name e, events.get? name = some e → m.checks states e
  e2name : T.e2name = events.items.foldl (fun d i => d.set i.2 i.1) .empty
  entry : T.entry = table m.entry states
  exit : T.exit = table m.exit states
  trans : T.trans = table m.onMap (events.items.map Prod.snd)

theorem collected {m : Members S E M D} (h : m.collect states events initial = some T) :
    initial = some T.initial ∧ Collected m states events T := by
  obtain ⟨start, hstart, h⟩ := Option.bind_eq_some_iff.mp h
  split_ifs at h with hchecks
  obtain rfl := Option.some.inj h
  refine ⟨hstart, hchecks.1, fun name e he => ?_, rfl, rfl, rfl, rfl⟩
  exact List.all_eq_true.mp hchecks.2 (name, e) (Dict.get?_eq_some_iff.mp he)

theorem Collected.get?_trans {m : Members S E M D} (h : Collected m states events T) {name : Text}
    (he : events.get? name = some e) : T.trans.get? e = m.onMap e := by
  rw [h.trans, get?_table, if_pos]
  exact List.mem_map.mpr ⟨(name, e), Dict.get?_eq_some_iff.mp he, rfl⟩

/-- The name of an event, if no other has the same member. -/
theorem Collected.get?_e2name {m : Members S E M D} (h : Collected m states events T)
    (hnodup : (events.items.map Prod.snd).Nodup) {name : Text} (he : events.get? name = some e) :
    T.e2name.get? e = some name := by
  have hfold : ∀ (items : List (Text × E)) (d : Dict E Text), e ∉ items.map Prod.snd →
      (items.foldl (fun d i => d.set i.2 i.1) d).get? e = d.get? e := by
    intro items
    induction items with
    | nil => exact fun _ _ => rfl
    | cons i items ih =>
      intro d hnot
      rw [List.map_cons, List.mem_cons, not_or] at hnot
      rw [List.foldl_cons, ih _ hnot.2, Dict.get?_set_of_ne _ _ hnot.1]
  obtain ⟨before, after, hitems⟩ := List.append_of_mem (Dict.get?_eq_some_iff.mp he)
  rw [hitems, List.map_append, List.map_cons] at hnodup
  have hafter := (List.nodup_cons.mp (List.nodup_append.mp hnodup).2.1).1
  rw [h.e2name, hitems, List.foldl_append, List.foldl_cons, hfold _ _ hafter, Dict.get?_set_self]

omit [DecidableEq S] [DecidableEq E] in
/-- The loop asks the class for the entry and exit functions, and for the truth values of states. -/
theorem loop_congr {m m' : FsmClass S E M D} (hentry : m.entry = m'.entry) (hexit : m.exit = m'.exit)
    (htruthy : m.truthy = m'.truthy) (cid : S) (i : ℕ) (ts : List (Transition S E M D)) (fired : Bool)
    (o : Obj S E M D) : m.loop cid i ts fired o = m'.loop cid i ts fired o := by
  cases m
  cases m'
  obtain rfl : _ = _ := hentry
  obtain rfl : _ = _ := hexit
  obtain rfl : _ = _ := htruthy
  induction ts generalizing i fired o with
  | nil => rfl
  | cons t ts ih =>
    simp only [FsmClass.loop, ih]
    rfl

/-- **With the tables that are collected** an event is handled as the class has it that is declared. -/
theorem Collected.update_eq (h : Collected (body ds) states events T) {name : Text} (he : events.get? name = some e)
    (s : Fsm S E M D) : T.update truthy e s = (declared ds states truthy).update e s := by
  have hentry : (T.cls truthy).entry = (declared ds states truthy).entry := by
    funext state
    exact (congrArg (fun d => Dict.get? d state) h.entry).trans (get?_table ..)
  have hexit : (T.cls truthy).exit = (declared ds states truthy).exit := by
    funext state
    exact (congrArg (fun d => Dict.get? d state) h.exit).trans (get?_table ..)
  rw [FsmTables.update, FsmClass.update, h.get?_trans he]
  cases honMap : (body ds).onMap e with
  | none =>
    have hany : ¬ ((declared ds states truthy).transitions.any fun t => t.event = e) = true := by
      simpa [declared] using onMap_eq_none_iff.mp honMap
    simp only [if_neg hany]
  | some d =>
    have hany : ((declared ds states truthy).transitions.any fun t => t.event = e) = true := by
      by_contra hnot
      rw [onMap_eq_none_iff.mpr (by simpa [declared] using hnot)] at honMap
      cases honMap
    have hget (state : S) : d.get? state = listed ((declared ds states truthy).tlist e state) := get?_onMap honMap state
    simp only [if_pos hany, if_neg (len_onMap honMap), hget]
    cases (declared ds states truthy).tlist e (FsmClass.recvMessage e s).obj.current with
    | nil => rfl
    | cons t ts =>
      simp only [listed, loop_congr hentry hexit rfl]
      rfl

/-! ### The instances of the class -/

/-- What is asserted of an event, of its transitions. -/
theorem checks_body_iff : (body ds).checks states e = true ↔ ∀ t ∈ transitions ds, t.event = e →
    t.state ∈ states ∧ ∀ target, t.target = some target → target ∈ states := by
  have htlist : ∀ state, (((body ds).tlist e).get? state).getD [] =
      (transitions ds).filter fun t => t.event = e ∧ t.state = state := by
    intro state
    rw [tlist_body, listed]
    split_ifs with hnil
    · exact (List.isEmpty_iff.mp hnil).symm
    · rfl
  have hon : ∀ state, state ∈ ((body ds).on e).getD [] ↔ ∃ t ∈ transitions ds, t.event = e ∧ t.state = state := by
    intro state
    rw [on_body, listed]
    split_ifs with hnil
    · rw [List.isEmpty_iff] at hnil
      simp_all
    · simp [and_assoc]
  have hmem : ∀ t ∈ transitions ds, t.event = e → t.state ∈ (body ds).tlist e := by
    intro t ht he
    rw [Dict.mem_iff_exists_get?, tlist_body, listed, if_neg]
    · exact ⟨_, rfl⟩
    · rw [List.isEmpty_iff]
      exact List.ne_nil_of_mem (List.mem_filter.mpr ⟨ht, decide_eq_true ⟨he, rfl⟩⟩)
  simp only [checks, List.all_eq_true, Bool.and_eq_true, decide_eq_true_eq, Option.all_eq_true, hon, htlist,
    List.mem_filter]
  constructor
  · intro h t ht he
    obtain ⟨⟨hstate, -⟩, htargets⟩ := h t.state ⟨t, ht, he, rfl⟩
    exact ⟨hstate, fun target htarget => htargets t ⟨ht, he, rfl⟩ target htarget⟩
  · rintro h state ⟨t, ht, he, rfl⟩
    refine ⟨⟨(h t ht he).1, hmem t ht he⟩, fun u hu target htarget => ?_⟩
    exact (h u hu.1 hu.2.1).2 target htarget

/-- The first instance can be made exactly if its state, and the states and targets of all transitions, are states of
the class. -/
theorem collect_isSome_iff : ((body ds).collect states events initial).isSome ↔
    (∃ state ∈ states, initial = some state) ∧ ∀ name e, events.get? name = some e →
      ∀ t ∈ transitions ds, t.event = e → t.state ∈ states ∧ ∀ target, t.target = some target → target ∈ states := by
  have hevents : (events.items.all fun i => (body ds).checks states i.2) = true ↔
      ∀ name e, events.get? name = some e → ∀ t ∈ transitions ds, t.event = e →
        t.state ∈ states ∧ ∀ target, t.target = some target → target ∈ states := by
    simp only [List.all_eq_true, checks_body_iff, Prod.forall, Dict.get?_eq_some_iff]
  rw [collect, ← hevents]
  cases initial with
  | none => simp
  | some state =>
    simp only [Option.bind_eq_bind, Option.bind_some, Option.some.injEq, exists_eq_right']
    split_ifs with h
    · exact iff_of_true rfl h
    · exact iff_of_false (by simp) h

/-- **All instances of a class have the same tables**: those that the first one collected that could be made, with the
state that it was given. -/
theorem init_run {m : Members S E M D} {initials : List (Option S)}
    (h : run (m.init states events) none initials = some T) :
    some T.initial ∈ initials ∧ Collected m states events T := by
  let I (tables : Option (FsmTables S E M D)) : Prop :=
    ∀ T, tables = some T → some T.initial ∈ initials ∧ Collected m states events T
  have hstep : ∀ tables initial, I tables → initial ∈ initials → I (m.init states events tables initial) := by
    intro tables initial htables hinitial T hT
    cases tables with
    | some tables => exact htables T hT
    | none =>
      obtain ⟨rfl, hcollected⟩ := collected hT
      exact ⟨hinitial, hcollected⟩
  have hnone : I none := by
    intro T hT
    cases hT
  exact (AllSteps.of_forall_mem (fun _ hc => hc) none).inv hstep hnone T h

/-- **An instance** of a class, whichever, handles all events as the class has it that is declared. -/
theorem updates_eq {initials : List (Option S)} (h : run ((body ds).init states events) none initials = some T)
    {es : List E} (hes : ∀ e ∈ es, ∃ name, events.get? name = some e) (s : Fsm S E M D) :
    run (fun s e => (T.update truthy e s).1) s es =
      run (fun s e => ((declared ds states truthy).update e s).1) s es := by
  have hcollected := (init_run h).2
  induction es generalizing s with
  | nil => rfl
  | cons e es ih =>
    obtain ⟨⟨name, he⟩, hes⟩ := List.forall_mem_cons.mp hes
    rw [run_cons, run_cons, hcollected.update_eq he, ih hes]

end Members

end Riaps.Component
