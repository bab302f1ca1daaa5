import Riaps.Component.Group

/-!
# Nested requests

Whether a request to the group thread gets its own answer. The thread answers the
requests in the order in which they were posted, and a waiting `send_port` takes
the first answer that comes, without looking whose it is. While one call waits,
a handler that it runs may post another request, which then takes the answer of
the first (`swapped`); and an exception that leaves such a handler leaves the
waiting call too, so that its answer is taken by the next.

Without these (`Flat`) every call ends as its own request was answered:
`ownAnswers_run`.
-/

namespace Riaps.Component

open Riaps.Foundation Riaps.Coordination

universe u v

variable {Id : Type u} {Obj : Type v}

/-- The request that an activation waits for. -/
def Activation.waits : Activation Id → Option ℕ
  | .handler .. => none
  | .sendPort i => some i

/-- The message of a frame that is an answer. -/
def Frame.answer (f : Frame Id) : Option (CompMsg Id) := if (outcome f.msg).isSome then some f.msg else none

namespace Group

/-- The requests that wait, the latest first. -/
def waiting (s : Group Id Obj) : List ℕ := s.stack.filterMap Activation.waits

/-- Every call that has ended, by a return or an exception, ended as its own request was answered. -/
def OwnAnswers (s : Group Id Obj) : Prop :=
  ∀ c ∈ s.calls, ∃ a, s.answers[c.1]? = some a ∧ outcome a = some c.2

/-- No request is posted while another waits, and no exception leaves a handler that a waiting
`send_port` called. -/
def Flat (s : Group Id Obj) : Event Id → Prop
  | .sendPort _ => s.waiting = []
  | .raise => s.stack.tail.head?.bind Activation.waits = none
  | _ => True

instance (s : Group Id Obj) : ∀ e : Event Id, Decidable (Flat s e)
  | .sendPort _ => inferInstanceAs (Decidable (s.waiting = []))
  | .raise => inferInstanceAs (Decidable (_ = none))
  | .put _ | .poll | .call | .wait | .recv _ | .return_ => isTrue trivial

/-- The invariant of a flat run: the answers in the socket are those that no call has taken, and one
call waits at most, for the first of them. -/
structure FlatInv (s : Group Id Obj) : Prop where
  inbox : s.inbox.filterMap Frame.answer = s.answers.drop s.calls.length
  ended : s.calls.length ≤ s.answers.length
  answered : s.answers.length ≤ s.posted.length
  waiting : s.waiting = [] ∧ s.posted.length = s.calls.length ∨
    s.waiting = [s.calls.length] ∧ s.posted.length = s.calls.length + 1
  own : OwnAnswers s

theorem FlatInv.init : FlatInv (init : Group Id Obj) where
  inbox := rfl
  ended := le_rfl
  answered := le_rfl
  waiting := Or.inl ⟨rfl, rfl⟩
  own c hc := by simp [Group.init] at hc

/-- The invariant depends on the answers, on what is posted and waits, and on the calls that have ended. -/
theorem FlatInv.congr {s s' : Group Id Obj} (h : FlatInv s)
    (hinbox : s'.inbox.filterMap Frame.answer = s.inbox.filterMap Frame.answer) (hanswers : s'.answers = s.answers)
    (hposted : s'.posted = s.posted) (hcalls : s'.calls = s.calls) (hwaiting : s'.waiting = s.waiting) :
    FlatInv s' where
  inbox := by rw [hinbox, hanswers, hcalls]; exact h.inbox
  ended := by rw [hcalls, hanswers]; exact h.ended
  answered := by rw [hanswers, hposted]; exact h.answered
  waiting := by rw [hwaiting, hposted, hcalls]; exact h.waiting
  own := by
    unfold OwnAnswers
    rw [hcalls, hanswers]
    exact h.own

/-- A message is handled. -/
theorem FlatInv.handled {s s' : Group Id Obj} {f : Frame Id} {inbox : List (Frame Id)}
    (h : FlatInv s) (hf : f.answer = none) (hinbox : s.inbox = f :: inbox)
    (hs' : Handled f.msg { s with inbox := inbox } s') : FlatInv s' := by
  refine h.congr ?_ hs'.answers hs'.posted hs'.calls ?_
  · rw [hs'.inbox, hinbox, List.filterMap_cons_none hf]
  · unfold Group.waiting
    rw [hs'.stack]
    cases hh : handlerOf f.msg with
    | none => rfl
    | some c => rfl

/-- The group thread answers the first request that has no answer. -/
theorem FlatInv.put {s : Group Id Obj} (h : FlatInv s) (f : Frame Id) : FlatInv (s.put f) := by
  unfold Group.put
  split_ifs with hf hlt
  · refine ⟨?_, ?_, ?_, h.waiting, fun c hc => ?_⟩
    · simp [h.inbox, Frame.answer, hf, List.drop_append_of_le_length h.ended]
    · simpa using Nat.le_succ_of_le h.ended
    · rw [List.length_append, List.length_singleton]
      exact hlt
    · obtain ⟨a, ha, ho⟩ := h.own c hc
      exact ⟨a, by rw [List.getElem?_append_left (List.getElem?_eq_some_iff.mp ha).1]; exact ha, ho⟩
  · exact h
  · refine h.congr ?_ rfl rfl rfl rfl
    simp [Frame.answer, hf]

/-- A call that waits takes the first answer that no call has taken, which is its own. -/
theorem FlatInv.take {s : Group Id Obj} (h : FlatInv s) {i : ℕ} {f : Frame Id} {stack : List (Activation Id)}
    {inbox : List (Frame Id)} {o : Outcome} (hstack : s.stack = .sendPort i :: stack) (hinbox : s.inbox = f :: inbox)
    (ho : outcome f.msg = some o) :
    FlatInv { s with inbox := inbox, stack := stack, calls := s.calls ++ [(i, o)] } := by
  have hf : f.answer = some f.msg := by rw [Frame.answer, if_pos (by rw [ho]; rfl)]
  have hwaiting : s.waiting = i :: stack.filterMap Activation.waits := by rw [Group.waiting, hstack]; rfl
  obtain ⟨hi, hrest, hposted⟩ : i = s.calls.length ∧ stack.filterMap Activation.waits = [] ∧
      s.posted.length = s.calls.length + 1 := by
    rcases h.waiting with ⟨hw, -⟩ | ⟨hw, hp⟩
    · rw [hwaiting] at hw
      cases hw
    · rw [hwaiting] at hw
      exact ⟨(List.cons.inj hw).1, (List.cons.inj hw).2, hp⟩
  have hdrop : f.msg :: inbox.filterMap Frame.answer = s.answers.drop s.calls.length := by
    rw [← h.inbox, hinbox, List.filterMap_cons_some hf]
  have hget : s.answers[s.calls.length]? = some f.msg := by
    rw [← List.head?_drop, ← hdrop]
    rfl
  refine ⟨?_, ?_, h.answered, Or.inl ⟨hrest, by simpa using hposted⟩, fun c hc => ?_⟩
  · rw [List.length_append, List.length_singleton, ← List.drop_drop, ← hdrop]
    rfl
  · rw [List.length_append, List.length_singleton]
    exact (List.getElem?_eq_some_iff.mp hget).1
  · rcases List.mem_append.mp hc with hc | hc
    · exact h.own c hc
    · obtain rfl := List.mem_singleton.mp hc
      exact ⟨f.msg, by rw [hi]; exact hget, ho⟩

/-- With no call waiting, every answer has been taken. -/
theorem FlatInv.answer_eq_none {s : Group Id Obj} (h : FlatInv s) (hstack : s.stack = []) {f : Frame Id}
    {inbox : List (Frame Id)} (hinbox : s.inbox = f :: inbox) : f.answer = none := by
  have hnone : s.inbox.filterMap Frame.answer = [] := by
    rcases h.waiting with ⟨-, hp⟩ | ⟨hw, -⟩
    · rw [h.inbox, List.drop_eq_nil_iff, ← hp]
      exact h.answered
    · rw [Group.waiting, hstack] at hw
      cases hw
  rw [hinbox, List.filterMap_eq_nil_iff] at hnone
  exact hnone f (List.mem_cons_self ..)

/-- What a running handler does leaves the requests that wait. -/
theorem FlatInv.handler {s s' : Group Id Obj} (h : FlatInv s) (hinbox : s'.inbox = s.inbox)
    (hanswers : s'.answers = s.answers) (hposted : s'.posted = s.posted) (hcalls : s'.calls = s.calls)
    (hwaiting : s'.waiting = s.waiting) : FlatInv s' :=
  h.congr (by rw [hinbox]) hanswers hposted hcalls hwaiting

theorem FlatInv.sendPort {s : Group Id Obj} (h : FlatInv s) (hwaiting : s.waiting = []) (p : Posting) :
    FlatInv (s.sendPort p) := by
  unfold Group.sendPort
  dsimp only
  split
  · have hposted : s.posted.length = s.calls.length := by
      rcases h.waiting with ⟨-, hp⟩ | ⟨hw, -⟩
      · exact hp
      · rw [hwaiting] at hw
        cases hw
    refine ⟨h.inbox, h.ended, ?_, Or.inr ⟨?_, by simp [hposted]⟩, h.own⟩
    · simpa using Nat.le_succ_of_le h.answered
    · rw [← hposted]
      exact congrArg (s.posted.length :: ·) hwaiting
  · exact h.handler rfl rfl rfl rfl rfl

/-- One flat step. -/
theorem FlatInv.step {s : Group Id Obj} (h : FlatInv s) (isTimed : Bool) (loads : Bytes → Option Obj) {e : Event Id}
    (hflat : Flat s e) : FlatInv (step isTimed loads s e) := by
  cases e with
  | put f => exact h.put f
  | poll =>
    simp only [Group.step]
    split
    · rename_i f inbox hstack hinbox
      exact h.handled (h.answer_eq_none hstack hinbox) hinbox (handled_handleMessage isTimed f _)
    · exact h
  | call =>
    simp only [Group.step]
    split
    · exact h.handler rfl rfl rfl rfl rfl
    · exact h.handler rfl rfl rfl rfl rfl
    · exact h
  | sendPort p =>
    simp only [Group.step]
    split
    · exact h.sendPort hflat p
    · exact h
  | wait =>
    simp only [Group.step]
    split
    · rename_i i stack f inbox hstack hinbox
      unfold awaitReply
      split
      · rename_i o ho
        simp only [hstack]
        exact h.take hstack hinbox ho
      · rename_i ho
        exact h.handled (by rw [Frame.answer, ho]; rfl) hinbox (handled_handleMessage isTimed f _)
    · exact h
  | recv isPyobj =>
    simp only [Group.step]
    split
    · rename_i call payload read stack hstack
      have hwaiting : s.waiting = stack.filterMap Activation.waits := by rw [Group.waiting, hstack]; rfl
      unfold recvMsg
      split
      · exact h.handler rfl rfl rfl rfl hwaiting.symm
      · exact h.handler rfl rfl rfl rfl hwaiting.symm
    · exact h
  | return_ =>
    simp only [Group.step]
    split
    · rename_i hstack
      refine h.handler rfl rfl rfl rfl ?_
      rw [Group.waiting, Group.waiting, hstack]
      rfl
    · exact h
  | raise =>
    simp only [Group.step]
    split
    · rename_i hstack
      simp [Flat, hstack, Activation.waits] at hflat
    · rename_i hstack
      refine h.handler rfl rfl rfl rfl ?_
      rw [Group.waiting, Group.waiting, hstack]
      rfl
    · exact h

/-- **Every request gets its own answer**, in a run in which no request is posted while another waits and
no exception leaves a handler that a waiting `send_port` called. -/
theorem ownAnswers_run (isTimed : Bool) (loads : Bytes → Option Obj) (events : List (Event Id))
    (hflat : AllSteps (step isTimed loads) Flat init events) :
    OwnAnswers (run (step isTimed loads) init events) := by
  have hinv : FlatInv (run (step isTimed loads) init events) :=
    hflat.inv (fun _ _ h hf => h.step isTimed loads hf) FlatInv.init
  exact hinv.own

/-- A handler sends data, and a message from the group comes before the answer, whose handler reads it. -/
theorem ownAnswers_dataFrame :
    OwnAnswers (run (step false fun _ => (none : Option Unit)) init
      [.call, .sendPort (.msg [1]), .put ⟨.msg [2], [], []⟩, .put ⟨(.ack : CompMsg ℕ), [], []⟩, .wait, .recv false,
        .return_, .wait]) :=
  ownAnswers_run false (fun _ => none) _ (by decide)

/-- A handler sends data, and before the answer there comes a message whose handler sends to the leader.
The first request is acknowledged, and for the second there is no leader: each call returns what the other
should. -/
theorem swapped :
    ¬ OwnAnswers (run (step false fun _ => (none : Option Unit)) init
      [.call, .sendPort (.msg [1]), .put ⟨.msg [2], [], []⟩, .wait, .recv false, .sendPort (.mtl [3]),
        .put ⟨(.ack : CompMsg ℕ), [], []⟩, .put ⟨.nld, [], []⟩, .wait, .return_, .wait]) := by
  intro h
  obtain ⟨a, ha, ho⟩ := h (1, .returned true) (by decide)
  obtain rfl : CompMsg.nld = a := Option.some.inj ha
  cases ho

end Group

end Riaps.Component
