import Riaps.Component.Group

/-!
# Messages and their handlers

Whether a handler reads the message that it was called for. A payload is queued
when its message is handled, and its handler reads the front of the queue, from
the polling loop or inside a waiting request. If every handler of a message with
a payload reads once, and before it sends anything (`ReadsOnce`), the queue is
empty but for the payload of a handler that has just been called: `Queued` is
the invariant, and `delivered_run` what it gives.
-/

namespace Riaps.Component

open Riaps.Foundation Riaps.Coordination

universe u v

variable {Id : Type u} {Obj : Type v}

/-- The payload that a handler was called for and has not read. -/
def Activation.unread : Activation Id → Option Bytes
  | .handler _ (some payload) false => some payload
  | _ => none

/-- The handler of a message has read its payload. -/
def Activation.hasRead : Activation Id → Bool
  | .handler _ (some _) true => true
  | _ => false

namespace Group

/-- The payload that the running handler was called for and has not read. -/
def unread (s : Group Id Obj) : Option Bytes := s.stack.head?.bind Activation.unread

/-- The handler of a message with a payload reads it once, before it sends anything or ends. -/
def ReadsOnce (s : Group Id Obj) : Event Id → Prop
  | .sendPort _ | .call | .return_ | .raise => s.unread = none
  | .recv _ => ∀ a ∈ s.stack.head?, a.hasRead = false
  | .put _ | .poll | .wait => True

instance (s : Group Id Obj) : ∀ e : Event Id, Decidable (ReadsOnce s e)
  | .sendPort _ | .call | .return_ | .raise => inferInstanceAs (Decidable (s.unread = none))
  | .recv _ => inferInstanceAs (Decidable (∀ a ∈ s.stack.head?, a.hasRead = false))
  | .put _ | .poll | .wait => isTrue trivial

/-- The payload that a frame from the group thread has for a handler. -/
def Event.payload : Event Id → Option Bytes
  | .put f => payloadOf f.msg
  | _ => none

/-- The payloads in the socket. -/
def arriving (s : Group Id Obj) : List Bytes := s.inbox.filterMap fun f => payloadOf f.msg

/-- An answer has no payload. -/
theorem payloadOf_of_outcome {m : CompMsg Id} (h : (outcome m).isSome) : payloadOf m = none := by
  cases m <;> first | rfl | cases h

/-- The queue has the payload that the running handler is to read, and nothing else. -/
structure Queued (loads : Bytes → Option Obj) (s : Group Id Obj) (payloads : List Bytes) : Prop where
  queue : s.msgQueue = s.unread.toList
  below : ∀ a ∈ s.stack.tail, a.unread = none
  own : ∀ r ∈ s.reads, ∀ payload ∈ r.payload, r.result = receive loads r.isPyobj payload
  all : payloads = s.reads.filterMap Read.payload ++ s.msgQueue ++ s.arriving

section Queued

variable {loads : Bytes → Option Obj} {s s' : Group Id Obj} {payloads : List Bytes}

theorem Queued.init : Queued loads (init : Group Id Obj) [] where
  queue := rfl
  below a ha := by simp [Group.init] at ha
  own r hr := by simp [Group.init] at hr
  all := rfl

/-- When the running handler has read, nothing is queued. -/
theorem Queued.nil (h : Queued loads s payloads) (hread : s.unread = none) : s.msgQueue = [] := by
  rw [h.queue, hread]
  rfl

/-- When it has read, no handler on the stack has a payload to read. -/
theorem Queued.stack (h : Queued loads s payloads) (hread : s.unread = none) : ∀ a ∈ s.stack, a.unread = none := by
  intro a ha
  cases hs : s.stack with
  | nil => simp [hs] at ha
  | cons b stack =>
    rw [hs] at ha
    rcases List.mem_cons.mp ha with rfl | ha
    · simpa [unread, hs] using hread
    · exact h.below a (by rw [hs]; exact ha)

/-- A step of the stack, between handlers that have read. -/
theorem Queued.of_stack (h : Queued loads s payloads) (hread : s.unread = none)
    (hstack : ∀ a ∈ s'.stack, a.unread = none) (hqueue : s'.msgQueue = s.msgQueue) (hreads : s'.reads = s.reads)
    (harriving : s'.arriving = s.arriving) : Queued loads s' payloads where
  queue := by
    rw [hqueue, h.nil hread]
    cases hs : s'.stack with
    | nil => simp [unread, hs]
    | cons a stack =>
      have ha := hstack a (by simp [hs])
      simp [unread, hs, ha]
  below a ha := hstack a (List.mem_of_mem_tail ha)
  own := by rw [hreads]; exact h.own
  all := by rw [hreads, hqueue, harriving]; exact h.all

/-- A message is handled when the running handler has read. -/
theorem Queued.handled {f : Frame Id} {inbox : List (Frame Id)} (h : Queued loads s payloads) (hread : s.unread = none)
    (hinbox : s.inbox = f :: inbox) (hs' : Handled f.msg { s with inbox := inbox } s') : Queued loads s' payloads where
  queue := by
    rw [hs'.msgQueue, h.nil hread, unread, hs'.stack, payloadOf]
    cases hh : handlerOf f.msg with
    | none =>
      simp only [Option.bind_none, Option.map_none, Option.toList_none, List.nil_append, List.append_nil]
      rw [← unread, hread]
      rfl
    | some c => rcases c with ⟨call, _ | payload⟩ <;> rfl
  below a ha := by
    rw [hs'.stack] at ha
    cases hh : handlerOf f.msg with
    | none =>
      rw [hh] at ha
      exact h.below a ha
    | some c =>
      rw [hh] at ha
      exact h.stack hread a ha
  own := by rw [hs'.reads]; exact h.own
  all := by
    rw [h.all, arriving, arriving, hs'.reads, hs'.msgQueue, hs'.inbox, hinbox, h.nil hread]
    cases hp : payloadOf f.msg <;> simp [hp]

/-- The payload of a frame arrives with it. -/
theorem Queued.put (h : Queued loads s payloads) (f : Frame Id) :
    Queued loads (s.put f) (payloads ++ (payloadOf f.msg).toList) := by
  have harriving : s.arriving ++ (payloadOf f.msg).toList = (s.inbox ++ [f]).filterMap fun f => payloadOf f.msg := by
    rw [List.filterMap_append]
    cases hp : payloadOf f.msg <;> simp [hp, arriving]
  have hall : payloads ++ (payloadOf f.msg).toList =
      s.reads.filterMap Read.payload ++ s.msgQueue ++ (s.inbox ++ [f]).filterMap fun f => payloadOf f.msg := by
    rw [h.all, List.append_assoc _ s.arriving, harriving]
  unfold Group.put
  split_ifs with hanswer
  · exact ⟨h.queue, h.below, h.own, hall⟩
  · -- an answer that nothing asked for is not put
    rw [payloadOf_of_outcome hanswer, Option.toList_none, List.append_nil]
    exact h
  · exact ⟨h.queue, h.below, h.own, hall⟩

/-- A handler reads: the payload it was called for, if it was called for one. -/
theorem Queued.recv (h : Queued loads s payloads) {call : HandlerCall Id} {payload : Option Bytes} {read : Bool}
    {stack : List (Activation Id)} (hstack : s.stack = .handler call payload read :: stack)
    (hread : (Activation.handler call payload read).hasRead = false) (isPyobj : Bool) :
    Queued loads ({ s with stack := .handler call payload true :: stack }.recvMsg loads isPyobj payload) payloads := by
  have hbelow : ∀ a ∈ stack, a.unread = none := by
    intro a ha
    exact h.below a (by rw [hstack]; exact ha)
  cases payload with
  | none =>
    have hqueue : s.msgQueue = [] := h.nil (by rw [unread, hstack]; rfl)
    rw [recvMsg]
    simp only [hqueue]
    refine ⟨rfl, hbelow, fun r hr p hp => ?_, ?_⟩
    · rcases List.mem_append.mp hr with hr | hr
      · exact h.own r hr p hp
      · obtain rfl := List.mem_singleton.mp hr
        cases hp
    · rw [h.all, hqueue]
      simp [arriving]
  | some payload =>
    obtain rfl : read = false := by
      cases read with
      | false => rfl
      | true => cases hread
    have hqueue : s.msgQueue = [payload] := by
      rw [h.queue, unread, hstack]
      rfl
    rw [recvMsg]
    simp only [hqueue]
    refine ⟨rfl, hbelow, fun r hr p hp => ?_, ?_⟩
    · rcases List.mem_append.mp hr with hr | hr
      · exact h.own r hr p hp
      · obtain rfl := List.mem_singleton.mp hr
        obtain rfl : payload = p := Option.some.inj hp
        rfl
    · rw [h.all, hqueue]
      simp [arriving]

/-- One step. -/
theorem Queued.step (h : Queued loads s payloads) (isTimed : Bool) {e : Event Id} (hreads : ReadsOnce s e) :
    Queued loads (step isTimed loads s e) (payloads ++ e.payload.toList) := by
  cases e with
  | put f => exact h.put f
  | poll =>
    simp only [Group.step, Event.payload, Option.toList_none, List.append_nil]
    split
    · rename_i f inbox hstack hinbox
      exact h.handled (by rw [unread, hstack]; rfl) hinbox (handled_handleMessage isTimed f _)
    · exact h
  | call =>
    simp only [Group.step, Event.payload, Option.toList_none, List.append_nil]
    have hinvoke : Queued loads (s.invoke .other none) payloads := by
      refine h.of_stack hreads (fun a ha => ?_) rfl rfl rfl
      rcases List.mem_cons.mp ha with rfl | ha
      exacts [rfl, h.stack hreads a ha]
    split
    · exact hinvoke
    · exact hinvoke
    · exact h
  | sendPort p =>
    simp only [Group.step, Event.payload, Option.toList_none, List.append_nil]
    split
    · unfold Group.sendPort
      dsimp only
      split
      · refine h.of_stack hreads (fun a ha => ?_) rfl rfl rfl
        rcases List.mem_cons.mp ha with rfl | ha
        exacts [rfl, h.stack hreads a ha]
      · exact h.of_stack hreads (h.stack hreads) rfl rfl rfl
    · exact h
  | wait =>
    simp only [Group.step, Event.payload, Option.toList_none, List.append_nil]
    split
    · rename_i i stack f inbox hstack hinbox
      have hread : s.unread = none := by rw [unread, hstack]; rfl
      unfold awaitReply
      split
      · rename_i o ho
        refine h.of_stack hread (fun a ha => h.below a ha) rfl rfl ?_
        have hnone : payloadOf f.msg = none := payloadOf_of_outcome (by rw [ho]; rfl)
        simp [arriving, hinbox, hnone]
      · exact h.handled hread hinbox (handled_handleMessage isTimed f _)
    · exact h
  | recv isPyobj =>
    simp only [Group.step, Event.payload, Option.toList_none, List.append_nil]
    split
    · rename_i call payload read stack hstack
      exact h.recv hstack (hreads _ (by rw [hstack]; rfl)) isPyobj
    · exact h
  | return_ =>
    simp only [Group.step, Event.payload, Option.toList_none, List.append_nil]
    split
    · rename_i hstack
      exact h.of_stack hreads (fun a ha => h.below a (by rw [hstack]; exact ha)) rfl rfl rfl
    · exact h
  | raise =>
    simp only [Group.step, Event.payload, Option.toList_none, List.append_nil]
    split
    · rename_i hstack
      exact h.of_stack hreads (fun a ha => h.below a (by rw [hstack]; exact List.mem_cons_of_mem _ ha)) rfl rfl rfl
    · rename_i hstack
      exact h.of_stack hreads (fun a ha => h.below a (by rw [hstack]; exact ha)) rfl rfl rfl
    · exact h

end Queued

end Group

end Riaps.Component
