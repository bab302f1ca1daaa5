import Riaps.Foundation.Atomic
import Riaps.Foundation.Dict
import Riaps.Foundation.Exceptions
import Riaps.Foundation.PyText

/-!
# Commands to the deployment manager

The service thread and the main thread command the manager, which is a thread of its own. A command
goes through a socket that the calling thread has for itself to the socket `ctrl` of the manager,
and the answer comes back the same way; `callLock` is held from the one to the other. An exception
of a handler comes back as a text with a mark, from which the caller makes a `BuildError`.

What the handlers do is a parameter, as are the other sockets of the manager. To the threads the
manager is an object that carries out a command at once (`linearizable`).
-/

namespace Riaps.Deployment

open Riaps.Foundation

universe v w

/-- An exception: the name of its class and its text. -/
structure Raised where
  name : Text
  text : Text

/-- What goes back to the caller. -/
inductive Reply where
  | text (s : Text)
  | apps (l : List (Text × List Text))
  | bool (b : Bool)
  deriving DecidableEq

/-- `ERRORMARK`. -/
def errorMark : Text := ['E', 'x', 'c', ':']

/-- `'ok'`. -/
def ok : Reply := .text ['o', 'k']

/-- `cmd`. -/
inductive CommandName where
  | launch
  | halt
  | setupApp
  | cleanupApp
  | cleanupApps
  | setDisco
  | query
  | reclaim
  | install
  | unknown
  deriving DecidableEq

/-- The message of a command: its name and the rest of the tuple. -/
structure Command (A : Type v) where
  cmd : CommandName
  args : A

/-- The methods that handle commands. -/
structure Handlers (σ : Type) (A : Type v) where
  startActor : A → EStateM Raised σ PUnit
  haltActor : A → EStateM Raised σ PUnit
  setupApp : A → EStateM Raised σ PUnit
  cleanupApp : A → EStateM Raised σ PUnit
  cleanupApps : A → EStateM Raised σ PUnit
  setupDisco : A → EStateM Raised σ PUnit
  queryApps : EStateM Raised σ (List (Text × List Text))
  reclaimApp : A → EStateM Raised σ PUnit
  installApp : A → EStateM Raised σ Bool

/-- A socket with a message for the manager. -/
inductive Ready (X : Type w) where
  | ctrl
  | other (x : X)

/-- The manager. -/
structure Manager (σ : Type) (A : Type v) (X : Type w) where
  handlers : Handlers σ A
  /-- What is done for a message on another socket, and whether the loop goes on. -/
  receive : X → σ → σ × Bool
  /-- `recover`, before the loop. -/
  recover : σ → σ × Bool

variable {σ : Type} {A : Type v} {X : Type w}

namespace Handlers

variable (H : Handlers σ A)

/-- The `try` block of `handleCommand`. -/
def handle (c : Command A) : EStateM Raised σ Reply :=
  match c.cmd with
  | .launch => do H.startActor c.args; pure ok
  | .halt => do H.haltActor c.args; pure ok
  | .setupApp => do H.setupApp c.args; pure ok
  | .cleanupApp => do H.cleanupApp c.args; pure ok
  | .cleanupApps => do H.cleanupApps c.args; pure ok
  | .setDisco => do H.setupDisco c.args; pure ok
  | .query => do return .apps (← H.queryApps)
  | .reclaim => do H.reclaimApp c.args; pure ok
  | .install => do return .bool (← H.installApp c.args)
  | .unknown => pure ok

/-- `handleCommand`: the state after it and what is sent back. -/
def handleCommand (c : Command A) (s : σ) : σ × Reply :=
  match H.handle c s with
  | .ok r s => (s, r)
  | .error e s => (s, .text (errorMark ++ [':', ' '] ++ e.name ++ [' '] ++ e.text))

/-- What a command means to its caller: the reply, or the text of a `BuildError`. -/
def meaning (c : Command A) (s : σ) : σ × Except Text Reply :=
  match H.handle c s with
  | .ok r s => (s, .ok r)
  | .error e s => (s, .error ([':', ' '] ++ e.name ++ [' '] ++ e.text))

end Handlers

/-- The manager as an object: commands, and what is done for other sockets, or before the loop. -/
def Manager.service (M : Manager σ A X) : Service σ (Command A) (Except Text Reply) (Option X) where
  exec s c := M.handlers.meaning c s
  own s
    | none => (M.recover s).1
    | some x => (M.receive x s).1

/-- What `callCommand` makes of a reply. -/
def decode : Reply → Except Text Reply
  | .text s => if errorMark.isPrefixOf s then .error (s.drop errorMark.length) else .ok (.text s)
  | r => .ok r

/-- A thread in `callCommand`. -/
inductive Caller (A : Type v) where
  | idle
  /-- At `with self.callLock`. -/
  | waiting (c : Command A)
  /-- With the lock, before it sends. -/
  | locked (c : Command A)
  /-- In the loop that receives. -/
  | sent (c : Command A)

/-- The thread does not have the lock. -/
def Caller.Outside : Caller A → Prop
  | .idle | .waiting _ => True
  | .locked _ | .sent _ => False

/-- Where the manager is in `run`. -/
inductive Loop (X : Type w) where
  /-- In `recover`. -/
  | recovering
  /-- At the head of the loop. -/
  | head
  /-- In `poll`. -/
  | polling
  /-- In a round, with these sockets to go. -/
  | round (sockets : List (Ready X))
  /-- Out of the loop. -/
  | stopped

/-- The manager with the threads that command it. -/
structure Channel (σ : Type) (A : Type v) (X : Type w) where
  manager : σ
  loop : Loop X
  /-- The flag `terminated`. -/
  terminated : Bool
  callers : ℤ → Caller A
  /-- The owner of `callLock`. -/
  callLock : Option ℤ
  /-- The socket of each thread, by its identity. -/
  commandS : Dict ℤ Text
  /-- Messages on the way to `ctrl`, with the identities of their senders. -/
  requests : List (Text × Command A)
  /-- Messages on the way to the socket with an identity. -/
  replies : Text → List Reply

/-- What happens. -/
inductive ChannelEvent (A : Type v) (X : Type w) where
  /-- A thread calls `callCommand`. -/
  | callCommand (t : ℤ) (c : Command A)
  /-- A thread gets the lock. -/
  | acquire (t : ℤ)
  /-- `send_pyobj`. -/
  | send (t : ℤ)
  /-- `recv_pyobj`, in time or not. -/
  | recv (t : ℤ)
  /-- The manager ends `recover`. -/
  | recover
  /-- The manager tests the flag at the head of the loop. -/
  | test
  /-- `poll` returns, with messages on other sockets before and after `ctrl`. -/
  | poll (before after : List X)
  /-- The manager turns to the next socket. -/
  | next
  /-- `terminate`. -/
  | terminate

namespace Channel

/-- The manager is started. -/
def init (s : σ) : Channel σ A X where
  manager := s
  loop := .recovering
  terminated := false
  callers := fun _ => .idle
  callLock := none
  commandS := .empty
  requests := []
  replies := fun _ => []

/-- A thread goes on. -/
def goto (t : ℤ) (p : Caller A) (s : Channel σ A X) : Channel σ A X :=
  { s with callers := Function.update s.callers t p }

/-- `getCommand`. -/
def getCommand (t : ℤ) (s : Channel σ A X) : Text × Channel σ A X :=
  match s.commandS.get? t with
  | some ident => (ident, s)
  | none => (strInt t, { s with commandS := s.commandS.set t (strInt t) })

/-- `command.send_pyobj(cmd)`. -/
def send (t : ℤ) (c : Command A) (s : Channel σ A X) : Channel σ A X :=
  { (s.getCommand t).2 with requests := s.requests ++ [((s.getCommand t).1, c)] }.goto t (.sent c)

/-- The loop that receives on the socket of the thread: a reply ends it and lets go of the lock, `EAGAIN` does not. -/
def recv (t : ℤ) (s : Channel σ A X) : Channel σ A X :=
  match s.replies (s.getCommand t).1 with
  | [] => s
  | _ :: rs => { s with replies := Function.update s.replies (s.getCommand t).1 rs, callLock := none }.goto t .idle

variable (M : Manager σ A X)

/-- A message on `ctrl` is handled. -/
def handleCtrl (s : Channel σ A X) : Channel σ A X :=
  match s.requests with
  | [] => s
  | (ident, c) :: rest =>
    { s with
      manager := (M.handlers.handleCommand c s.manager).1
      requests := rest
      replies := Function.update s.replies ident (s.replies ident ++ [(M.handlers.handleCommand c s.manager).2]) }

/-- One event. -/
def step (s : Channel σ A X) : ChannelEvent A X → Channel σ A X
  | .callCommand t c =>
    match s.callers t with
    | .idle => s.goto t (.waiting c)
    | _ => s
  | .acquire t =>
    match s.callers t, s.callLock with
    | .waiting c, none => { s with callLock := some t }.goto t (.locked c)
    | _, _ => s
  | .send t =>
    match s.callers t with
    | .locked c => s.send t c
    | _ => s
  | .recv t =>
    match s.callers t with
    | .sent _ => s.recv t
    | _ => s
  | .recover =>
    match s.loop with
    | .recovering =>
      { s with manager := (M.recover s.manager).1, loop := if (M.recover s.manager).2 then .head else .stopped }
    | _ => s
  | .test =>
    match s.loop with
    | .head => { s with loop := if s.terminated then .stopped else .polling }
    | _ => s
  | .poll before after =>
    match s.loop with
    | .polling =>
      let ctrl := if s.requests = [] then [] else [Ready.ctrl]
      let sockets := before.map .other ++ ctrl ++ after.map .other
      { s with loop := if sockets.isEmpty && s.terminated then .stopped else .round sockets }
    | _ => s
  | .next =>
    match s.loop with
    | .round [] => { s with loop := .head }
    | .round (.ctrl :: sockets) => { handleCtrl M s with loop := .round sockets }
    | .round (.other x :: sockets) =>
      { s with
        manager := (M.receive x s.manager).1
        loop := if (M.receive x s.manager).2 then .round sockets else .stopped }
    | _ => s
  | .terminate => { s with terminated := true }

/-! ### Replies -/

/-- Only the text of an exception has the mark. -/
theorem ends_handle (H : Handlers σ A) (c : Command A) (s : σ) :
    Ends (H.handle c) s (fun r _ => decode r = .ok r) fun _ _ => True := by
  have hok : decode ok = .ok ok := by decide
  obtain ⟨cmd, args⟩ := c
  cases cmd <;> simp only [Handlers.handle, ends_bind, ends_pure, hok, ends_true]
  case query => exact (ends_true H.queryApps).mono (fun _ _ _ => rfl) fun _ _ h => h
  case install => exact (ends_true (H.installApp args)).mono (fun _ _ _ => rfl) fun _ _ h => h

theorem decode_mark (t : Text) : decode (.text (errorMark ++ t)) = .error t := by
  have hprefix : errorMark.isPrefixOf (errorMark ++ t) := List.isPrefixOf_iff_prefix.mpr (List.prefix_append _ _)
  simp only [decode, if_pos hprefix, List.drop_left]

/-- The caller gets what the command means. -/
theorem decode_handleCommand (H : Handlers σ A) (c : Command A) (s : σ) :
    ((H.handleCommand c s).1, decode (H.handleCommand c s).2) = H.meaning c s := by
  have h := ends_handle H c s
  rw [Ends] at h
  rw [Handlers.handleCommand, Handlers.meaning]
  cases hres : H.handle c s with
  | ok r s' =>
    rw [hres] at h
    simp only [h]
  | error e s' => simp only [List.append_assoc, decode_mark]

/-! ### The manager is atomic -/

/-- What the manager has to do with a thread. -/
def phase (replies : Text → List Reply) (t : ℤ) : Caller A → Phase (Command A) (Except Text Reply)
  | .idle => .idle
  | .waiting c => .called c
  | .locked c => .called c
  | .sent c =>
    match replies (strInt t) with
    | [] => .called c
    | r :: _ => .done (decode r)

/-- The atomic object that is seen. -/
def view (s : Channel σ A X) : Atomic ℤ (Command A) (Except Text Reply) σ where
  state := s.manager
  phase t := phase s.replies t (s.callers t)

/-- The acts of an event. -/
def acts (s : Channel σ A X) : ChannelEvent A X → List (Act ℤ (Command A) (Except Text Reply) (Option X))
  | .callCommand t c =>
    match s.callers t with
    | .idle => [.call t c]
    | _ => []
  | .recv t =>
    match s.callers t, s.replies (s.getCommand t).1 with
    | .sent _, r :: _ => [.ret t (decode r)]
    | _, _ => []
  | .recover =>
    match s.loop with
    | .recovering => [.own none]
    | _ => []
  | .next =>
    match s.loop, s.requests with
    | .round (.ctrl :: _), (ident, _) :: _ => ((readInt ident).map .exec).toList
    | .round (.other x :: _), _ => [.own (some x)]
    | _, _ => []
  | _ => []

/-- Who has the lock, and how far the call is. -/
inductive Held (s : Channel σ A X) : Prop where
  | free (hlock : s.callLock = none) (hout : ∀ t, (s.callers t).Outside) (hreq : s.requests = [])
    (hrep : s.replies = fun _ => [])
  | locked (t : ℤ) (c : Command A) (hlock : s.callLock = some t) (ht : s.callers t = .locked c)
    (hout : ∀ u, u ≠ t → (s.callers u).Outside) (hreq : s.requests = []) (hrep : s.replies = fun _ => [])
  | asked (t : ℤ) (c : Command A) (hlock : s.callLock = some t) (ht : s.callers t = .sent c)
    (hout : ∀ u, u ≠ t → (s.callers u).Outside) (hreq : s.requests = [(strInt t, c)]) (hrep : s.replies = fun _ => [])
  | answered (t : ℤ) (c : Command A) (r : Reply) (hlock : s.callLock = some t) (ht : s.callers t = .sent c)
    (hout : ∀ u, u ≠ t → (s.callers u).Outside) (hreq : s.requests = [])
    (hrep : s.replies = Function.update (fun _ => []) (strInt t) [r])

/-- Sockets are named after their threads, and at most one call is under way. -/
structure Inv (s : Channel σ A X) : Prop where
  named : ∀ t ident, s.commandS.get? t = some ident → ident = strInt t
  held : Held s

variable {s s' : Channel σ A X} {t u : ℤ} {c : Command A} {p : Caller A}

theorem inv_init (m : σ) : Inv (init m : Channel σ A X) where
  named t ident h := by simp [init] at h
  held := .free rfl (fun _ => trivial) rfl rfl

@[simp] theorem goto_callers_self : (s.goto t p).callers t = p := Function.update_self ..

theorem goto_callers_of_ne (h : u ≠ t) : (s.goto t p).callers u = s.callers u := Function.update_of_ne h ..

theorem getCommand_fst (h : Inv s) (t : ℤ) : (s.getCommand t).1 = strInt t := by
  rw [getCommand]
  split
  · next ident hident => exact h.named t ident hident
  · rfl

/-- A thread that has no socket gets one; nothing else changes. -/
theorem getCommand_snd (s : Channel σ A X) (t : ℤ) :
    (s.getCommand t).2 = { s with commandS := (s.getCommand t).2.commandS } := by
  rw [getCommand]
  split <;> rfl

theorem Inv.named_getCommand (h : Inv s) (t u : ℤ) (ident : Text)
    (hident : (s.getCommand t).2.commandS.get? u = some ident) : ident = strInt u := by
  rw [getCommand] at hident
  split at hident
  · exact h.named u ident hident
  · rcases Dict.get?_set_eq_some.mp hident with ⟨rfl, rfl⟩ | ⟨-, hold⟩
    · rfl
    · exact h.named u ident hold

theorem Held.of_eq (h : Held s) (hcallers : s'.callers = s.callers) (hlock : s'.callLock = s.callLock)
    (hreq : s'.requests = s.requests) (hrep : s'.replies = s.replies) : Held s' := by
  cases h with
  | free h₁ h₂ h₃ h₄ => exact .free (hlock.trans h₁) (hcallers ▸ h₂) (hreq.trans h₃) (hrep.trans h₄)
  | locked t c h₁ h₂ h₃ h₄ h₅ =>
    exact .locked t c (hlock.trans h₁) (hcallers ▸ h₂) (hcallers ▸ h₃) (hreq.trans h₄) (hrep.trans h₅)
  | asked t c h₁ h₂ h₃ h₄ h₅ =>
    exact .asked t c (hlock.trans h₁) (hcallers ▸ h₂) (hcallers ▸ h₃) (hreq.trans h₄) (hrep.trans h₅)
  | answered t c r h₁ h₂ h₃ h₄ h₅ =>
    exact .answered t c r (hlock.trans h₁) (hcallers ▸ h₂) (hcallers ▸ h₃) (hreq.trans h₄) (hrep.trans h₅)

/-- What a thread without the lock does leaves the call that is under way alone. -/
theorem Held.goto (h : Held s) (ht : (s.callers t).Outside) (hp : p.Outside) : Held (s.goto t p) := by
  have hall : ∀ u, (s.callers u).Outside → ((s.goto t p).callers u).Outside := by
    intro u hu
    by_cases hut : u = t
    · rw [hut, goto_callers_self]
      exact hp
    · rw [goto_callers_of_ne hut]
      exact hu
  have hkeep : ∀ u, ¬ (s.callers u).Outside → (s.goto t p).callers u = s.callers u :=
    fun u hu => goto_callers_of_ne (fun e => hu (e ▸ ht))
  cases h with
  | free h₁ h₂ h₃ h₄ => exact .free h₁ (fun u => hall u (h₂ u)) h₃ h₄
  | locked u c h₁ h₂ h₃ h₄ h₅ =>
    exact .locked u c h₁ ((hkeep u (by rw [h₂]; exact id)).trans h₂) (fun v hv => hall v (h₃ v hv)) h₄ h₅
  | asked u c h₁ h₂ h₃ h₄ h₅ =>
    exact .asked u c h₁ ((hkeep u (by rw [h₂]; exact id)).trans h₂) (fun v hv => hall v (h₃ v hv)) h₄ h₅
  | answered u c r h₁ h₂ h₃ h₄ h₅ =>
    exact .answered u c r h₁ ((hkeep u (by rw [h₂]; exact id)).trans h₂) (fun v hv => hall v (h₃ v hv)) h₄ h₅

/-- A thread that has the lock and has not sent. -/
theorem Held.of_locked (h : Held s) (ht : s.callers t = .locked c) :
    s.callLock = some t ∧ (∀ u, u ≠ t → (s.callers u).Outside) ∧ s.requests = [] ∧ s.replies = fun _ => [] := by
  have hin : ¬ (s.callers t).Outside := by rw [ht]; exact id
  cases h with
  | free h₁ h₂ h₃ h₄ => exact absurd (h₂ t) hin
  | locked u d h₁ h₂ h₃ h₄ h₅ =>
    obtain rfl := Classical.not_not.mp fun e => hin (h₃ t e)
    exact ⟨h₁, h₃, h₄, h₅⟩
  | asked u d h₁ h₂ h₃ h₄ h₅ =>
    obtain rfl := Classical.not_not.mp fun e => hin (h₃ t e)
    rw [ht] at h₂
    contradiction
  | answered u d r h₁ h₂ h₃ h₄ h₅ =>
    obtain rfl := Classical.not_not.mp fun e => hin (h₃ t e)
    rw [ht] at h₂
    contradiction

/-- A thread that has sent: its message is on the way, or its reply is. -/
theorem Held.of_sent (h : Held s) (ht : s.callers t = .sent c) :
    s.callLock = some t ∧ (∀ u, u ≠ t → (s.callers u).Outside) ∧
      (s.requests = [(strInt t, c)] ∧ s.replies = (fun _ => []) ∨
        s.requests = [] ∧ ∃ r, s.replies = Function.update (fun _ => []) (strInt t) [r]) := by
  have hin : ¬ (s.callers t).Outside := by rw [ht]; exact id
  cases h with
  | free h₁ h₂ h₃ h₄ => exact absurd (h₂ t) hin
  | locked u d h₁ h₂ h₃ h₄ h₅ =>
    obtain rfl := Classical.not_not.mp fun e => hin (h₃ t e)
    rw [ht] at h₂
    contradiction
  | asked u d h₁ h₂ h₃ h₄ h₅ =>
    obtain rfl := Classical.not_not.mp fun e => hin (h₃ t e)
    rw [ht] at h₂
    cases h₂
    exact ⟨h₁, h₃, .inl ⟨h₄, h₅⟩⟩
  | answered u d r h₁ h₂ h₃ h₄ h₅ =>
    obtain rfl := Classical.not_not.mp fun e => hin (h₃ t e)
    exact ⟨h₁, h₃, .inr ⟨h₄, r, h₅⟩⟩

theorem phase_of_outside (h : p.Outside) (replies replies' : Text → List Reply) (t : ℤ) :
    phase replies t p = phase replies' t p := by
  cases p with
  | idle | waiting c => rfl
  | locked c | sent c => exact h.elim

theorem view_goto (s : Channel σ A X) (t : ℤ) (p : Caller A) :
    view (s.goto t p) = (view s).goto t (phase s.replies t p) := by
  simp only [view, Channel.goto, Atomic.goto, Atomic.mk.injEq, true_and]
  funext u
  by_cases hut : u = t
  · subst hut
    rw [Function.update_self, Function.update_self]
  · rw [Function.update_of_ne hut, Function.update_of_ne hut]

/-- What is seen does not change when a thread goes on within a phase. -/
theorem view_goto_of_eq (h : (view s).phase t = phase s.replies t p) : view (s.goto t p) = view s := by
  rw [view_goto, ← h, Atomic.goto, Function.update_eq_self]

/-- An event keeps the invariant, and is some acts of the object. -/
def Simulated (M : Manager σ A X) (s : Channel σ A X) (e : ChannelEvent A X) : Prop :=
  Inv (step M s e) ∧ Atomic.Steps M.service (view s) (acts s e) (view (step M s e))

variable {M : Manager σ A X}

theorem simulated_of_eq {e : ChannelEvent A X} (h : Inv s) (hstep : step M s e = s) (hacts : acts s e = []) :
    Simulated M s e := by
  rw [Simulated, hstep, hacts]
  exact ⟨h, .nil _⟩

theorem simulated_callCommand (h : Inv s) (t : ℤ) (c : Command A) : Simulated M s (.callCommand t c) := by
  cases ht : s.callers t with
  | idle =>
    have hstep : step M s (.callCommand t c) = s.goto t (.waiting c) := by simp only [step, ht]
    have hacts : acts s (.callCommand t c) = [.call t c] := by simp only [acts, ht]
    rw [Simulated, hstep, hacts, view_goto]
    refine ⟨⟨h.named, h.held.goto (by rw [ht]; trivial) trivial⟩, .single (.call c ?_)⟩
    simp only [view, ht, phase]
  | waiting d | locked d | sent d => exact simulated_of_eq h (by simp only [step, ht]) (by simp only [acts, ht])

theorem simulated_acquire (h : Inv s) (t : ℤ) : Simulated M s (.acquire t) := by
  cases ht : s.callers t with
  | waiting c =>
    cases hlock : s.callLock with
    | none =>
      have hstep : step M s (.acquire t) = { s with callLock := some t }.goto t (.locked c) := by
        simp only [step, ht, hlock]
      rw [Simulated, hstep]
      constructor
      · refine ⟨h.named, ?_⟩
        cases h.held with
        | free h₁ h₂ h₃ h₄ =>
          refine .locked t c rfl goto_callers_self (fun u hu => ?_) h₃ h₄
          rw [goto_callers_of_ne hu]
          exact h₂ u
        | locked u d h₁ | asked u d h₁ | answered u d r h₁ => rw [hlock] at h₁; contradiction
      · rw [view_goto_of_eq (by simp only [view, ht, phase])]
        exact .nil _
    | some u => exact simulated_of_eq h (by simp only [step, ht, hlock]) rfl
  | idle => exact simulated_of_eq h (by simp only [step, ht]) rfl
  | locked c | sent c => exact simulated_of_eq h (by simp only [step, ht]) rfl

theorem simulated_send (h : Inv s) (t : ℤ) : Simulated M s (.send t) := by
  cases ht : s.callers t with
  | locked c =>
    obtain ⟨hlock, hout, hreq, hrep⟩ := h.held.of_locked ht
    have hstep : step M s (.send t) =
        { s with commandS := (s.getCommand t).2.commandS, requests := [(strInt t, c)] }.goto t (.sent c) := by
      simp only [step, ht, Channel.send, getCommand_fst h, hreq, List.nil_append]
      rw [getCommand_snd]
    rw [Simulated, hstep]
    constructor
    · refine ⟨h.named_getCommand t, .asked t c hlock goto_callers_self (fun u hu => ?_) rfl hrep⟩
      rw [goto_callers_of_ne hu]
      exact hout u hu
    · rw [view_goto_of_eq (by simp only [view, ht, phase, hrep])]
      exact .nil _
  | idle => exact simulated_of_eq h (by simp only [step, ht]) rfl
  | waiting c | sent c => exact simulated_of_eq h (by simp only [step, ht]) rfl

theorem simulated_recv (h : Inv s) (t : ℤ) : Simulated M s (.recv t) := by
  cases ht : s.callers t with
  | sent c =>
    obtain ⟨hlock, hout, ⟨hreq, hrep⟩ | ⟨hreq, r, hrep⟩⟩ := h.held.of_sent ht
    · -- no reply has come
      have hnone : s.replies (s.getCommand t).1 = [] := by rw [hrep]
      exact simulated_of_eq h (by simp only [step, ht, Channel.recv, hnone]) (by simp only [acts, ht, hnone])
    · have hr : s.replies (strInt t) = [r] := by rw [hrep, Function.update_self]
      have hback : Function.update s.replies (strInt t) [] = fun _ => [] := by
        rw [hrep, Function.update_idem, Function.update_eq_self]
      have hstep : step M s (.recv t) = { s with replies := fun _ => [], callLock := none }.goto t .idle := by
        simp only [step, ht, Channel.recv, getCommand_fst h, hr, hback]
      have hacts : acts s (.recv t) = [.ret t (decode r)] := by simp only [acts, ht, getCommand_fst h, hr]
      rw [Simulated, hstep, hacts]
      constructor
      · refine ⟨h.named, .free rfl (fun u => ?_) hreq rfl⟩
        by_cases hut : u = t
        · rw [hut, goto_callers_self]
          trivial
        · rw [goto_callers_of_ne hut]
          exact hout u hut
      · have hdone : (view s).phase t = .done (decode r) := by simp only [view, ht, phase, hr]
        have hret := Atomic.Step.ret (S := M.service) hdone
        refine .single ?_
        convert hret using 1
        simp only [view, Channel.goto, Atomic.goto, Atomic.mk.injEq, true_and]
        funext u
        by_cases hut : u = t
        · rw [hut, Function.update_self, Function.update_self, phase]
        · rw [Function.update_of_ne hut, Function.update_of_ne hut]
          exact phase_of_outside (hout u hut) _ _ u
  | idle => exact simulated_of_eq h (by simp only [step, ht]) (by simp only [acts, ht])
  | waiting c | locked c => exact simulated_of_eq h (by simp only [step, ht]) (by simp only [acts, ht])

theorem simulated_recover (h : Inv s) : Simulated M s .recover := by
  cases hloop : s.loop with
  | recovering =>
    have hacts : acts s .recover = [.own none] := by simp only [acts, hloop]
    rw [Simulated, hacts]
    simp only [step, hloop]
    exact ⟨⟨h.named, h.held.of_eq rfl rfl rfl rfl⟩, .single (.own none)⟩
  | head | polling | stopped => exact simulated_of_eq h (by simp only [step, hloop]) (by simp only [acts, hloop])
  | round sockets => exact simulated_of_eq h (by simp only [step, hloop]) (by simp only [acts, hloop])

theorem simulated_test (h : Inv s) : Simulated M s .test := by
  cases hloop : s.loop with
  | head =>
    rw [Simulated]
    simp only [step, hloop]
    exact ⟨⟨h.named, h.held.of_eq rfl rfl rfl rfl⟩, .nil _⟩
  | recovering | polling | stopped => exact simulated_of_eq h (by simp only [step, hloop]) rfl
  | round sockets => exact simulated_of_eq h (by simp only [step, hloop]) rfl

theorem simulated_poll (h : Inv s) (before after : List X) : Simulated M s (.poll before after) := by
  cases hloop : s.loop with
  | polling =>
    rw [Simulated]
    simp only [step, hloop]
    exact ⟨⟨h.named, h.held.of_eq rfl rfl rfl rfl⟩, .nil _⟩
  | recovering | head | stopped => exact simulated_of_eq h (by simp only [step, hloop]) rfl
  | round sockets => exact simulated_of_eq h (by simp only [step, hloop]) rfl

/-- The command of the thread that has the lock is carried out. -/
theorem simulated_ctrl (h : Inv s) {sockets : List (Ready X)} (hloop : s.loop = .round (.ctrl :: sockets)) :
    Simulated M s .next := by
  have hstep : step M s .next = { handleCtrl M s with loop := .round sockets } := by simp only [step, hloop]
  rw [Simulated, hstep]
  have hidle (hreq : s.requests = []) : Inv { handleCtrl M s with loop := .round sockets } ∧
      Atomic.Steps M.service (view s) (acts s .next) (view { handleCtrl M s with loop := .round sockets }) := by
    simp only [handleCtrl, acts, hloop, hreq]
    exact ⟨⟨h.named, h.held.of_eq rfl rfl hreq.symm rfl⟩, .nil _⟩
  cases h.held with
  | free _ _ hreq | locked _ _ _ _ _ hreq | answered _ _ _ _ _ _ hreq => exact hidle hreq
  | asked t c hlock ht hout hreq hrep =>
    have hacts : acts s .next = [.exec t] := by
      simp only [acts, hloop, hreq, readInt_strInt, Option.map_some, Option.toList_some]
    have hrec : handleCtrl M s =
        { s with
          manager := (M.service.exec s.manager c).1
          requests := []
          replies := Function.update (fun _ => []) (strInt t) [(M.handlers.handleCommand c s.manager).2] } := by
      simp only [handleCtrl, hreq, hrep, List.nil_append, Manager.service, ← decode_handleCommand]
    rw [hacts, hrec]
    constructor
    · exact ⟨h.named, .answered t c _ hlock ht hout rfl rfl⟩
    · have hdone : (M.service.exec s.manager c).2 = decode (M.handlers.handleCommand c s.manager).2 := by
        simp only [Manager.service, ← decode_handleCommand]
      have hcalled : (view s).phase t = .called c := by simp only [view, ht, phase, hrep]
      have hexec := Atomic.Step.exec (S := M.service) hcalled
      refine .single ?_
      convert hexec using 1
      simp only [view, Atomic.goto, Atomic.mk.injEq, true_and]
      funext u
      by_cases hut : u = t
      · rw [hut, Function.update_self, ht, phase, Function.update_self, hdone]
      · rw [Function.update_of_ne hut]
        exact phase_of_outside (hout u hut) _ _ u

theorem simulated_next (h : Inv s) : Simulated M s .next := by
  match hloop : s.loop with
  | .round (.ctrl :: sockets) => exact simulated_ctrl h hloop
  | .round (.other x :: sockets) =>
    have hacts : acts s .next = [.own (some x)] := by simp only [acts, hloop]
    rw [Simulated, hacts]
    simp only [step, hloop]
    exact ⟨⟨h.named, h.held.of_eq rfl rfl rfl rfl⟩, .single (.own (some x))⟩
  | .round [] =>
    rw [Simulated]
    simp only [step, acts, hloop]
    exact ⟨⟨h.named, h.held.of_eq rfl rfl rfl rfl⟩, .nil _⟩
  | .recovering | .head | .polling | .stopped =>
    exact simulated_of_eq h (by simp only [step, hloop]) (by simp only [acts, hloop])

theorem simulated (h : Inv s) (e : ChannelEvent A X) : Simulated M s e := by
  cases e with
  | callCommand t c => exact simulated_callCommand h t c
  | acquire t => exact simulated_acquire h t
  | send t => exact simulated_send h t
  | recv t => exact simulated_recv h t
  | recover => exact simulated_recover h
  | test => exact simulated_test h
  | poll before after => exact simulated_poll h before after
  | next => exact simulated_next h
  | terminate => exact ⟨⟨h.named, h.held.of_eq rfl rfl rfl rfl⟩, .nil _⟩

/-- What is seen of a run: calls, what they return, and what the manager does for other sockets. -/
def history (M : Manager σ A X) (m : σ) (events : List (ChannelEvent A X)) :
    List (Act ℤ (Command A) (Except Text Reply) (Option X)) :=
  (collect (step M) acts (init m) events).filter Act.visible

/-- **The manager is atomic.** Whatever threads call it, in whatever order they and the manager go on: each call that
returns has had its effect once, between its beginning and its end, and returns what the command means there. -/
theorem linearizable (M : Manager σ A X) (m : σ) (events : List (ChannelEvent A X)) :
    Atomic.Linearizable M.service m (history M m events) :=
  Atomic.linearizable_run view Inv rfl (inv_init m) (fun _ _ h => (simulated h _).1) (fun _ _ h => (simulated h _).2)
    events

/-! ### Calls return -/

/-- The manager goes on with its loop. -/
structure Live (s : Channel σ A X) : Prop where
  inv : Inv s
  loop : s.loop ≠ .stopped
  terminated : s.terminated = false

/-- Nothing that is done for a socket, or before the loop, ends the manager. -/
structure Manager.GoesOn (M : Manager σ A X) : Prop where
  receive : ∀ x m, (M.receive x m).2 = true
  recover : ∀ m, (M.recover m).2 = true

theorem strInt_injective : Function.Injective strInt := by
  intro m n h
  have hread := congrArg readInt h
  rw [readInt_strInt, readInt_strInt] at hread
  exact Option.some.inj hread

theorem inv_events (h : Inv s) (events : List (ChannelEvent A X)) : Inv (run (step M) s events) :=
  inv_run (I := Inv) (fun _ e hs => (simulated hs e).1) h events

/-- The rest of a round. -/
theorem exists_round_done (hgo : Manager.GoesOn M) (h : Live s) {sockets : List (Ready X)}
    (hloop : s.loop = .round sockets) :
    ∃ events, Live (run (step M) s events) ∧ (run (step M) s events).loop = .head ∧
      (run (step M) s events).callers = s.callers := by
  induction sockets generalizing s with
  | nil =>
    have hstep : step M s .next = { s with loop := .head } := by simp only [step, hloop]
    refine ⟨[.next], ⟨inv_events h.inv _, ?_, ?_⟩, ?_, ?_⟩ <;> simp only [run_cons, run_nil, hstep]
    · exact nofun
    · exact h.terminated
  | cons x sockets ih =>
    have hnext : (step M s .next).loop = .round sockets ∧ (step M s .next).callers = s.callers ∧
        (step M s .next).terminated = s.terminated := by
      cases x with
      | ctrl =>
        simp only [step, hloop, handleCtrl]
        split <;> simp
      | other x => simp [step, hloop, hgo.receive]
    have hlive : Live (step M s .next) :=
      ⟨(simulated h.inv _).1, by rw [hnext.1]; exact nofun, hnext.2.2.trans h.terminated⟩
    obtain ⟨events, h₁, h₂, h₃⟩ := ih hlive hnext.1
    exact ⟨.next :: events, h₁, h₂, h₃.trans hnext.2.1⟩

/-- The manager comes to the head of its loop; the threads stay where they are. -/
theorem exists_head (hgo : Manager.GoesOn M) (h : Live s) :
    ∃ events, Live (run (step M) s events) ∧ (run (step M) s events).loop = .head ∧
      (run (step M) s events).callers = s.callers := by
  cases hloop : s.loop with
  | recovering =>
    have hstep : step M s .recover = { s with manager := (M.recover s.manager).1, loop := .head } := by
      simp only [step, hloop, hgo.recover, if_pos]
    refine ⟨[.recover], ⟨inv_events h.inv _, ?_, ?_⟩, ?_, ?_⟩ <;> simp only [run_cons, run_nil, hstep]
    · exact nofun
    · exact h.terminated
  | head => exact ⟨[], h, hloop, rfl⟩
  | polling =>
    have hstep : ∃ sockets, step M s (.poll [] []) = { s with loop := .round sockets } := by
      simp only [step, hloop, h.terminated, Bool.and_false, if_neg, Bool.false_eq_true, not_false_eq_true]
      exact ⟨_, rfl⟩
    obtain ⟨sockets, hstep⟩ := hstep
    have hlive : Live (step M s (.poll [] [])) :=
      ⟨(simulated h.inv _).1, by rw [hstep]; exact nofun, by rw [hstep]; exact h.terminated⟩
    obtain ⟨events, h₁, h₂, h₃⟩ := exists_round_done hgo hlive (by rw [hstep])
    exact ⟨.poll [] [] :: events, h₁, h₂, h₃.trans (by rw [hstep])⟩
  | round sockets => exact exists_round_done hgo h hloop
  | stopped => exact absurd hloop h.loop

/-- A reply that has come is received. -/
theorem recv_answered (h : Inv s) {r : Reply} (ht : s.callers t = .sent c)
    (hrep : s.replies = Function.update (fun _ => []) (strInt t) [r]) :
    (step M s (.recv t)).callers = Function.update s.callers t .idle ∧ (step M s (.recv t)).callLock = none ∧
      (step M s (.recv t)).loop = s.loop ∧ (step M s (.recv t)).terminated = s.terminated := by
  have hr : s.replies (strInt t) = [r] := by rw [hrep, Function.update_self]
  simp only [step, ht, Channel.recv, getCommand_fst h, hr]
  exact ⟨rfl, rfl, rfl, rfl⟩

/-- The manager takes a command that is sent, and its caller gets the reply. -/
theorem exists_returned (hgo : Manager.GoesOn M) (h : Live s) (ht : s.callers t = .sent c) :
    ∃ events, Live (run (step M) s events) ∧ (run (step M) s events).callLock = none ∧
      (run (step M) s events).callers = Function.update s.callers t .idle := by
  have hrecv {s : Channel σ A X} (h : Live s) (ht : s.callers t = .sent c) {r : Reply}
      (hrep : s.replies = Function.update (fun _ => []) (strInt t) [r]) :
      Live (step M s (.recv t)) ∧ (step M s (.recv t)).callLock = none ∧
        (step M s (.recv t)).callers = Function.update s.callers t .idle := by
    obtain ⟨h₁, h₂, h₃, h₄⟩ := recv_answered (M := M) h.inv ht hrep
    exact ⟨⟨(simulated h.inv _).1, by rw [h₃]; exact h.loop, h₄.trans h.terminated⟩, h₂, h₁⟩
  obtain ⟨events, hlive, hhead, hcallers⟩ := exists_head hgo h
  have ht' : (run (step M) s events).callers t = .sent c := by rw [hcallers, ht]
  obtain ⟨-, -, ⟨hreq, hrep⟩ | ⟨-, r, hrep⟩⟩ := hlive.inv.held.of_sent ht'
  · generalize hs' : run (step M) s events = s' at *
    -- one round with the command alone
    have hround : run (step M) s' [.test, .poll [] [], .next] = { handleCtrl M s' with loop := .round [] } := by
      simp only [run_cons, run_nil, step, hhead, hlive.terminated, hreq, if_neg, Bool.false_eq_true, not_false_eq_true,
        reduceCtorEq, List.map_nil, List.nil_append, List.append_nil, Bool.and_false, handleCtrl]
    have hlive' : Live (run (step M) s' [.test, .poll [] [], .next]) := by
      refine ⟨inv_events hlive.inv _, ?_, ?_⟩ <;> rw [hround]
      · exact nofun
      · simp only [handleCtrl, hreq]
        exact hlive.terminated
    have hcallers' : (run (step M) s' [.test, .poll [] [], .next]).callers = s.callers := by
      rw [hround]
      simp only [handleCtrl, hreq]
      exact hcallers
    have hrep' : (run (step M) s' [.test, .poll [] [], .next]).replies =
        Function.update (fun _ => []) (strInt t) [(M.handlers.handleCommand c s'.manager).2] := by
      rw [hround]
      simp only [handleCtrl, hreq, hrep, List.nil_append]
    obtain ⟨h₁, h₂, h₃⟩ := hrecv hlive' (by rw [hcallers', ht]) hrep'
    refine ⟨events ++ ([.test, .poll [] [], .next] ++ [.recv t]), ?_⟩
    rw [run_append, hs', run_append]
    exact ⟨h₁, h₂, by rw [← hcallers']; exact h₃⟩
  · obtain ⟨h₁, h₂, h₃⟩ := hrecv hlive ht' hrep
    refine ⟨events ++ [.recv t], ?_⟩
    rw [run_append]
    exact ⟨h₁, h₂, by rw [← hcallers]; exact h₃⟩

/-- The call of the thread is not over, and never will be. -/
def Stuck (s : Channel σ A X) (t : ℤ) : Prop := s.loop = .stopped ∧ s.callers t ≠ .idle ∧ s.replies (strInt t) = []

/-- Two threads call, and the manager is terminated while it handles the command of the first. -/
def terminating : List (ChannelEvent Unit Empty) :=
  [.callCommand 1 ⟨.launch, ⟨⟩⟩, .callCommand 2 ⟨.halt, ⟨⟩⟩, .acquire 1, .send 1, .recover, .test, .poll [] [], .next,
    .terminate, .next, .test]

end Channel

end Riaps.Deployment
