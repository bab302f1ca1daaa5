import Riaps.Foundation.Exceptions
import Riaps.Foundation.Runs
import Riaps.Actor.DiscoClient

/-!
# Terminating an actor

An actor is terminated by a signal, whose handler is there before the actor is set up.
`terminate` deactivates the components one after another, then terminates them, and then
the clients of the deployment and the discovery service. It looks whether a part has
a thread and a control socket, and whether the actor has the clients; but a component
that is not active raises an exception when it is deactivated, and nothing is terminated
any more. And `terminate` waits: for the thread of each part, for that of each timer, and
for the last answer of the discovery service, all without a limit.

`Lifecycle` is how far the main program has got: every point of `setup` and `activate`
is one of its states. What the threads and the service come to is in the state too: a
thread may be in a handler that does not return. `terminates_iff` says from which of the
states an actor is terminated.
-/

namespace Riaps.Run

open Riaps.Foundation

/-- `Part.State`, and `Peripheral.State`. -/
inductive State where
  | starting | initial | ready | active | checkpointing | inactive | passive | destroyed
  deriving DecidableEq

namespace Lifecycle

/-- What may end `terminate`, or keep it from its end. -/
inductive Exc where
  /-- `StateError`: "Invalid state in deactivate()". -/
  | stateError (state : State)
  /-- An attribute of `None`, or one that is not there yet. -/
  | attributeError
  /-- A thread cannot be joined before it is started. -/
  | runtimeError
  /-- What the `terminate` of an inner thread raises. -/
  | inner
  /-- A wait that does not end. -/
  | hangs
  deriving DecidableEq

/-- A thread of a part. -/
inductive Thread where
  | none | created | started
  deriving DecidableEq

/-- A client of a service: before its `start` it has no socket. -/
inductive Client where
  | none | created | started
  deriving DecidableEq

/-- What a part sends to its thread. -/
inductive Command where
  | build | activate | deactivate | kill
  deriving DecidableEq

/-- A port of a part, as far as it is to be terminated. -/
structure Port where
  kind : PortKind
  /-- Its own thread was started, if it is a timer. -/
  thread : Bool
  /-- Its socket is set up. -/
  socket : Bool
  /-- An inner thread raises an exception when it is terminated, if it is an inside port. -/
  raises : Bool
  /-- The timer's thread, when it is told to, comes to its end; or the `terminate` of each inner thread does. -/
  ends : Bool
  deriving DecidableEq

/-- `terminate` of a port: of a timer, whose thread is joined, and of an inside port. -/
def Port.terminate (p : Port) : Except Exc Unit :=
  match p.kind with
  | .tim =>
    if p.thread then
      if ¬p.socket then throw .attributeError
      else if p.ends then pure () else throw .hangs
    else pure ()
  | .ins => if p.raises then throw .inner else if p.ends then pure () else throw .hangs
  | _ => pure ()

/-- `Part`. -/
structure Part where
  state : State
  /-- `control` is there. -/
  control : Bool
  thread : Thread
  ports : List Port
  /-- What was sent to the thread. -/
  sent : List Command
  /-- The thread was joined. -/
  joined : Bool
  /-- What is sent to the thread gets there and, when it is told to, the thread comes to its end. -/
  ends : Bool
  deriving DecidableEq

/-- `sendControl`. -/
def Part.sendControl (cmd : Command) (p : Part) : Part := if p.control then { p with sent := p.sent ++ [cmd] } else p

/-- `Part.deactivate`. -/
def Part.deactivate (p : Part) : Except Exc Part :=
  if p.state ≠ .active then throw (.stateError p.state)
  else pure { p.sendControl .deactivate with state := .inactive }

/-- `self.thread.join()`, if there is a thread: it waits for its end. -/
def Part.join (p : Part) : Except Exc Part :=
  match p.thread with
  | .none => pure p
  | .created => throw .runtimeError
  | .started => if p.ends then pure { p with joined := true } else throw .hangs

/-- `Part.terminate`. -/
def Part.terminate (p : Part) : Except Exc Part := do
  let p ← (p.sendControl .kill).join
  let _ ← p.ports.mapM Port.terminate
  pure p

/-- A component of an actor: a `Part`, or a `Peripheral`. -/
inductive Component where
  | part (p : Part)
  | peripheral (state : State)
  deriving DecidableEq

namespace Component

/-- `state`. -/
def state : Component → State
  | .part p => p.state
  | .peripheral s => s

/-- `deactivate`. -/
def deactivate : Component → Except Exc Component
  | .part p => .part <$> p.deactivate
  | .peripheral s => if s ≠ .active then throw (.stateError s) else pure (.peripheral .inactive)

/-- `terminate`: a peripheral releases its device, through the deployment client. -/
def terminate (deplc : Client) : Component → Except Exc Component
  | .part p => .part <$> p.terminate
  | .peripheral s => if deplc ≠ .started then throw .attributeError else pure (.peripheral s)

end Component

/-- An actor. -/
structure Actor where
  components : List Component
  disco : Client
  deplc : Client
  /-- The discovery service, when it is asked for the last time, answers, or the client has lost its socket. -/
  answers : Bool
  /-- The clients were terminated. -/
  discoTerminated : Bool
  deplcTerminated : Bool
  deriving DecidableEq

/-- `DiscoClient.terminate`, if there is a client: it looks at its socket first, and it waits for an answer. -/
def Actor.terminateDisco (a : Actor) : Except Exc Actor :=
  match a.disco with
  | .none => pure a
  | .created => throw .attributeError
  | .started => if a.answers then pure { a with discoTerminated := true } else throw .hangs

/-- `DeplClient.terminate`, if there is a client. -/
def Actor.terminateDeplc (a : Actor) : Actor := { a with deplcTerminated := a.deplc ≠ .none }

/-- `Actor.terminate`. -/
def Actor.terminate (a : Actor) : Except Exc Actor := do
  let components ← a.components.mapM Component.deactivate
  let components ← components.mapM (Component.terminate a.deplc)
  { a with components := components }.terminateDeplc.terminateDisco

/-! ### How an actor gets where it is -/

/-- A step of the set-up of a component, and of its activation. -/
inductive Stage where
  /-- The control socket is there. -/
  | control
  /-- `setup` of a port. -/
  | setupPort (n : ℕ)
  | newThread
  /-- The thread is started and told to build itself. -/
  | startThread
  /-- The thread sets the socket of a port up. -/
  | setupSocket (n : ℕ)
  | ready
  | sendActivate
  | active
  deriving DecidableEq

/-- It is one of `activate`. -/
def Stage.isActivation : Stage → Bool
  | .sendActivate | .active => true
  | _ => false

/-- A stage of a part, at its time. -/
def Part.advance (p : Part) : Stage → Part
  | .control => if p.state = .initial then { p with control := true } else p
  | .setupPort n =>
    if p.control ∧ p.thread = .none then
      { p with ports := p.ports.modify n fun port => { port with thread := port.kind = .tim } }
    else p
  | .newThread =>
    if p.control ∧ p.thread = .none ∧ ∀ port ∈ p.ports, port.kind = .tim → port.thread then
      { p with thread := .created }
    else p
  | .startThread => if p.thread = .created then { p.sendControl .build with thread := .started } else p
  | .setupSocket n =>
    if p.thread = .started then { p with ports := p.ports.modify n fun port => { port with socket := true } } else p
  | .ready =>
    if p.state = .initial ∧ p.thread = .started ∧ ∀ port ∈ p.ports, port.socket then { p with state := .ready } else p
  | .sendActivate => if p.state = .ready then p.sendControl .activate else p
  | .active => if p.state = .ready then { p with state := .active } else p

/-- A stage of a component. A peripheral is ready when its device was requested. -/
def Component.advance (stage : Stage) : Component → Component
  | .part p => .part (p.advance stage)
  | .peripheral s =>
    match stage with
    | .ready => if s = .initial then .peripheral .ready else .peripheral s
    | .active => if s = .ready then .peripheral .active else .peripheral s
    | _ => .peripheral s

/-- The thread of a component goes where it will come to an end, or not. -/
def Component.setEnds (ends : Bool) : Component → Component
  | .part p => .part { p with ends := ends }
  | .peripheral s => .peripheral s

/-- So does a thread of a port, by its index. -/
def Component.setPortEnds (m : ℕ) (ends : Bool) : Component → Component
  | .part p => .part { p with ports := p.ports.modify m fun port => { port with ends := ends } }
  | .peripheral s => .peripheral s

/-- What the main program does next, and what happens to the others. -/
inductive Action where
  | newDisco | startDisco | newDeplc | startDeplc
  /-- A stage of the component with an index. -/
  | component (n : ℕ) (stage : Stage)
  /-- The thread of a component. -/
  | thread (n : ℕ) (ends : Bool)
  /-- The threads of a port of a component. -/
  | portThread (n m : ℕ) (ends : Bool)
  /-- The discovery service. -/
  | service (answers : Bool)
  deriving DecidableEq

/-- The components are set up one after another, and then activated one after another. -/
def Actor.atTurn (a : Actor) (n : ℕ) (stage : Stage) : Bool :=
  if stage.isActivation then
    (∀ c ∈ a.components.take n, c.state = .active) ∧ ∀ c ∈ a.components.drop n, c.state = .ready
  else ∀ c ∈ a.components.take n, c.state = .ready

/-- One step: of `setup` and `activate` if the program is there, or of the others. -/
def step (a : Actor) : Action → Actor
  | .newDisco => if a.disco = .none then { a with disco := .created } else a
  | .startDisco => if a.disco = .created then { a with disco := .started } else a
  | .newDeplc => if a.disco = .started ∧ a.deplc = .none then { a with deplc := .created } else a
  | .startDeplc => if a.deplc = .created then { a with deplc := .started } else a
  | .component n stage =>
    if a.deplc = .started ∧ a.atTurn n stage then
      { a with components := a.components.modify n (Component.advance stage) }
    else a
  | .thread n ends => { a with components := a.components.modify n (Component.setEnds ends) }
  | .portThread n m ends => { a with components := a.components.modify n (Component.setPortEnds m ends) }
  | .service answers => { a with answers := answers }

/-- A component as it is constructed: the kinds of its ports, and whether an inner thread raises an exception; or none,
for a peripheral. -/
def construct : Option (List (PortKind × Bool)) → Component
  | some ports =>
    .part ⟨.initial, false, .none, ports.map fun port => ⟨port.1, false, false, port.2, true⟩, [], false, true⟩
  | none => .peripheral .initial

/-- An actor as it is constructed. -/
def init (components : List (Option (List (PortKind × Bool)))) : Actor :=
  ⟨components.map construct, .none, .none, true, false, false⟩

/-! ### What is terminated -/

/-- The thread of a component, if it was started, was told to stop and joined. -/
def Component.Stopped (c c' : Component) : Prop :=
  match c with
  | .part p => p.thread = .started → ∃ p', c' = .part p' ∧ .kill ∈ p'.sent ∧ p'.joined
  | .peripheral _ => True

/-- An actor is terminated, without an exception: the threads of its components, and its clients. -/
def Actor.Terminates (a : Actor) : Prop :=
  ∃ a', a.terminate = .ok a' ∧ List.Forall₂ Component.Stopped a.components a'.components ∧
    (a.deplc ≠ .none → a'.deplcTerminated) ∧ (a.disco ≠ .none → a'.discoTerminated)

/-- No inner thread of an inside port raises an exception when it is terminated, and what is waited for comes to its
end. -/
def Port.quiet (port : Port) : Bool :=
  match port.kind with
  | .tim => port.ends
  | .ins => !port.raises && port.ends
  | _ => true

/-- The thread of the component comes to its end, and its ports are quiet. -/
def Component.quiet : Component → Bool
  | .part p => p.ends && p.ports.all Port.quiet
  | .peripheral _ => true

/-- All components are active, their threads and those of their timers come to their ends, no inner thread raises an
exception, and the discovery client, if there is one, has its socket and gets an answer. -/
def Actor.Terminable (a : Actor) : Prop :=
  (∀ c ∈ a.components, c.state = .active ∧ c.quiet) ∧ a.disco ≠ .created ∧ (a.disco = .started → a.answers)

instance (a : Actor) : Decidable a.Terminable := inferInstanceAs (Decidable (_ ∧ _ ∧ _))

/-! ### Every state -/

section SendControl

variable (cmd : Command) (p : Part)

@[simp] theorem state_sendControl : (p.sendControl cmd).state = p.state := by
  unfold Part.sendControl
  split <;> rfl

@[simp] theorem control_sendControl : (p.sendControl cmd).control = p.control := by
  unfold Part.sendControl
  split <;> rfl

@[simp] theorem thread_sendControl : (p.sendControl cmd).thread = p.thread := by
  unfold Part.sendControl
  split <;> rfl

@[simp] theorem ports_sendControl : (p.sendControl cmd).ports = p.ports := by
  unfold Part.sendControl
  split <;> rfl

@[simp] theorem ends_sendControl : (p.sendControl cmd).ends = p.ends := by
  unfold Part.sendControl
  split <;> rfl

end SendControl

/-- A part that is set up has its thread, and its sockets. -/
structure Part.Sound (p : Part) : Prop where
  state : p.state = .initial ∨ p.state = .ready ∨ p.state = .active
  control : p.thread ≠ .none → p.control
  timers : p.thread ≠ .none → ∀ port ∈ p.ports, port.kind = .tim → port.thread
  built : p.state ≠ .initial → p.thread = .started ∧ ∀ port ∈ p.ports, port.socket

/-- A peripheral has nothing to set up. -/
def Component.Sound : Component → Prop
  | .part p => p.Sound
  | .peripheral _ => True

/-- Components are set up when there are the clients. -/
structure Sound (a : Actor) : Prop where
  component : ∀ c ∈ a.components, c.Sound
  disco : a.deplc ≠ .none → a.disco = .started
  deplc : ∀ c ∈ a.components, c.state ≠ .initial → a.deplc = .started

theorem forall_mem_modify {α : Type*} {P : α → Prop} {l : List α} (h : ∀ x ∈ l, P x) {f : α → α}
    (hf : ∀ x ∈ l, P (f x)) (n : ℕ) : ∀ x ∈ l.modify n f, P x := by
  intro x hx
  obtain ⟨i, hi, rfl⟩ := List.mem_iff_getElem.mp hx
  rw [List.length_modify] at hi
  rw [List.getElem_modify]
  split_ifs
  · exact hf _ (List.getElem_mem hi)
  · exact h _ (List.getElem_mem hi)

/-- A part whose thread is not started is not set up. -/
theorem Part.Sound.initial {p : Part} (h : p.Sound) (hthread : p.thread ≠ .started) : p.state = .initial := by
  by_contra hstate
  exact hthread (h.built hstate).1

theorem Part.Sound.advance {p : Part} (h : p.Sound) (stage : Stage) : (p.advance stage).Sound := by
  cases stage with
  | control =>
    rw [Part.advance]
    split_ifs with hinitial
    · exact ⟨h.state, fun _ => rfl, h.timers, fun hstate => absurd hinitial hstate⟩
    · exact h
  | setupPort n =>
    rw [Part.advance]
    split_ifs with hguard
    · have hinitial := h.initial (by simp [hguard.2])
      exact ⟨h.state, h.control, fun hthread => absurd hguard.2 hthread, fun hstate => absurd hinitial hstate⟩
    · exact h
  | newThread =>
    rw [Part.advance]
    split_ifs with hguard
    · have hinitial := h.initial (by simp [hguard.2.1])
      exact ⟨h.state, fun _ => hguard.1, fun _ => hguard.2.2, fun hstate => absurd hinitial hstate⟩
    · exact h
  | startThread =>
    rw [Part.advance]
    split_ifs with hguard
    · have hinitial := h.initial (by simp [hguard])
      have hthread : p.thread ≠ .none := by simp [hguard]
      refine ⟨?_, fun _ => ?_, fun _ => ?_, fun hstate => absurd ((state_sendControl ..).trans hinitial) hstate⟩
      · simpa using h.state
      · simpa using h.control hthread
      · simpa using h.timers hthread
    · exact h
  | setupSocket n =>
    rw [Part.advance]
    split_ifs with hguard
    · refine ⟨h.state, h.control, fun hthread => ?_, fun hstate => ⟨hguard, ?_⟩⟩
      · exact forall_mem_modify (f := fun port => { port with socket := true }) (h.timers hthread) (h.timers hthread) n
      · exact forall_mem_modify (h.built hstate).2 (fun _ _ => rfl) n
    · exact h
  | ready =>
    rw [Part.advance]
    split_ifs with hguard
    · exact ⟨.inr (.inl rfl), h.control, h.timers, fun _ => hguard.2⟩
    · exact h
  | sendActivate =>
    rw [Part.advance]
    split_ifs with hguard
    · exact ⟨by simpa using h.state, by simpa using h.control, by simpa using h.timers, by simpa using h.built⟩
    · exact h
  | active =>
    rw [Part.advance]
    split_ifs with hguard
    · exact ⟨.inr (.inr rfl), h.control, h.timers, fun _ => h.built (by simp [hguard])⟩
    · exact h

theorem Component.Sound.advance {c : Component} (h : c.Sound) (stage : Stage) : (c.advance stage).Sound := by
  cases c with
  | part p => exact Part.Sound.advance h stage
  | peripheral s =>
    cases stage <;> simp only [Component.advance]
    case ready => split_ifs <;> trivial
    case active => split_ifs <;> trivial
    all_goals trivial

/-- Where the threads go is nothing to the set-up. -/
theorem Component.Sound.setEnds {c : Component} (h : c.Sound) (ends : Bool) : (c.setEnds ends).Sound := by
  cases c with
  | part p =>
    have hpart : p.Sound := h
    exact ⟨hpart.state, hpart.control, hpart.timers, hpart.built⟩
  | peripheral s => trivial

theorem Component.Sound.setPortEnds {c : Component} (h : c.Sound) (m : ℕ) (ends : Bool) :
    (c.setPortEnds m ends).Sound := by
  cases c with
  | part p =>
    have hpart : p.Sound := h
    refine ⟨hpart.state, hpart.control, fun hthread => ?_, fun hstate => ?_⟩
    · exact forall_mem_modify (f := fun port => { port with ends := ends }) (hpart.timers hthread)
        (hpart.timers hthread) m
    · obtain ⟨hthread, hsockets⟩ := hpart.built hstate
      exact ⟨hthread, forall_mem_modify (f := fun port => { port with ends := ends }) hsockets hsockets m⟩
  | peripheral s => trivial

@[simp] theorem state_setEnds (c : Component) (ends : Bool) : (c.setEnds ends).state = c.state := by
  cases c <;> rfl

@[simp] theorem state_setPortEnds (c : Component) (m : ℕ) (ends : Bool) : (c.setPortEnds m ends).state = c.state := by
  cases c <;> rfl

theorem sound_init (components : List (Option (List (PortKind × Bool)))) : Sound (init components) := by
  have hinitial : ∀ c ∈ (init components).components, c.Sound ∧ c.state = .initial := by
    intro c hc
    obtain ⟨ports, -, rfl⟩ := List.mem_map.mp hc
    cases ports with
    | none => exact ⟨trivial, rfl⟩
    | some ports =>
      exact ⟨⟨.inl rfl, fun hthread => absurd rfl hthread, fun hthread => absurd rfl hthread,
        fun hstate => absurd rfl hstate⟩, rfl⟩
  exact ⟨fun c hc => (hinitial c hc).1, fun hdeplc => absurd rfl hdeplc,
    fun c hc hstate => absurd (hinitial c hc).2 hstate⟩

theorem sound_step {a : Actor} (h : Sound a) (action : Action) : Sound (step a action) := by
  cases action with
  | newDisco =>
    rw [step]
    split_ifs with hguard
    · refine ⟨h.component, fun hdeplc => ?_, h.deplc⟩
      have hdisco := h.disco hdeplc
      simp [hguard] at hdisco
    · exact h
  | startDisco =>
    rw [step]
    split_ifs
    · exact ⟨h.component, fun _ => rfl, h.deplc⟩
    · exact h
  | newDeplc =>
    rw [step]
    split_ifs with hguard
    · refine ⟨h.component, fun _ => hguard.1, fun c hc hstate => ?_⟩
      have hdeplc := h.deplc c hc hstate
      simp [hguard.2] at hdeplc
    · exact h
  | startDeplc =>
    rw [step]
    split_ifs with hguard
    · exact ⟨h.component, fun _ => h.disco (by simp [hguard]), fun _ _ _ => rfl⟩
    · exact h
  | component n stage =>
    rw [step]
    split_ifs with hguard
    · refine ⟨?_, h.disco, fun _ _ _ => hguard.1⟩
      exact forall_mem_modify h.component (fun c hc => (h.component c hc).advance stage) n
    · exact h
  | thread n ends =>
    refine ⟨forall_mem_modify h.component (fun c hc => (h.component c hc).setEnds ends) n, h.disco, ?_⟩
    exact forall_mem_modify h.deplc (fun c hc hstate => h.deplc c hc (by simpa using hstate)) n
  | portThread n m ends =>
    refine ⟨forall_mem_modify h.component (fun c hc => (h.component c hc).setPortEnds m ends) n, h.disco, ?_⟩
    exact forall_mem_modify h.deplc (fun c hc hstate => h.deplc c hc (by simpa using hstate)) n
  | service answers => exact ⟨h.component, h.disco, h.deplc⟩

/-! ### Termination -/

theorem Part.deactivate_eq_ok {p p' : Part} :
    p.deactivate = .ok p' ↔ p.state = .active ∧ p' = { p.sendControl .deactivate with state := .inactive } := by
  unfold Part.deactivate
  by_cases hstate : p.state = .active
  · rw [if_neg (not_not.mpr hstate)]
    exact ⟨fun h => ⟨hstate, (Except.ok.inj h).symm⟩, fun h => congrArg Except.ok h.2.symm⟩
  · rw [if_pos hstate]
    exact iff_of_false (fun h => by cases h) fun h => hstate h.1

theorem Component.deactivate_ok {c c' : Component} (h : c.deactivate = .ok c') : c.state = .active := by
  cases c with
  | part p =>
    cases hp : p.deactivate with
    | ok p' => exact (Part.deactivate_eq_ok.mp hp).1
    | error e => simp [deactivate, hp] at h
  | peripheral s =>
    by_contra hstate
    have hraise : (Component.peripheral s).deactivate = throw (.stateError s) := if_pos hstate
    rw [hraise] at h
    cases h

/-- A port that is set up is terminated if it is quiet. -/
theorem Port.terminate_eq_ok_iff {port : Port} (hsocket : port.socket) (htimer : port.kind = .tim → port.thread) :
    port.terminate = .ok () ↔ port.quiet = true := by
  cases hkind : port.kind with
  | tim =>
    cases hends : port.ends <;>
      simp [Port.terminate, Port.quiet, hkind, hends, hsocket, htimer hkind, pure, Except.pure, throw, throwThe,
        MonadExceptOf.throw]
  | ins =>
    cases hraises : port.raises <;> cases hends : port.ends <;>
      simp [Port.terminate, Port.quiet, hkind, hends, hraises, pure, Except.pure, throw, throwThe,
        MonadExceptOf.throw]
  | _ => simp [Port.terminate, Port.quiet, hkind, pure, Except.pure]

/-- A part that is set up is told to stop and joined, if its thread comes to its end and its ports are quiet. -/
theorem Part.terminate_eq_ok_iff {p : Part} (hcontrol : p.control) (hthread : p.thread = .started)
    (hsockets : ∀ port ∈ p.ports, port.socket) (htimers : ∀ port ∈ p.ports, port.kind = .tim → port.thread)
    (p' : Part) :
    p.terminate = .ok p' ↔
      (p.ends && p.ports.all Port.quiet) = true ∧ p' = { p with sent := p.sent ++ [.kill], joined := true } := by
  have hsend : p.sendControl .kill = { p with sent := p.sent ++ [.kill] } := if_pos hcontrol
  have hports : ∀ q : Part, q.ports = p.ports →
      ((∃ units, q.ports.mapM Port.terminate = .ok units) ↔ p.ports.all Port.quiet = true) := by
    intro q hq
    rw [hq, List.all_eq_true]
    constructor
    · rintro ⟨units, hunits⟩ port hport
      obtain ⟨_, -, hok⟩ := exists_of_mapM_eq_ok hunits hport
      exact (Port.terminate_eq_ok_iff (hsockets port hport) (htimers port hport)).mp hok
    · intro hquiet
      exact ⟨_, mapM_of_forall fun port hport =>
        (Port.terminate_eq_ok_iff (hsockets port hport) (htimers port hport)).mpr (hquiet port hport)⟩
  unfold Part.terminate
  rw [bind_eq_ok_iff, hsend]
  by_cases hends : p.ends = true
  · have hjoin : ({ p with sent := p.sent ++ [.kill] } : Part).join =
        .ok { p with sent := p.sent ++ [.kill], joined := true } := by
      simp [Part.join, hthread, hends, pure, Except.pure]
    rw [hjoin, hends, Bool.true_and, ← hports { p with sent := p.sent ++ [.kill], joined := true } rfl]
    constructor
    · rintro ⟨q, hq, h⟩
      obtain rfl := Except.ok.inj hq
      obtain ⟨units, hunits, h⟩ := bind_eq_ok_iff.mp h
      exact ⟨⟨units, hunits⟩, (pure_eq_ok_iff.mp h).symm⟩
    · rintro ⟨⟨units, hunits⟩, rfl⟩
      exact ⟨_, rfl, bind_eq_ok_iff.mpr ⟨units, hunits, rfl⟩⟩
  · simp [Part.join, hthread, hends]

/-- A component after `deactivate`, -/
def Component.deactivated : Component → Component
  | .part p => .part { p.sendControl .deactivate with state := .inactive }
  | .peripheral _ => .peripheral .inactive

/-- and after `terminate`. -/
def Component.terminated : Component → Component
  | .part p => .part { p with sent := p.sent ++ [.kill], joined := true }
  | .peripheral s => .peripheral s

theorem Component.deactivate_of_active {c : Component} (h : c.state = .active) : c.deactivate = .ok c.deactivated := by
  cases c with
  | part p =>
    rw [deactivate, Part.deactivate_eq_ok.mpr ⟨h, rfl⟩]
    rfl
  | peripheral s => exact if_neg (not_not.mpr h)

/-- A component that was active is terminated if its threads come to their ends. -/
theorem Component.terminate_of_active {c c' : Component} (h : c.Sound) (hactive : c.state = .active) {deplc : Client}
    (hdeplc : deplc = .started) :
    c.deactivated.terminate deplc = .ok c' ↔ c.quiet = true ∧ c' = c.deactivated.terminated := by
  cases c with
  | peripheral s =>
    have hterminate : (Component.peripheral s).deactivated.terminate deplc = .ok (.peripheral .inactive) :=
      if_neg (not_not.mpr hdeplc)
    rw [hterminate, quiet, and_iff_right rfl]
    exact ⟨fun h => (Except.ok.inj h).symm, fun h => congrArg Except.ok h.symm⟩
  | part p =>
    obtain ⟨hthread, hsockets⟩ := Part.Sound.built h (by rw [show p.state = .active from hactive]; decide)
    have hset : p.thread ≠ .none := by simp [hthread]
    have hpart : p.Sound := h
    obtain ⟨q, hq⟩ : ∃ q : Part, q = { p.sendControl .deactivate with state := .inactive } := ⟨_, rfl⟩
    have hports : q.ports = p.ports := by simp [hq]
    have hends : q.ends = p.ends := by simp [hq]
    have hterminate := Part.terminate_eq_ok_iff (p := q) (by simp [hq, hpart.control hset]) (by simp [hq, hthread])
      (hports ▸ hsockets) (hports ▸ hpart.timers hset)
    rw [deactivated, ← hq, terminate, quiet, terminated, ← hports, ← hends]
    cases hp : q.terminate with
    | error e =>
      refine iff_of_false (fun h => by cases h) fun h => ?_
      exact absurd (hp.symm.trans ((hterminate _).mpr ⟨h.1, rfl⟩)) (by simp)
    | ok p' =>
      obtain ⟨hquiet, rfl⟩ := (hterminate p').mp hp
      rw [and_iff_right hquiet]
      exact ⟨fun h => (Except.ok.inj h).symm, fun h => congrArg Except.ok h.symm⟩

/-- Its thread was told to stop and joined. -/
theorem Component.stopped_terminated (c : Component) : c.Stopped c.deactivated.terminated := by
  cases c with
  | peripheral s => trivial
  | part p => exact fun _ => ⟨_, rfl, by simp, rfl⟩

/-- `terminate` as its three parts. -/
theorem Actor.terminate_eq_ok_iff {a a' : Actor} :
    a.terminate = .ok a' ↔ ∃ l l', List.Forall₂ (fun c c' => c.deactivate = .ok c') a.components l ∧
      List.Forall₂ (fun c c' => c.terminate a.deplc = .ok c') l l' ∧
      { a with components := l' }.terminateDeplc.terminateDisco = .ok a' := by
  unfold Actor.terminate
  constructor
  · intro h
    cases hl : a.components.mapM Component.deactivate with
    | error e =>
      rw [hl] at h
      cases h
    | ok l =>
      rw [hl] at h
      change (l.mapM (Component.terminate a.deplc) >>= fun l' => _) = _ at h
      cases hl' : l.mapM (Component.terminate a.deplc) with
      | error e =>
        rw [hl'] at h
        cases h
      | ok l' =>
        rw [hl'] at h
        exact ⟨l, l', mapM_eq_ok_iff.mp hl, mapM_eq_ok_iff.mp hl', h⟩
  · rintro ⟨l, l', hl, hl', h⟩
    rw [mapM_eq_ok_iff.mpr hl]
    change (l.mapM (Component.terminate a.deplc) >>= fun l' => _) = _
    rw [mapM_eq_ok_iff.mpr hl']
    exact h

theorem Actor.terminateDisco_isOk {a : Actor} :
    (∃ a', a.terminateDisco = .ok a') ↔ a.disco ≠ .created ∧ (a.disco = .started → a.answers) := by
  obtain ⟨components, disco, deplc, answers, discoTerminated, deplcTerminated⟩ := a
  cases disco with
  | none => simp [Actor.terminateDisco, pure, Except.pure]
  | created => simp [Actor.terminateDisco, throw, throwThe, MonadExceptOf.throw]
  | started => cases answers <;> simp [Actor.terminateDisco, pure, Except.pure, throw, throwThe, MonadExceptOf.throw]

/-- What it leaves. -/
theorem Actor.terminateDisco_eq {a a' : Actor} (h : a.terminateDisco = .ok a') :
    a' = { a with discoTerminated := a.discoTerminated || a.disco = .started } := by
  obtain ⟨components, disco, deplc, answers, discoTerminated, deplcTerminated⟩ := a
  cases disco with
  | none =>
    obtain rfl := Except.ok.inj h
    simp
  | created => cases h
  | started =>
    cases answers with
    | false => cases h
    | true =>
      obtain rfl := Except.ok.inj h
      simp

theorem terminates_iff_of_sound {a : Actor} (h : Sound a) : a.Terminates ↔ a.Terminable := by
  have hdeplc : ∀ c ∈ a.components, c.state = .active → a.deplc = .started :=
    fun c hc hstate => h.deplc c hc (by simp [hstate])
  constructor
  · rintro ⟨a', hterminate, -⟩
    obtain ⟨l, l', hl, hl', hdisco⟩ := Actor.terminate_eq_ok_iff.mp hterminate
    refine ⟨fun c hc => ?_, Actor.terminateDisco_isOk (a := { a with components := l' }.terminateDeplc).mp ⟨a', hdisco⟩⟩
    obtain ⟨n, hn, rfl⟩ := List.mem_iff_getElem.mp hc
    have hn' : n < l.length := hl.length_eq ▸ hn
    have hactive := Component.deactivate_ok (hl.get hn hn')
    have hdeactivated : l.get ⟨n, hn'⟩ = (a.components[n]).deactivated :=
      Except.ok.inj ((hl.get hn hn').symm.trans (Component.deactivate_of_active hactive))
    have hterminated := hl'.get hn' (hl'.length_eq ▸ hn')
    rw [hdeactivated, Component.terminate_of_active (h.component _ hc) hactive (hdeplc _ hc hactive)] at hterminated
    exact ⟨hactive, hterminated.1⟩
  · rintro ⟨hcomponent, hdisco⟩
    obtain ⟨a', ha'⟩ := Actor.terminateDisco_isOk
      (a := { a with components := a.components.map fun c : Component => c.deactivated.terminated }.terminateDeplc).mpr
      hdisco
    have hterminate : a.terminate = .ok a' := by
      refine Actor.terminate_eq_ok_iff.mpr
        ⟨a.components.map Component.deactivated, a.components.map fun c => c.deactivated.terminated, ?_, ?_, ha'⟩
      · exact List.forall₂_map_right_iff.mpr (List.forall₂_same.mpr fun c hc =>
          Component.deactivate_of_active (hcomponent c hc).1)
      · refine List.forall₂_map_left_iff.mpr (List.forall₂_map_right_iff.mpr (List.forall₂_same.mpr fun c hc => ?_))
        obtain ⟨hactive, hquiet⟩ := hcomponent c hc
        exact (Component.terminate_of_active (h.component c hc) hactive (hdeplc c hc hactive)).mpr ⟨hquiet, rfl⟩
    obtain rfl := Actor.terminateDisco_eq ha'
    refine ⟨_, hterminate, ?_, fun hne => decide_eq_true hne, fun hne => ?_⟩
    · exact List.forall₂_map_right_iff.mpr (List.forall₂_same.mpr fun c _ => c.stopped_terminated)
    · cases hd : a.disco with
      | none => exact absurd hd hne
      | created => exact absurd hd hdisco.1
      | started => simp [Actor.terminateDeplc]

theorem sound_run (components : List (Option (List (PortKind × Bool)))) (actions : List Action) :
    Sound (run step (init components) actions) :=
  inv_run (I := Sound) (fun _ action h => sound_step h action) (sound_init components) actions

/-- **From where an actor is terminated**: from where all its components are active, if the threads that are waited for
come to their ends, no inner thread raises an exception, and the discovery client has its socket and gets its answer. -/
theorem terminates_iff (components : List (Option (List (PortKind × Bool)))) (actions : List Action) :
    (run step (init components) actions).Terminates ↔ (run step (init components) actions).Terminable :=
  terminates_iff_of_sound (sound_run components actions)

/-- An actor with a part, without ports, that is set up, -/
def setUp : List Action :=
  [.newDisco, .startDisco, .newDeplc, .startDeplc, .component 0 .control, .component 0 .newThread,
    .component 0 .startThread, .component 0 .ready]

/-- and activated. -/
def activated : List Action := setUp ++ [.component 0 .sendActivate, .component 0 .active]

example : (run step (init [some []]) activated).Terminates :=
  (terminates_iff_of_sound (sound_run _ _)).mpr (by decide)

/-- It is not terminated before it is active, and not when a handler of the part does not return. -/
theorem not_terminates :
    ¬(run step (init [some []]) setUp).Terminates ∧
      ¬(run step (init [some []]) (activated ++ [.thread 0 false])).Terminates := by
  rw [terminates_iff_of_sound (sound_run [some []] setUp), terminates_iff_of_sound (sound_run [some []] _)]
  decide

end Lifecycle

end Riaps.Run
