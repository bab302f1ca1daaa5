import Mathlib.Data.Set.Insert
import Riaps.Foundation.Dict
import Riaps.Foundation.PyText
import Riaps.Coordination.Messages

/-!
# The sockets of a component's ports

The thread of a component sets up the socket of each of its ports, and then the poller
and the maps from sockets to ports. A port that connects to others is told of their
servers one after another, and may be reset: it gets a new socket, which takes the place of
the old one in the thread, with the options and the connections that are then made again.

A socket is known by its number: `ComponentThread.sockets` has all that were ever created,
also those that were closed. An operation on a socket that is closed, or that a map does not
have, raises an exception; a call that raises one has no result here.
-/

namespace Riaps.Component.Sockets

open Riaps.Foundation Riaps.Coordination

/-! ### Sockets -/

/-- The types of sockets. -/
inductive ZmqType where
  | pub | sub | req | rep | dealer | router | pair
  deriving DecidableEq

/-- The options that are set. -/
inductive SockOpt where
  | sndtimeo | rcvtimeo | rcvhwm | sndhwm | linger | subscribe | reqRelaxed | reqCorrelate | routerMandatory | identity
  | curveSecretkey | curvePublickey | curveServer | curveServerkey
  deriving DecidableEq

/-- The value of an option. -/
inductive OptValue where
  | int (n : Int32)
  | str (t : Text)
  deriving DecidableEq

/-- A socket. -/
structure Socket where
  zmqType : ZmqType
  /-- The options that were set. -/
  options : SockOpt → Option OptValue
  /-- The endpoints that it is connected to. -/
  connections : List Text
  closed : Bool

namespace Socket

/-- `context.socket(zmqType)`. -/
def new (zmqType : ZmqType) : Socket := ⟨zmqType, fun _ => none, [], false⟩

/-- `setsockopt`, and `setsockopt_string`. -/
def setsockopt (k : SockOpt) (v : OptValue) (s : Socket) : Option Socket :=
  if s.closed then none else some { s with options := Function.update s.options k (some v) }

/-- The options of a list, one after another. -/
def setsockopts (sockopts : List (SockOpt × OptValue)) (s : Socket) : Option Socket :=
  sockopts.foldlM (fun s o => s.setsockopt o.1 o.2) s

/-- `connect`. -/
def connect (e : Text) (s : Socket) : Option Socket :=
  if s.closed then none else some { s with connections := s.connections ++ [e] }

/-- `disconnect`, which fails if there is no such connection. -/
def disconnect (e : Text) (s : Socket) : Option Socket :=
  if s.closed ∨ e ∉ s.connections then none else some { s with connections := s.connections.erase e }

/-- `close`. -/
def close (s : Socket) : Socket := { s with closed := true }

end Socket

/-- A server: its host and its port. -/
abbrev Server := Text × ℤ

/-- `"tcp://" + str(host) + ":" + str(port)`. -/
def srvPort (server : Server) : Text := ['t', 'c', 'p', ':', '/', '/'] ++ server.1 ++ ':' :: strInt server.2

/-! ### Ports -/

/-- The kinds of ports. -/
inductive Kind where
  | pub | sub | clt | srv | req | rep | qry | ans | tim | ins
  deriving DecidableEq

namespace Kind

/-- `inSocket`. -/
def inSocket : Kind → Bool
  | .pub | .clt => false
  | _ => true

/-- The kinds that are a `ConnPort`. -/
def connects : Kind → Bool
  | .sub | .clt | .req | .qry => true
  | _ => false

end Kind

/-- What a port is made from. -/
structure PortSpec where
  name : Text
  kind : Kind
  index : Option ℤ
  /-- `str(id(self))`. -/
  identity : Text

/-- `Config`, and the keys of the actor. -/
structure Settings where
  sendTimeout : Int32
  recvTimeout : Int32
  sendhwm : Int32
  recvhwm : Int32
  publicKey : Option Text
  privateKey : Option Text

/-- `Port`. -/
structure Port extends PortSpec, Settings where
  servers : List Server
  /-- Its socket, `None` until it is set up. -/
  socket : Option ℕ

namespace Port

/-- `__init__`. -/
def init (settings : Settings) (spec : PortSpec) : Port :=
  { spec, settings with servers := [], socket := none }

/-- What `set_sockoptions` sets of every socket. -/
def sockoptions (p : Port) : List (SockOpt × OptValue) :=
  [(.sndtimeo, .int p.sendTimeout), (.rcvtimeo, .int p.recvTimeout), (.rcvhwm, .int p.sendhwm),
    (.sndhwm, .int p.recvhwm)]

/-- `set_sockoptions`. -/
def setSockoptions (p : Port) (sockopts : List (SockOpt × OptValue)) (s : Socket) : Option Socket := do
  let s ← s.setsockopts p.sockoptions
  s.setsockopts sockopts

/-- What `setupCurve` sets, if there are both keys. -/
def curve (p : Port) (server : Bool) : List (SockOpt × OptValue) :=
  match p.publicKey, p.privateKey with
  | some publicKey, some privateKey =>
    [(.curveSecretkey, .str privateKey), (.curvePublickey, .str publicKey),
      if server then (.curveServer, .int 1) else (.curveServerkey, .str publicKey)]
  | _, _ => []

/-- `setupCurve`. -/
def setupCurve (p : Port) (server : Bool) (s : Socket) : Option Socket := s.setsockopts (p.curve server)

/-- `setupConnSocket`, as far as its socket. -/
def setupConnSocket (p : Port) (zmqType : ZmqType) (sockopts : List (SockOpt × OptValue)) : Option Socket := do
  let s ← p.setSockoptions sockopts (.new zmqType)
  p.setupCurve false s

/-- `setupBindSocket`, without the address. -/
def setupBindSocket (p : Port) (zmqType : ZmqType) (sockopts : List (SockOpt × OptValue)) : Option Socket := do
  let s ← p.setSockoptions sockopts (.new zmqType)
  p.setupCurve true s

/-- `setupSocket`. -/
def setupSocket (p : Port) : Option Socket :=
  match p.kind with
  | .pub => p.setupBindSocket .pub []
  | .sub => p.setupConnSocket .sub [(.subscribe, .str [])]
  | .clt => p.setupConnSocket .req []
  | .srv => p.setupBindSocket .rep []
  | .req => p.setupConnSocket .req [(.reqRelaxed, .int 1), (.reqCorrelate, .int 1)]
  | .rep => p.setupBindSocket .rep []
  | .qry => p.setupConnSocket .dealer [(.identity, .str p.identity)]
  | .ans => p.setupBindSocket .router [(.routerMandatory, .int 1)]
  | .tim => some (.new .pair)
  | .ins => some (.new .router)

end Port

/-! ### The thread -/

/-- What a `ComponentThread` has of sockets and ports. -/
structure ComponentThread where
  /-- All sockets, as they were created: the first is `control`. -/
  sockets : List Socket
  /-- The ports of its component. -/
  ports : Dict Text Port
  /-- The sockets that the poller has for input. -/
  poller : List ℕ
  sock2NameMap : Dict ℕ Text
  /-- The ports by name. -/
  sock2PortMap : Dict ℕ Text
  sock2PrioMap : Dict ℕ (Option ℤ)

/-- `buildPorts`. -/
def buildPorts (settings : Settings) (portSpecs : List PortSpec) : Dict Text Port :=
  portSpecs.foldl (fun res spec => res.set spec.name (.init settings spec)) .empty

namespace ComponentThread

/-- An operation on a socket. -/
def onSocket (i : ℕ) (f : Socket → Option Socket) (t : ComponentThread) : Option ComponentThread := do
  let s ← t.sockets[i]?
  let s ← f s
  pure { t with sockets := t.sockets.set i s }

/-- The thread after `setupControl`. -/
def init (ports : Dict Text Port) : ComponentThread where
  sockets := [.new .pair]
  ports := ports
  poller := []
  sock2NameMap := .empty
  sock2PortMap := .empty
  sock2PrioMap := .empty

/-- The socket of a port is set up. -/
def setupSocket (name : Text) (t : ComponentThread) : Option ComponentThread := do
  let p ← t.ports.get? name
  let s ← p.setupSocket
  pure { t with
    sockets := t.sockets ++ [s]
    ports := t.ports.set name { p with socket := some t.sockets.length } }

/-- `setupSockets`. -/
def setupSockets (t : ComponentThread) : Option ComponentThread :=
  t.ports.keys.foldlM (fun t name => t.setupSocket name) t

/-- `poller.register(socket, POLLIN)`. -/
def pollerRegister (socket : ℕ) (poller : List ℕ) : List ℕ :=
  if socket ∈ poller then poller else poller ++ [socket]

/-- The maps get the socket of a port. -/
def register (p : Port) (socket : ℕ) (t : ComponentThread) : ComponentThread :=
  let t := { t with sock2PortMap := t.sock2PortMap.set socket p.name }
  if p.kind.inSocket then
    { t with
      poller := pollerRegister socket t.poller
      sock2NameMap := t.sock2NameMap.set socket p.name
      sock2PrioMap := t.sock2PrioMap.set socket p.index }
  else t

/-- The poller and the maps with the control socket, whose name is empty. -/
def newPoller (t : ComponentThread) : ComponentThread := { t with
  poller := pollerRegister 0 []
  sock2NameMap := (Dict.empty : Dict ℕ Text).set 0 []
  sock2PortMap := .empty
  sock2PrioMap := .empty }

/-- The step of `setupPoller`, for a port. -/
def addPort (t : ComponentThread) (item : Text × Port) : ComponentThread :=
  match item.2.socket with
  | some socket => t.register item.2 socket
  | none => t

/-- `setupPoller`. -/
def setupPoller (t : ComponentThread) : ComponentThread := t.ports.items.foldl addPort t.newPoller

/-- The thread of a component when its sockets and the poller are set up. -/
def setup (settings : Settings) (portSpecs : List PortSpec) : Option ComponentThread := do
  let t ← (init (buildPorts settings portSpecs)).setupSockets
  pure t.setupPoller

/-- The poller and the maps lose the socket of a port. -/
def forget (p : Port) (socket : ℕ) (t : ComponentThread) : ComponentThread :=
  let t := { t with sock2PortMap := t.sock2PortMap.del socket }
  if p.kind.inSocket then
    { t with
      poller := t.poller.erase socket
      sock2NameMap := t.sock2NameMap.del socket
      sock2PrioMap := t.sock2PrioMap.del socket }
  else t

/-- The first part of `replaceSocket`. With no events, `poller.register` takes a socket out; `del` raises an exception
if the socket is not there. -/
def unregister (p : Port) (socket : ℕ) (t : ComponentThread) : Option ComponentThread :=
  if socket ∉ t.sock2PortMap then none
  else if p.kind.inSocket ∧ (socket ∉ t.sock2NameMap ∨ socket ∉ t.sock2PrioMap) then none
  else some (t.forget p socket)

/-- `replaceSocket`. -/
def replaceSocket (p : Port) (newSocket : ℕ) (t : ComponentThread) : Option ComponentThread := do
  let oldSocket ← p.socket
  let t ← t.unregister p oldSocket
  let t ← t.onSocket oldSocket fun s => some s.close
  pure (t.register p newSocket)

/-- `resetConnSocket`. -/
def resetConnSocket (p : Port) (zmqType : ZmqType) (sockopts : List (SockOpt × OptValue)) (t : ComponentThread) :
    Option ComponentThread := do
  let newSocket := t.sockets.length
  let t := { t with sockets := t.sockets ++ [Socket.new zmqType] }
  let oldSocket ← p.socket
  let t ← t.onSocket oldSocket (·.setsockopt .linger (.int 0))
  let t ← t.onSocket oldSocket fun s => p.servers.foldlM (fun s server => s.disconnect (srvPort server)) s
  let t ← t.replaceSocket p newSocket
  let t := { t with ports := t.ports.set p.name { p with socket := some newSocket } }
  let t ← t.onSocket newSocket (p.setSockoptions sockopts)
  let t ← t.onSocket newSocket (p.setupCurve false)
  t.onSocket newSocket fun s => p.servers.foldlM (fun s server => s.connect (srvPort server)) s

/-- `reset`. -/
def reset (p : Port) (t : ComponentThread) : Option ComponentThread :=
  match p.kind with
  | .sub => t.resetConnSocket p .sub [(.subscribe, .str [])]
  | .clt => t.resetConnSocket p .req []
  | .req => t.resetConnSocket p .req []
  | .qry => t.resetConnSocket p .dealer [(.identity, .str p.identity)]
  | _ => some t

/-- `update`. -/
def update (p : Port) (server : Server) (t : ComponentThread) : Option ComponentThread :=
  if ¬p.kind.connects then none
  else if server ∈ p.servers then some t
  else do
    let t := { t with ports := t.ports.set p.name { p with servers := p.servers ++ [server] } }
    let socket ← p.socket
    t.onSocket socket (·.connect (srvPort server))

/-- What `set_recv_timeout` and `set_send_timeout` make of a time in seconds: no time is -1, a negative one fails the
assertion, and one that is too large the option. -/
def timeoutOption (seconds : Option ℚ) : Option Int32 :=
  match seconds with
  | none => some (-1)
  | some x =>
    let ms := pyInt (x * 1000)
    if 0 ≤ x ∧ ms < 2 ^ 31 then some (.ofInt ms) else none

/-- `set_recv_timeout`. -/
def setRecvTimeout (p : Port) (rto : Option ℚ) (t : ComponentThread) : Option ComponentThread := do
  let recvTimeout ← timeoutOption rto
  let t := { t with ports := t.ports.set p.name { p with recvTimeout := recvTimeout } }
  let socket ← p.socket
  t.onSocket socket (·.setsockopt .rcvtimeo (.int recvTimeout))

/-- `set_send_timeout`. -/
def setSendTimeout (p : Port) (sto : Option ℚ) (t : ComponentThread) : Option ComponentThread := do
  let sendTimeout ← timeoutOption sto
  let t := { t with ports := t.ports.set p.name { p with sendTimeout := sendTimeout } }
  let socket ← p.socket
  t.onSocket socket (·.setsockopt .sndtimeo (.int sendTimeout))

end ComponentThread

/-! ### Calls -/

/-- A call of a port. -/
inductive Operation where
  | update (server : Server)
  | reset
  | setRecvTimeout (rto : Option ℚ)
  | setSendTimeout (sto : Option ℚ)
  deriving DecidableEq

/-- A call, with the name of the port. -/
abbrev Call := Text × Operation

namespace ComponentThread

/-- One call. -/
def call (t : ComponentThread) (c : Call) : Option ComponentThread := do
  let p ← t.ports.get? c.1
  match c.2 with
  | .update server => t.update p server
  | .reset => t.reset p
  | .setRecvTimeout rto => t.setRecvTimeout p rto
  | .setSendTimeout sto => t.setSendTimeout p sto

/-- A history of calls. -/
def calls (t : ComponentThread) (cs : List Call) : Option ComponentThread := cs.foldlM call t

/-! ### The poller and the maps -/

/-- The poller and the maps have the control socket and the sockets of `wiring`, each with what its port was made
from. -/
structure Registered (wiring : Set (ℕ × PortSpec)) (t : ComponentThread) : Prop where
  nodup : t.poller.Nodup
  poller : ∀ i, i ∈ t.poller ↔ i = 0 ∨ ∃ spec, (i, spec) ∈ wiring ∧ spec.kind.inSocket
  ports : ∀ i name, t.sock2PortMap.get? i = some name ↔ ∃ spec, (i, spec) ∈ wiring ∧ spec.name = name
  names : ∀ i name, t.sock2NameMap.get? i = some name ↔
    i = 0 ∧ name = [] ∨ ∃ spec, (i, spec) ∈ wiring ∧ spec.kind.inSocket ∧ spec.name = name
  prios : ∀ i index, t.sock2PrioMap.get? i = some index ↔
    ∃ spec, (i, spec) ∈ wiring ∧ spec.kind.inSocket ∧ spec.index = index

variable {t : ComponentThread} {wiring : Set (ℕ × PortSpec)} {p : Port} {i : ℕ}

/-- Nothing is said of what the sockets and the ports are. -/
theorem Registered.of_maps (h : Registered wiring t) (sockets : List Socket) (ports : Dict Text Port) :
    Registered wiring { t with sockets := sockets, ports := ports } :=
  ⟨h.nodup, h.poller, h.ports, h.names, h.prios⟩

theorem mem_pollerRegister {i j : ℕ} {poller : List ℕ} : j ∈ pollerRegister i poller ↔ j = i ∨ j ∈ poller := by
  rw [pollerRegister]
  by_cases h : i ∈ poller
  · rw [if_pos h]
    exact ⟨Or.inr, fun hj => hj.elim (fun e => e ▸ h) id⟩
  · rw [if_neg h, List.mem_append, List.mem_singleton, or_comm]

theorem nodup_pollerRegister {poller : List ℕ} (h : poller.Nodup) (i : ℕ) : (pollerRegister i poller).Nodup := by
  rw [pollerRegister]
  by_cases hi : i ∈ poller
  · rwa [if_pos hi]
  · rw [if_neg hi]
    exact h.append (List.nodup_singleton i) (by simpa using hi)

section Register

variable (p : Port) (i : ℕ) (t : ComponentThread)

@[simp] theorem sockets_register : (t.register p i).sockets = t.sockets := by
  rw [register]
  cases p.kind.inSocket <;> rfl

@[simp] theorem ports_register : (t.register p i).ports = t.ports := by
  rw [register]
  cases p.kind.inSocket <;> rfl

theorem register_sockets (sockets : List Socket) :
    ({ t with sockets := sockets } : ComponentThread).register p i = { t.register p i with sockets := sockets } := by
  rw [register, register]
  cases p.kind.inSocket <;> rfl

theorem forget_sockets (sockets : List Socket) :
    ({ t with sockets := sockets } : ComponentThread).forget p i = { t.forget p i with sockets := sockets } := by
  rw [forget, forget]
  cases p.kind.inSocket <;> rfl

theorem mem_poller_register (j : ℕ) :
    j ∈ (t.register p i).poller ↔ j = i ∧ p.kind.inSocket ∨ j ∈ t.poller := by
  rw [register]
  cases p.kind.inSocket <;> simp [mem_pollerRegister]

theorem nodup_poller_register (h : t.poller.Nodup) : (t.register p i).poller.Nodup := by
  rw [register]
  cases p.kind.inSocket
  · exact h
  · exact nodup_pollerRegister h i

theorem sock2PortMap_register (j : ℕ) :
    (t.register p i).sock2PortMap.get? j = if j = i then some p.name else t.sock2PortMap.get? j := by
  rw [← Dict.get?_set, register]
  cases p.kind.inSocket <;> rfl

theorem sock2NameMap_register (j : ℕ) : (t.register p i).sock2NameMap.get? j =
    if j = i ∧ p.kind.inSocket then some p.name else t.sock2NameMap.get? j := by
  rw [register]
  cases p.kind.inSocket <;> simp [Dict.get?_set]

theorem sock2PrioMap_register (j : ℕ) : (t.register p i).sock2PrioMap.get? j =
    if j = i ∧ p.kind.inSocket then some p.index else t.sock2PrioMap.get? j := by
  rw [register]
  cases p.kind.inSocket <;> simp [Dict.get?_set]

@[simp] theorem ports_forget : (t.forget p i).ports = t.ports := by
  rw [forget]
  cases p.kind.inSocket <;> rfl

theorem nodup_poller_forget (h : t.poller.Nodup) : (t.forget p i).poller.Nodup := by
  rw [forget]
  cases p.kind.inSocket
  · exact h
  · exact h.erase i

theorem mem_poller_forget (h : t.poller.Nodup) (j : ℕ) :
    j ∈ (t.forget p i).poller ↔ ¬(j = i ∧ p.kind.inSocket) ∧ j ∈ t.poller := by
  rw [forget]
  cases p.kind.inSocket <;> simp [h.mem_erase_iff]

theorem sock2PortMap_forget (j : ℕ) :
    (t.forget p i).sock2PortMap.get? j = if j = i then none else t.sock2PortMap.get? j := by
  rw [← Dict.get?_del, forget]
  cases p.kind.inSocket <;> rfl

theorem sock2NameMap_forget (j : ℕ) : (t.forget p i).sock2NameMap.get? j =
    if j = i ∧ p.kind.inSocket then none else t.sock2NameMap.get? j := by
  rw [forget]
  cases p.kind.inSocket <;> simp [Dict.get?_del]

theorem sock2PrioMap_forget (j : ℕ) : (t.forget p i).sock2PrioMap.get? j =
    if j = i ∧ p.kind.inSocket then none else t.sock2PrioMap.get? j := by
  rw [forget]
  cases p.kind.inSocket <;> simp [Dict.get?_del]

end Register

/-- What holds of a socket when one is added. -/
theorem exists_insert {spec : PortSpec} (hnew : ∀ spec', (i, spec') ∉ wiring) (Q : PortSpec → Prop) (j : ℕ) :
    (∃ spec', (j, spec') ∈ insert (i, spec) wiring ∧ Q spec') ↔
      j = i ∧ Q spec ∨ j ≠ i ∧ ∃ spec', (j, spec') ∈ wiring ∧ Q spec' := by
  by_cases hj : j = i
  · subst hj
    simp [hnew]
  · simp [hj]

/-- What holds of a socket when one is taken out. -/
theorem exists_diff {spec : PortSpec} (hone : ∀ spec', (i, spec') ∈ wiring → spec' = spec) (Q : PortSpec → Prop)
    (j : ℕ) : (∃ spec', (j, spec') ∈ wiring \ {(i, spec)} ∧ Q spec') ↔
      j ≠ i ∧ ∃ spec', (j, spec') ∈ wiring ∧ Q spec' := by
  by_cases hj : j = i
  · subst hj
    simp only [Set.mem_sdiff, Set.mem_singleton_iff, Prod.mk.injEq, true_and, ne_eq, not_true_eq_false, false_and,
      iff_false]
    rintro ⟨spec', ⟨hmem, hne⟩, -⟩
    exact hne (hone spec' hmem)
  · simp [hj]

/-- A socket is added. -/
theorem Registered.register (h : Registered wiring t) (hi : i ≠ 0) (hnew : ∀ spec, (i, spec) ∉ wiring) :
    Registered (insert (i, p.toPortSpec) wiring) (t.register p i) := by
  have hinsert := @exists_insert _ _ p.toPortSpec hnew
  refine ⟨nodup_poller_register p i t h.nodup, fun j => ?_, fun j name => ?_, fun j name => ?_, fun j index => ?_⟩
  · rw [mem_poller_register, hinsert, h.poller]
    by_cases hj : j = i <;> simp [hj, hi, hnew]
  · rw [sock2PortMap_register, hinsert, ← h.ports]
    by_cases hj : j = i <;> simp [hj]
  · rw [sock2NameMap_register, hinsert]
    by_cases hj : j = i
    · have hno : t.sock2NameMap.get? i ≠ some name := by simp [h.names, hi, hnew]
      cases hin : p.kind.inSocket <;> simp [hj, hi, hno]
    · simp [hj, h.names]
  · rw [sock2PrioMap_register, hinsert]
    by_cases hj : j = i
    · have hno : t.sock2PrioMap.get? i ≠ some index := by simp [h.prios, hnew]
      cases hin : p.kind.inSocket <;> simp [hj, hno]
    · simp [hj, h.prios]

/-- One is taken out. -/
theorem Registered.forget (h : Registered wiring t) (hi : i ≠ 0)
    (hone : ∀ spec, (i, spec) ∈ wiring → spec = p.toPortSpec) :
    Registered (wiring \ {(i, p.toPortSpec)}) (t.forget p i) := by
  have hdiff := @exists_diff _ _ p.toPortSpec hone
  -- what is said of the port itself is said of every port that has the socket
  have hout : p.kind.inSocket = false → ∀ spec, (i, spec) ∈ wiring → spec.kind.inSocket = false := by
    intro hin spec hspec
    rwa [hone spec hspec]
  refine ⟨nodup_poller_forget p i t h.nodup, fun j => ?_, fun j name => ?_, fun j name => ?_, fun j index => ?_⟩
  · rw [mem_poller_forget p i t h.nodup, hdiff, h.poller]
    by_cases hj : j = i
    · cases hin : p.kind.inSocket with
      | false => simp +contextual [hj, hi, hout hin]
      | true => simp [hj, hi]
    · simp [hj]
  · rw [sock2PortMap_forget, hdiff, ← h.ports]
    by_cases hj : j = i <;> simp [hj]
  · rw [sock2NameMap_forget, hdiff]
    by_cases hj : j = i
    · have hno : p.kind.inSocket = false → t.sock2NameMap.get? i ≠ some name := by
        intro hin
        simp +contextual [h.names, hi, hout hin]
      cases hin : p.kind.inSocket with
      | false => simp [hj, hi, hno hin]
      | true => simp [hj, hi]
    · simp [hj, h.names]
  · rw [sock2PrioMap_forget, hdiff]
    by_cases hj : j = i
    · have hno : p.kind.inSocket = false → t.sock2PrioMap.get? i ≠ some index := by
        intro hin
        simp +contextual [h.prios, hout hin]
      cases hin : p.kind.inSocket with
      | false => simp [hj, hno hin]
      | true => simp [hj]
    · simp [hj, h.prios]

/-- A socket that is in the maps can be taken out. -/
theorem Registered.unregister (h : Registered wiring t) (hmem : (i, p.toPortSpec) ∈ wiring) :
    t.unregister p i = some (t.forget p i) := by
  have hport : i ∈ t.sock2PortMap := Dict.mem_of_get? ((h.ports i p.name).mpr ⟨_, hmem, rfl⟩)
  have hin : ¬(p.kind.inSocket ∧ (i ∉ t.sock2NameMap ∨ i ∉ t.sock2PrioMap)) := by
    rintro ⟨hin, hname | hprio⟩
    · exact hname (Dict.mem_of_get? ((h.names i p.name).mpr (.inr ⟨_, hmem, hin, rfl⟩)))
    · exact hprio (Dict.mem_of_get? ((h.prios i p.index).mpr ⟨_, hmem, hin, rfl⟩))
  rw [ComponentThread.unregister, if_neg (not_not.mpr hport), if_neg hin]

end ComponentThread

end Riaps.Component.Sockets
