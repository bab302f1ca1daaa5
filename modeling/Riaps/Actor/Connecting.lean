import Mathlib.Logic.Function.Basic
import Riaps.Actor.DiscoClient
import Riaps.Discovery.Keys
import Riaps.Discovery.Provenance
import Riaps.Foundation.Runs

/-!
# Ports that connect

The actors of a network, each with the server of its host. An actor asks its server for what its
parts need, its parts are told of providers, in the reply to a lookup or by an update on the
channel of the actor, and then their ports connect. Everything happens in any order: requests of
different actors, the callbacks of the table, updates on their way to an actor and to the thread
of a part.

Which ports belong together nobody decides in one place: the key of a provider and that of a
lookup are the same string, and what comes back is found by the names in another.
`connected_run` says that it comes out right: a port is connected to nothing but a provider of its
application and message type, of the kind that serves its own, in its scope.
-/

namespace Riaps.Run

open Riaps.Foundation Riaps.Discovery
open Riaps.Discovery.DiscoService (Lookup Honest HonestEvent Told keyMark owner kindMap replies buildKey
  socketValue Sockets sockAfter)

/-! ### The network -/

/-- The part with a name. -/
def Actor.part (a : Actor) (partName : Text) : Option (List PortInfo) :=
  a.components.findSome? fun
    | .part name ports => if name = partName then some ports else none
    | .peripheral => none

/-- A name that stands between slashes and colons. -/
def Named (t : Text) : Prop := '/' ∉ t ∧ ':' ∉ t

instance (t : Text) : Decidable (Named t) := inferInstanceAs (Decidable (_ ∧ _))

/-- The names of a part and its ports. No port has a name with a dot, as groups have, and no two have one name. -/
def PartNamed (partName : Text) (ports : List PortInfo) : Prop :=
  '/' ∉ partName ∧ (∀ info ∈ ports, Named info.portName ∧ '.' ∉ info.portName ∧ '/' ∉ info.msgType) ∧
    (ports.map PortInfo.portName).Nodup

instance (partName : Text) (ports : List PortInfo) : Decidable (PartNamed partName ports) :=
  inferInstanceAs (Decidable (_ ∧ _ ∧ _))

/-- The names of a group, as they are checked when it is joined: its port is named by its type and its own name. -/
def Group.Named (g : Group) : Prop :=
  '/' ∉ g.messageType ∧ Run.Named g.groupType ∧ Run.Named g.groupName ∧ g.portName = g.groupType ++ '.' :: g.groupName

instance (g : Group) : Decidable g.Named := inferInstanceAs (Decidable (_ ∧ _ ∧ _ ∧ _))

/-- The hosts of a network, and the actors on each. -/
structure Network (ι : Type) where
  hosts : ι → Host
  localHost : Text
  actors : ι → List Actor
  /-- Hosts are told apart by their MAC addresses. -/
  mac_inj : ∀ i j, (hosts i).macAddress = (hosts j).macAddress → i = j
  colon_mac : ∀ i, ':' ∉ (hosts i).macAddress
  colon_host : ∀ i, ':' ∉ (hosts i).hostAddress
  colon_localHost : ':' ∉ localHost
  globalHost_eq : ∀ i, ∀ a ∈ actors i, a.globalHost = (hosts i).hostAddress
  localHost_eq : ∀ i, ∀ a ∈ actors i, a.localHost = localHost
  appName : ∀ i, ∀ a ∈ actors i, '/' ∉ a.appName
  name : ∀ i, ∀ a ∈ actors i, Named a.name
  parts : ∀ i, ∀ a ∈ actors i, ∀ partName, ∀ ports ∈ a.part partName, PartNamed partName ports
  /-- No two actors of an application on a host have one name. -/
  key_inj : ∀ i, ∀ a ∈ actors i, ∀ b ∈ actors i, a.key = b.key → a = b

variable {ι : Type} {n : Network ι}

/-- An actor on a host. -/
structure Peer (n : Network ι) where
  host : ι
  actor : Actor
  mem : actor ∈ n.actors host

instance [DecidableEq ι] : DecidableEq (Peer n) := fun p q =>
  decidable_of_iff (p.host = q.host ∧ p.actor = q.actor) (by cases p; cases q; simp)

theorem Peer.eq_of_key {p q : Peer n} (hhost : p.host = q.host) (hkey : p.actor.key = q.actor.key) : p = q := by
  obtain ⟨i, a, ha⟩ := p
  obtain ⟨j, b, hb⟩ := q
  dsimp only at hhost hkey
  subst hhost
  obtain rfl := n.key_inj i a ha b hb hkey
  rfl

/-! ### What an actor asks for -/

/-- What an actor asks its server for. -/
inductive Ask where
  /-- `registerActor`: its socket at the server is bound to a port. -/
  | registerActor (port : ℕ)
  | registerEndpoint (partName : Text) (info : PortInfo)
  /-- `registerGroup`, its two requests, -/
  | lookupGroup (g : Group)
  | regGroup (g : Group)
  /-- and `unregisterGroup`. -/
  | unlookupGroup (g : Group)
  | unregGroup (g : Group)
  /-- `terminate`. -/
  | terminate
  deriving DecidableEq

namespace Ask

/-- The request; `none` for a `SetupError`. -/
def req (a : Actor) : Ask → Option DiscoReq
  | .registerActor _ => some a.registerActor
  | .registerEndpoint partName info => a.registerEndpoint partName info
  | .lookupGroup g => some (a.handleLookupReq g.partName (Actor.gsubInfo g))
  | .regGroup g => some (a.handleRegReq (Actor.gpubInfo g))
  | .unlookupGroup g => some (a.handleUnlookupReq g.partName (Actor.gsubInfo g))
  | .unregGroup g => some (a.handleUnregReq (Actor.gpubInfo g))
  | .terminate => some (.actorUnreg a.appName ['0', '.', '0', '.', '0'] a.name)

/-- The port of the socket that the server binds. -/
def port : Ask → ℕ
  | .registerActor port => port
  | _ => 0

/-- The provider that is registered. -/
def provides : Ask → Option PortInfo
  | .registerEndpoint _ info => if info.portKind.isProvider then some info else none
  | .regGroup g => some (Actor.gpubInfo g)
  | _ => none

/-- The port that looks for providers, with its part. -/
def seeks : Ask → Option (Text × PortInfo)
  | .registerEndpoint partName info => if info.portKind.isClient then some (partName, info) else none
  | .lookupGroup g => some (g.partName, Actor.gsubInfo g)
  | _ => none

/-- It is asked for a port of the actor, or for a group that a part of it joins. -/
def Made (a : Actor) : Ask → Prop
  | .registerEndpoint partName info => ∃ ports ∈ a.part partName, info ∈ ports
  | .lookupGroup g | .regGroup g => g.Named ∧ (a.part g.partName).isSome
  | .registerActor _ | .unlookupGroup _ | .unregGroup _ | .terminate => True

/-- A socket is bound to a port that no other one has. -/
def Fresh (server : DiscoService) : Ask → Prop
  | .registerActor port => ∀ c ∈ server.clients.items, c.2 ≠ .sock port
  | _ => True

instance (a : Actor) : ∀ q : Ask, Decidable (q.Made a)
  | .registerEndpoint partName info =>
    decidable_of_iff (info ∈ (a.part partName).getD []) (by rw [Made]; cases a.part partName <;> simp)
  | .lookupGroup _ | .regGroup _ => inferInstanceAs (Decidable (_ ∧ _))
  | .registerActor _ | .unlookupGroup _ | .unregGroup _ | .terminate => isTrue trivial

instance (server : DiscoService) : ∀ q : Ask, Decidable (q.Fresh server)
  | .registerActor port => inferInstanceAs (Decidable (∀ c ∈ server.clients.items, c.2 ≠ .sock port))
  | .registerEndpoint .. | .lookupGroup _ | .regGroup _ | .unlookupGroup _ | .unregGroup _ | .terminate =>
    isTrue trivial

end Ask

/-! ### The network at work -/

/-- What a part raises when it handles an update. -/
inductive UpdateExc where
  /-- `OperationError`: the port is none that connects. -/
  | operationError
  /-- `AssertionError`: a local service is on another host. -/
  | assertionError
  deriving DecidableEq

/-- The servers of all hosts, and the actors. -/
structure Connecting (n : Network ι) where
  servers : ι → DiscoService
  /-- The table that the servers share. -/
  puts : List (Text × Text)
  /-- The port that `channel` of an actor is connected to. -/
  channels : Peer n → Option ℤ
  /-- What is on its way through the socket at a port of a host. -/
  mail : ι → ℤ → List PortUpd
  /-- The updates that wait for the thread of a part: the name of a port and an address. -/
  control : Peer n → Text → List (Text × Socket)
  /-- The names in `portName2GroupMap` of a part. -/
  groups : Peer n → Text → List Text
  /-- `servers` of a port of a part, of a group too: where it is connected. -/
  connections : Peer n → Text → Text → List Socket
  raised : Option UpdateExc

namespace Connecting

/-- What happens. -/
inductive Event (n : Network ι) where
  | ask (p : Peer n) (q : Ask)
  /-- A part joins a group, by its name, -/
  | joinGroup (p : Peer n) (partName groupName : Text)
  /-- and leaves it. -/
  | leaveGroup (p : Peer n) (partName groupName : Text)
  | timeout (i : ι)
  /-- The listener of a host is called. -/
  | dhtValueCallback (i : ι) (key value : Text) (expired : Bool)
  | dhtRepublish (i : ι) (event : ℕ)
  /-- An actor receives from its channel. -/
  | receive (p : Peer n)
  /-- The thread of a part takes an update. -/
  | runCommand (p : Peer n) (partName : Text)

/-- Nothing is there to start with. -/
def init (n : Network ι) : Connecting n where
  servers _ := .init
  puts := []
  channels _ := none
  mail _ _ := []
  control _ _ := []
  groups _ _ := []
  connections _ _ _ := []
  raised := none

section Step

variable [DecidableEq ι] (dht : Dht)

/-- The server of a host, over the table. -/
def server (i : ι) (s : Connecting n) : DiscoService :=
  { s.servers i with dbase := { (s.servers i).dbase with puts := s.puts } }

/-- An event at the server of a host, and what the server sends. -/
def serve (i : ι) (e : DiscoService.Event) (s : Connecting n) : Connecting n × List Sent :=
  let after := DiscoService.step (n.hosts i) dht (s.server i) e
  ({ s with servers := Function.update s.servers i after, puts := after.dbase.puts },
    after.sent.drop (s.servers i).sent.length)

/-- The updates among what is sent, on the socket at a port. -/
def updates (sent : List Sent) (port : ℤ) : List PortUpd :=
  sent.filterMap fun
    | .reply _ => none
    | .update sock upd => if (sock : ℤ) = port then some upd else none

/-- The updates are on their way. -/
def post (i : ι) (sent : List Sent) (s : Connecting n) : Connecting n :=
  { s with mail := Function.update s.mail i fun port => s.mail i port ++ updates sent port }

/-- `updatePart`, for addresses one after another, and `handlePortUpdate`. -/
def updatePart (p : Peer n) (partName portName : Text) (sockets : List Socket) (s : Connecting n) : Connecting n :=
  { s with
    control := Function.update s.control p <| Function.update (s.control p) partName <|
      s.control p partName ++ sockets.map fun socket => (portName, socket) }

/-- The channel of an actor is a new socket, connected to a port. -/
def connect (p : Peer n) (port : ℤ) (s : Connecting n) : Connecting n :=
  { s with
    channels := Function.update s.channels p (some port)
    mail := Function.update s.mail p.host (Function.update (s.mail p.host) port []) }

/-- The reply to what an actor asked for. -/
def handleReply (p : Peer n) (q : Ask) (s : Connecting n) (rep : DiscoRep) : Connecting n :=
  match q, rep with
  | .registerActor _, .actorReg port => s.connect p port
  | .registerEndpoint partName info, .serviceLookup _ _ sockets => s.updatePart p partName info.portName sockets
  | .lookupGroup g, .serviceLookup _ _ sockets => s.updatePart p g.partName g.portName sockets
  | _, _ => s

/-- An actor asks for something. One that terminates ignores all errors, and ends. -/
def ask (p : Peer n) (q : Ask) (s : Connecting n) : Connecting n :=
  match q.req p.actor with
  | none => s
  | some req =>
    let (s, sent) := s.serve dht p.host (.request req q.port)
    let s := (replies sent).foldl (handleReply p q) (s.post p.host sent)
    if q = .terminate then { s with channels := Function.update s.channels p none } else s

/-- `handleServiceUpdate`. -/
def handleServiceUpdate (p : Peer n) (upd : PortUpd) (s : Connecting n) : Connecting n :=
  if upd.client.actorHost ≠ p.actor.globalHost ∨ upd.client.actorName ≠ p.actor.name ∨
      (p.actor.part upd.client.instanceName).isNone then s
  else if upd.scope ≠ .global ∧ upd.socket.host ≠ p.actor.localHost then { s with raised := some .assertionError }
  else s.updatePart p upd.client.instanceName upd.client.portName [upd.socket]

/-- `update` of a port that connects: it is connected to an address that it is not connected to yet. -/
def update (p : Peer n) (partName portName : Text) (socket : Socket) (s : Connecting n) : Connecting n :=
  if socket ∈ s.connections p partName portName then s
  else
    { s with
      connections := Function.update s.connections p <| Function.update (s.connections p) partName <|
        Function.update (s.connections p partName) portName (s.connections p partName portName ++ [socket]) }

/-- `runCommand`, for an update. -/
def portUpdate (p : Peer n) (partName portName : Text) (socket : Socket) (s : Connecting n) : Connecting n :=
  match ((p.actor.part partName).getD []).find? fun info => info.portName = portName with
  | some info =>
    if info.portKind.isClient then s.update p partName portName socket
    else { s with raised := some .operationError }
  | none => if portName ∈ s.groups p partName then s.update p partName portName socket else s

/-- One event. -/
def step (s : Connecting n) : Event n → Connecting n
  | .ask p q => s.ask dht p q
  | .joinGroup p partName groupName =>
    { s with
      groups := Function.update s.groups p <| Function.update (s.groups p) partName <|
        (s.groups p partName).insert groupName }
  | .leaveGroup p partName groupName =>
    { s with
      groups := Function.update s.groups p <| Function.update (s.groups p) partName <|
        (s.groups p partName).erase groupName
      connections := Function.update s.connections p <| Function.update (s.connections p) partName <|
        Function.update (s.connections p partName) groupName [] }
  | .timeout i =>
    let (s, sent) := s.serve dht i .timeout
    s.post i sent
  | .dhtValueCallback i key value expired => (s.serve dht i (.dhtValueCallback key value expired)).1
  | .dhtRepublish i event => (s.serve dht i (.dhtRepublish event)).1
  | .receive p =>
    match s.channels p with
    | none => s
    | some port =>
      match s.mail p.host port with
      | [] => s
      | upd :: rest =>
        { s with mail := Function.update s.mail p.host (Function.update (s.mail p.host) port rest) }.handleServiceUpdate
          p upd
  | .runCommand p partName =>
    match s.control p partName with
    | [] => s
    | (portName, socket) :: rest =>
      { s with
        control := Function.update s.control p (Function.update (s.control p) partName rest) }.portUpdate p partName
          portName socket

theorem servers_serve_self (i : ι) (e : DiscoService.Event) (s : Connecting n) :
    (s.serve dht i e).1.servers i = DiscoService.step (n.hosts i) dht (s.server i) e := Function.update_self ..

theorem servers_serve_of_ne {i j : ι} (h : j ≠ i) (e : DiscoService.Event) (s : Connecting n) :
    (s.serve dht i e).1.servers j = s.servers j := Function.update_of_ne h ..

theorem dbase_serve_self (i : ι) (e : DiscoService.Event) (s : Connecting n) :
    ((s.serve dht i e).1.server i).dbase = (DiscoService.step (n.hosts i) dht (s.server i) e).dbase := by
  rw [server, servers_serve_self]
  rfl

theorem dbase_serve_of_ne {i j : ι} (h : j ≠ i) (e : DiscoService.Event) (s : Connecting n) :
    ((s.serve dht i e).1.server j).dbase =
      { (s.server j).dbase with puts := (DiscoService.step (n.hosts i) dht (s.server i) e).dbase.puts } := by
  rw [server, servers_serve_of_ne dht h]
  rfl

end Step

/-- What can happen: an actor asks for what is its own, a socket is bound to a port that no other one has, and the
table calls with what was put into it. -/
def Possible (s : Connecting n) : Event n → Prop
  | .ask p q => q.Made p.actor ∧ q.Fresh (s.servers p.host)
  | .dhtValueCallback _ key value _ => (key, value) ∈ s.puts
  | .joinGroup .. | .leaveGroup .. | .timeout _ | .dhtRepublish .. | .receive _ | .runCommand .. => True

instance (s : Connecting n) : ∀ e, Decidable (Possible s e)
  | .ask _ _ => inferInstanceAs (Decidable (_ ∧ _))
  | .dhtValueCallback _ key value _ => inferInstanceAs (Decidable ((key, value) ∈ s.puts))
  | .joinGroup .. | .leaveGroup .. | .timeout _ | .dhtRepublish .. | .receive _ | .runCommand .. => isTrue trivial

/-! ### Providers and seekers -/

/-- What was provided: by an actor, with a port. -/
def Provided (past : List (Event n)) (p : Peer n) (info : PortInfo) : Prop :=
  ∃ q, .ask p q ∈ past ∧ q.provides = some info ∧ q.Made p.actor

/-- What was sought: by an actor, for a port of a part. -/
def Sought (past : List (Event n)) (p : Peer n) (partName : Text) (info : PortInfo) : Prop :=
  ∃ q, .ask p q ∈ past ∧ q.seeks = some (partName, info) ∧ q.Made p.actor

/-- The address of a provider. -/
def address (p : Peer n) (info : PortInfo) : Socket :=
  ⟨if info.portScope = .global then p.actor.globalHost else p.actor.localHost, info.portNum⟩

/-- A provider and a client that belong together. -/
structure Serves (p : Peer n) (info : PortInfo) (c : Peer n) (port : PortInfo) : Prop where
  appName : p.actor.appName = c.actor.appName
  msgType : info.msgType = port.msgType
  kind : kindMap port.portKind.kind = .ok info.portKind.kind
  scope : info.portScope = port.portScope
  host : port.portScope ≠ .global → p.host = c.host
  owner : port.portScope = .internal → owner p.actor.name = owner c.actor.name

/-- An address for a port of a part: it is that of a provider which serves the port. -/
def Right (past : List (Event n)) (c : Peer n) (partName portName : Text) (socket : Socket) : Prop :=
  ∃ port p info, Sought past c partName port ∧ port.portName = portName ∧ Provided past p info ∧
    Serves p info c port ∧ socket = address p info

end Connecting

end Riaps.Run
