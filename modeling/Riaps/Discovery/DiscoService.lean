import Riaps.Discovery.DhtDbase

/-!
# The discovery server

The discovery server of a host. The actors of the host register with it, their
ports register services and look services up, and it tells a client that looked
a service up of every provider that comes later, on the socket that it has for
the client's actor.

One pass of its loop handles a request, or the updates that the database has
collected when no request comes for a second, and sends what updates there are.
The listeners of the database and its republisher work beside the loop. An
exception leaves the loop and ends the server.
-/

namespace Riaps.Discovery

open Riaps.Foundation

/-! ### Messages -/

/-- The kind of a port. -/
inductive Kind where
  | none | pub | sub | clt | srv | req | rep | qry | ans | gpub | gsub
  deriving DecidableEq

/-- The scope of a service. -/
inductive Scope where
  | none | global | local | internal
  deriving DecidableEq

/-- `str(kind)`. -/
def Kind.str : Kind → Text
  | .none => ['n', 'o', 'n', 'e']
  | .pub => ['p', 'u', 'b']
  | .sub => ['s', 'u', 'b']
  | .clt => ['c', 'l', 't']
  | .srv => ['s', 'r', 'v']
  | .req => ['r', 'e', 'q']
  | .rep => ['r', 'e', 'p']
  | .qry => ['q', 'r', 'y']
  | .ans => ['a', 'n', 's']
  | .gpub => ['g', 'p', 'u', 'b']
  | .gsub => ['g', 's', 'u', 'b']

/-- What a service is registered, or looked up, under. -/
structure Path where
  appName : Text
  actorName : Text
  msgType : Text
  kind : Kind
  scope : Scope
  deriving DecidableEq

/-- The port that looks a service up. -/
structure Client where
  actorHost : Text
  actorName : Text
  instanceName : Text
  portName : Text
  deriving DecidableEq

/-- Where a service is. -/
structure Socket where
  host : Text
  port : Int32
  deriving DecidableEq

/-- A request. -/
inductive DiscoReq where
  | actorReg (appName version actorName : Text) (isDevice : Bool)
  | actorUnreg (appName version actorName : Text)
  | serviceReg (path : Path) (socket : Socket)
  | serviceLookup (path : Path) (client : Client)
  | serviceUnreg (path : Path) (socket : Socket)
  | serviceUnlookup (path : Path) (client : Client)
  deriving DecidableEq

/-- A reply: its status is always `ok`. -/
inductive DiscoRep where
  | actorReg (port : ℤ)
  | actorUnreg (port : ℤ)
  | serviceReg
  /-- With the key and the client that were looked up, which the message does not carry. -/
  | serviceLookup (key client : Text) (sockets : List Socket)
  | serviceUnreg
  | serviceUnlookup
  deriving DecidableEq

/-- `PortUpd`. -/
structure PortUpd where
  client : Client
  scope : Scope
  socket : Socket
  deriving DecidableEq

/-- What the server sends. -/
inductive Sent where
  /-- A reply, to the sender of the request. -/
  | reply (rep : DiscoRep)
  /-- An update, on the socket of an actor, which is bound to a port. -/
  | update (sock : ℕ) (upd : PortUpd)
  deriving DecidableEq

/-- A number as the `Int32` of a message, in which it has to fit. -/
def int32 (n : ℤ) : Except Exc Int32 :=
  if Int32.minValue.toInt ≤ n ∧ n ≤ Int32.maxValue.toInt then .ok (.ofInt n) else .error .kjException

/-- `int(text)`, for an `Int32` of a message. -/
def readPort (text : Text) : Except Exc Int32 :=
  match readInt text with
  | some n => int32 n
  | none => .error .valueError

/-! ### The server -/

/-- What a server knows of its host: addresses without a slash. -/
structure Host where
  hostAddress : Text
  macAddress : Text
  slash_hostAddress : '/' ∉ hostAddress
  slash_macAddress : '/' ∉ macAddress
  hostAddress_ne : hostAddress ≠ []
  macAddress_ne : macAddress ≠ []

/-- What `clients` has: sockets, ports and an empty list. -/
inductive Entry where
  /-- A socket, bound to a port. -/
  | sock (port : ℕ)
  /-- A port. -/
  | port (port : ℕ)
  /-- `[]`. -/
  | list
  deriving DecidableEq

/-- The state of a `DiscoService`. -/
structure DiscoService where
  dbase : DhtDbase
  /-- `registrations`: of an actor, its keys and values. -/
  registrations : Dict Text (List (Text × Text))
  clients : Dict Text Entry
  /-- `enrollments`: of an actor, its keys and client strings. -/
  enrollments : Dict Text (List (Text × Text))
  devices : List Text
  clientUpdates : List (Text × Text × List Text)
  /-- What was sent, in order. -/
  sent : List Sent
  /-- The exception that ended the loop. -/
  exc : Option Exc
  deriving DecidableEq

namespace DiscoService

/-- The server once it is started. -/
def init : DiscoService where
  dbase := .init
  registrations := .empty
  clients := .empty
  enrollments := .empty
  devices := []
  clientUpdates := []
  sent := []
  exc := none

/-- An exception. -/
def fail (e : Exc) (s : DiscoService) : DiscoService := { s with exc := some e }

/-- A message goes out. -/
def send (m : Sent) (s : DiscoService) : DiscoService := { s with sent := s.sent ++ [m] }

/-- `appActorName`. -/
def appActorName (appName actorName : Text) : Text := appName ++ '/' :: actorName

/-- `clientKeyBase`. -/
def clientKeyBase (appName actorName : Text) : Text := '/' :: appName ++ '/' :: actorName ++ ['/']

/-- `isDeviceName`. -/
def isDeviceName (appName actorName : Text) (s : DiscoService) : Bool := clientKeyBase appName actorName ∈ s.devices

/-- The actor that a device, `actor.device`, belongs to: `actorName,_rest = actorName.split('.')`. -/
def ownerName (appName actorName : Text) (s : DiscoService) : Except Exc Text :=
  if s.isDeviceName appName actorName then
    match actorName.splitOn '.' with
    | [actorName, _rest] => .ok actorName
    | _ => .error .valueError
  else .ok actorName

/-- The kind of the provider for the kind of a client: `kindMap`. -/
def kindMap : Kind → Except Exc Kind
  | .sub => .ok .pub
  | .clt => .ok .srv
  | .req => .ok .rep
  | .rep => .ok .req
  | .qry => .ok .ans
  | .gsub => .ok .gpub
  | _ => .error .keyError

section Host

variable (host : Host)

/-- A key, for the kind of the provider and the actor of either side. -/
def buildKey (appName actorName msgType : Text) (kind : Kind) (scope : Scope) (s : DiscoService) : Except Exc Text :=
  let key := '/' :: appName ++ '/' :: msgType ++ '/' :: kind.str
  match scope with
  | .none | .global => .ok key
  | .local => .ok (key ++ ':' :: host.macAddress)
  | .internal =>
    match s.ownerName appName actorName with
    | .ok actorName => .ok (key ++ ':' :: host.macAddress ++ ':' :: actorName)
    | .error e => .error e

/-- The value of a service. -/
def socketValue (socket : Socket) : Text := socket.host ++ ':' :: strInt socket.port.toInt

/-- `buildInsertKeyValuePair`. -/
def buildInsertKeyValuePair (path : Path) (socket : Socket) (s : DiscoService) : Except Exc (Text × Text) :=
  match s.buildKey host path.appName path.actorName path.msgType path.kind path.scope with
  | .ok key => .ok (key, socketValue socket)
  | .error e => .error e

/-- What a client string has after the name of the port. -/
def scopeMark (scope : Scope) (client : Client) : Text :=
  match scope with
  | .none | .global => []
  | .local => ':' :: host.macAddress
  | .internal => ':' :: host.macAddress ++ ':' :: client.actorName

/-- The string that identifies the client of a lookup. -/
def clientString (appName : Text) (scope : Scope) (client : Client) : Text :=
  '/' :: appName ++ '/' :: client.actorName ++ '/' :: client.actorHost ++ '/' :: client.instanceName ++
    '/' :: client.portName ++ scopeMark host scope client

/-- `buildLookupKey`. -/
def buildLookupKey (path : Path) (client : Client) (s : DiscoService) : Except Exc (Text × Text) :=
  match kindMap path.kind with
  | .error e => .error e
  | .ok kind =>
    match s.buildKey host path.appName client.actorName path.msgType kind path.scope with
    | .error e => .error e
    | .ok key => .ok (key, clientString host path.appName path.scope client)

/-! ### Requests -/

/-- `setupClient`: the actor's socket is bound to `port`. -/
def setupClient (appName actorName : Text) (isDevice : Bool) (port : ℕ) (s : DiscoService) : DiscoService :=
  let clientKeyBase := clientKeyBase appName actorName
  let actorKey := appActorName appName actorName
  { s with
    clients := (((s.clients.set clientKeyBase (.sock port)).set (clientKeyBase ++ host.macAddress) (.port port)).set
      (clientKeyBase ++ host.hostAddress) (.port port)).set actorKey .list
    devices := if isDevice then s.devices.insert clientKeyBase else s.devices
    registrations := s.registrations.set actorKey []
    enrollments := s.enrollments.set actorKey [] }

variable (dht : Dht)

/-- The pairs are removed from the database. -/
def removeAll (pairs : List (Text × Text)) (d : DhtDbase) : DhtDbase :=
  pairs.foldl (fun d p => (d.remove dht p.1 p.2).1) d

/-- The clients are detached from their keys. -/
def detachAll (pairs : List (Text × Text)) (d : DhtDbase) : DhtDbase :=
  pairs.foldl (fun d p => d.detach p.1 p.2) d

/-- `unsetupClient`, and the port that it returns. -/
def unsetupClient (appName actorName : Text) (s : DiscoService) : DiscoService × ℤ :=
  let clientKeyBase := clientKeyBase appName actorName
  let actorKey := appActorName appName actorName
  match s.clients.get? clientKeyBase, s.clients.get? (clientKeyBase ++ host.macAddress),
    s.clients.get? (clientKeyBase ++ host.hostAddress) with
  | none, _, _ => (s, -1)
  | some _, none, _ | some _, some _, none => (s.fail .assertionError, -1)
  | some (.sock _), some (.port port), some _ =>
    let s :=
      { s with
        clients := s.clients.delAll
          [clientKeyBase, clientKeyBase ++ host.macAddress, clientKeyBase ++ host.hostAddress]
        devices := s.devices.filter (· ≠ clientKeyBase)
        dbase := detachAll ((s.enrollments.get? actorKey).getD [])
          (removeAll dht ((s.registrations.get? actorKey).getD []) s.dbase) }
    if actorKey ∈ s.registrations then
      let s := { s with registrations := s.registrations.del actorKey }
      if actorKey ∈ s.enrollments then ({ s with enrollments := s.enrollments.del actorKey }, port)
      else (s.fail .keyError, -1)
    else (s.fail .keyError, -1)
  -- an entry of the wrong kind: the name of an actor has a slash
  | some _, some _, some _ => (s.fail .attributeError, -1)

/-- `handleActorReg`. -/
def handleActorReg (appName actorName : Text) (isDevice : Bool) (port : ℕ) (s : DiscoService) : DiscoService :=
  (s.setupClient host appName actorName isDevice port).send (.reply (.actorReg port))

/-- `handleActorUnreg`. -/
def handleActorUnreg (appName actorName : Text) (s : DiscoService) : DiscoService :=
  let (s, port) := s.unsetupClient host dht appName actorName
  if s.exc = none then s.send (.reply (.actorUnreg port)) else s

/-- `handleServiceReg`. -/
def handleServiceReg (path : Path) (socket : Socket) (s : DiscoService) : DiscoService :=
  let regKey := appActorName path.appName path.actorName
  match s.buildInsertKeyValuePair host path socket with
  | .error e => s.fail e
  | .ok (key, value) =>
    let (dbase, clients) := s.dbase.insert dht key value
    let s := { s with dbase := dbase }
    match s.registrations.get? regKey with
    | none => s.fail .keyError
    | some registered =>
      let s := { s with registrations := s.registrations.set regKey (registered.insert (key, value)) }
      let s := s.send (.reply .serviceReg)
      if clients = [] then s else { s with clientUpdates := s.clientUpdates ++ [(key, value, clients)] }

/-- What a reply or an update has for a value: `pair[0]` and `int(pair[1])`. -/
def readSocket (value : Text) : Except Exc Socket :=
  match value.splitOn ':' with
  | host :: port :: _ =>
    match readPort port with
    | .ok port => .ok ⟨host, port⟩
    | .error e => .error e
  | _ => .error .indexError

/-- `handleServiceLookup`. -/
def handleServiceLookup (path : Path) (client : Client) (s : DiscoService) : DiscoService :=
  let regKey := appActorName path.appName client.actorName
  match s.buildLookupKey host path client with
  | .error e => s.fail e
  | .ok (key, client) =>
    let (dbase, result) := s.dbase.fetch dht key client
    let s := { s with dbase := dbase }
    match result with
    | .error e => s.fail e
    | .ok values =>
      match s.enrollments.get? regKey with
      | none => s.fail .keyError
      | some enrolled =>
        let s := { s with enrollments := s.enrollments.set regKey (enrolled.insert (key, client)) }
        match values.mapM readSocket with
        | .error e => s.fail e
        | .ok sockets => s.send (.reply (.serviceLookup key client sockets))

/-- `handleServiceUnreg`. -/
def handleServiceUnreg (path : Path) (socket : Socket) (s : DiscoService) : DiscoService :=
  let regKey := appActorName path.appName path.actorName
  match s.buildInsertKeyValuePair host path socket with
  | .error e => s.fail e
  | .ok (key, value) =>
    let s := { s with dbase := (s.dbase.remove dht key value).1 }
    match s.registrations.get? regKey with
    | none => s.fail .keyError
    | some registered =>
      let s := { s with registrations := s.registrations.set regKey (registered.filter (· ≠ (key, value))) }
      s.send (.reply .serviceUnreg)

/-- `handleServiceUnlookup`. -/
def handleServiceUnlookup (path : Path) (client : Client) (s : DiscoService) : DiscoService :=
  let regKey := appActorName path.appName client.actorName
  match s.buildLookupKey host path client with
  | .error e => s.fail e
  | .ok (key, client) =>
    let s := { s with dbase := s.dbase.detach key client }
    match s.enrollments.get? regKey with
    | none => s.fail .keyError
    | some enrolled =>
      let s := { s with enrollments := s.enrollments.set regKey (enrolled.filter (· ≠ (key, client))) }
      s.send (.reply .serviceUnlookup)

/-- `handle`. The socket of an actor that registers is bound to `port`. -/
def handle (req : DiscoReq) (port : ℕ) (s : DiscoService) : DiscoService :=
  match req with
  | .actorReg appName _ actorName isDevice => s.handleActorReg host appName actorName isDevice port
  | .serviceReg path socket => s.handleServiceReg host dht path socket
  | .serviceLookup path client => s.handleServiceLookup host dht path client
  | .actorUnreg appName _ actorName => s.handleActorUnreg host dht appName actorName
  | .serviceUnlookup path client => s.handleServiceUnlookup host path client
  | .serviceUnreg path socket => s.handleServiceUnreg host dht path socket

/-! ### Updates -/

/-- What `handleUpdate` reads from a client string: the actor's application, the client, and the
scope of its lookup. -/
def readClient (client : Text) : Except Exc (Text × Client × Scope) :=
  match client.splitOn '/' with
  | _skip :: appName :: actorName :: actorHost :: instanceName :: portMacAct :: _ =>
    let (portName, scope) :=
      match portMacAct.splitOn ':' with
      | [portName, _macAddr] => (portName, Scope.local)
      | [portName, _macAddr, _actName] => (portName, .internal)
      | portName :: _ => (portName, .global)
      | [] => ([], .global)
    .ok (appName, ⟨actorHost, actorName, instanceName, portName⟩, scope)
  | _ => .error .indexError

/-- What `handleUpdate` does for a client, for a host and the text of a port. A socket is what can
send. -/
def updateClient (sockHost sockPort : Text) (s : DiscoService) (client : Text) : DiscoService :=
  if s.exc = none then
    match readClient client with
    | .error e => s.fail e
    | .ok (appName, client, scope) =>
      match s.clients.get? (clientKeyBase appName client.actorName) with
      | none => s
      | some clientSocket =>
        if host.hostAddress ≠ client.actorHost then s
        else
          match readPort sockPort, clientSocket with
          | .error e, _ => s.fail e
          | .ok port, .sock sock => s.send (.update sock ⟨client, scope, ⟨sockHost, port⟩⟩)
          | .ok _, _ => s.fail .attributeError
  else s

/-- `handleUpdate`. -/
def handleUpdate (s : DiscoService) (msg : Text × Text × List Text) : DiscoService :=
  if s.exc = none then
    match msg.2.1.splitOn ':' with
    | sockHost :: sockPort :: _ => msg.2.2.foldl (updateClient host sockHost sockPort) s
    | _ => s.fail .indexError
  else s

/-! ### The loop -/

/-- What happens to the server. -/
inductive Event where
  /-- A request comes. If it is that of an actor to be registered, the socket is bound to a port. -/
  | request (req : DiscoReq) (port : ℕ)
  /-- No request comes for a second. -/
  | timeout
  /-- The listener of a key calls. -/
  | dhtValueCallback (key value : Text) (expired : Bool)
  /-- An event of the republisher. -/
  | dhtRepublish (event : ℕ)
  deriving DecidableEq

/-- One event. -/
def step (s : DiscoService) : Event → DiscoService
  | .request req port =>
    if s.exc = none then
      let s := handle host dht req port { s with clientUpdates := [] }
      s.clientUpdates.foldl (handleUpdate host) s
    else s
  | .timeout =>
    if s.exc = none then
      let (dbase, updates) := s.dbase.fetchUpdates
      updates.foldl (handleUpdate host) { s with dbase := dbase, clientUpdates := updates }
    else s
  | .dhtValueCallback key value expired =>
    if key ∈ s.dbase.listeners then { s with dbase := s.dbase.dhtValueCallback key value expired } else s
  | .dhtRepublish event => { s with dbase := s.dbase.dhtRepublish event }

end Host

end DiscoService

end Riaps.Discovery
