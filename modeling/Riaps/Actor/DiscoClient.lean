import Riaps.Discovery.DiscoService

/-!
# The discovery client of an actor

What an actor asks the discovery server for: it registers itself, the provider
ports of its parts, looks up the providers of their client ports, and does both
for the groups that its parts join. All this goes as requests, one after the
other, each with the names of the actor.
-/

namespace Riaps.Run

open Riaps.Foundation Riaps.Discovery
open Riaps.Discovery.DiscoService (appActorName)

/-! ### Ports -/

/-- The kind of a port: that of a part is none of a group's. -/
inductive PortKind where
  | pub | sub | clt | srv | req | rep | qry | ans | tim | ins | gpub | gsub
  deriving DecidableEq

/-- The kind in a message. Timers and inside ports are in none. -/
def PortKind.kind : PortKind → Kind
  | .pub => .pub
  | .sub => .sub
  | .clt => .clt
  | .srv => .srv
  | .req => .req
  | .rep => .rep
  | .qry => .qry
  | .ans => .ans
  | .gpub => .gpub
  | .gsub => .gsub
  | .tim | .ins => .none

/-- `PortScope`. -/
inductive PortScope where
  | global | local | internal
  deriving DecidableEq

/-- `PortScope.scope`. -/
def PortScope.scope : PortScope → Scope
  | .global => .global
  | .local => .local
  | .internal => .internal

/-- `PortInfo`. -/
structure PortInfo where
  portKind : PortKind
  portScope : PortScope
  portName : Text
  msgType : Text
  portNum : Int32
  deriving DecidableEq

/-- The providers among the ports of a part. -/
def PortKind.isProvider (kind : PortKind) : Bool := kind ∈ [PortKind.pub, .srv, .rep, .ans]

/-- The clients. -/
def PortKind.isClient (kind : PortKind) : Bool := kind ∈ [PortKind.sub, .clt, .req, .qry]

/-- A component of an actor. -/
inductive Component where
  /-- A `Part`, with its ports. -/
  | part (name : Text) (ports : List PortInfo)
  /-- A `Peripheral`: the device runs as an actor of its own. -/
  | peripheral
  deriving DecidableEq

/-- A group that a part has joined. -/
structure Group where
  groupType : Text
  groupName : Text
  messageType : Text
  pubPort : Int32
  partName : Text
  portName : Text
  deriving DecidableEq

/-- An actor. -/
structure Actor where
  appName : Text
  name : Text
  isDevice : Bool
  globalHost : Text
  localHost : Text
  components : List Component
  /-- The groups that its parts have joined. -/
  groups : List Group
  deriving DecidableEq

namespace Actor

/-! ### Requests -/

variable (a : Actor)

/-- `DiscoClient.registerActor`. -/
def registerActor : DiscoReq := .actorReg a.appName ['0', '.', '0', '.', '0'] a.name a.isDevice

/-- `handleRegReq`. -/
def handleRegReq (info : PortInfo) : DiscoReq :=
  .serviceReg ⟨a.appName, a.name, info.msgType, info.portKind.kind, info.portScope.scope⟩
    ⟨if info.portScope = .global then a.globalHost else a.localHost, info.portNum⟩

/-- `handleLookupReq`. -/
def handleLookupReq (partName : Text) (info : PortInfo) : DiscoReq :=
  .serviceLookup ⟨a.appName, a.name, info.msgType, info.portKind.kind, info.portScope.scope⟩
    ⟨a.globalHost, a.name, partName, info.portName⟩

/-- `handleUnregReq`. -/
def handleUnregReq (info : PortInfo) : DiscoReq :=
  .serviceUnreg ⟨a.appName, a.name, info.msgType, info.portKind.kind, info.portScope.scope⟩
    ⟨if info.portScope = .global then a.globalHost else a.localHost, info.portNum⟩

/-- `handleUnlookupReq`. -/
def handleUnlookupReq (partName : Text) (info : PortInfo) : DiscoReq :=
  .serviceUnlookup ⟨a.appName, a.name, info.msgType, info.portKind.kind, info.portScope.scope⟩
    ⟨a.globalHost, a.name, partName, info.portName⟩

/-- `registerEndpoint`: `none` for a `SetupError`. -/
def registerEndpoint (partName : Text) (info : PortInfo) : Option DiscoReq :=
  if info.portKind.isProvider then some (a.handleRegReq info)
  else if info.portKind.isClient then some (a.handleLookupReq partName info)
  else none

/-- The message type of a group. -/
def groupMsgType (g : Group) : Text := g.messageType ++ '@' :: g.groupType ++ '.' :: g.groupName

/-- What a member of a group has for a subscriber port, -/
def gsubInfo (g : Group) : PortInfo := ⟨.gsub, .global, g.portName, groupMsgType g, 0⟩

/-- and for a publisher port. -/
def gpubInfo (g : Group) : PortInfo := ⟨.gpub, .global, g.portName, groupMsgType g, g.pubPort⟩

/-- `registerGroup`. -/
def registerGroup (g : Group) : List DiscoReq :=
  [a.handleLookupReq g.partName (gsubInfo g), a.handleRegReq (gpubInfo g)]

/-- `unregisterGroup`. -/
def unregisterGroup (g : Group) : List DiscoReq :=
  [a.handleUnlookupReq g.partName (gsubInfo g), a.handleUnregReq (gpubInfo g)]

/-- The key of the actor at the server. -/
def key : Text := appActorName a.appName a.name

end Actor

end Riaps.Run
