import Riaps.Foundation.Dict

/-!
# The controller

The controller of the apps keeps the nodes that are logged in (`clientMap`), what
it knows of each app (`appInfo`) and the actors that it has launched
(`launchList`). Its operations on these are here, each one a step: what happens
between them, calls of the nodes above all, is up to the modules that use them.

A client is an object, so a node that logs in again is another client under the
same name. An entry of the launch list carries the number of its launch, by which
two launches of one actor differ; no operation reads it.
-/

namespace Riaps.Control

open Riaps.Foundation

universe u

/-- `AppStatus`. -/
inductive AppStatus where
  /-- `Unknown`. -/
  | unknown
  /-- `NotLoaded`. -/
  | notLoaded
  /-- `Loaded`. -/
  | loaded
  /-- `Recovered`. -/
  | recovered
  deriving DecidableEq

/-- One deployment of a deployment model: the actors, and where they go, which is to all clients if no target is
named. -/
structure Deployment (Name Actor : Type u) where
  target : List Name
  actors : List Actor

/-- `AppInfo`. The clients are a set. -/
structure AppInfo (Name Client Actor : Type u) where
  /-- The deployments of `depl`, if there is one. -/
  depl : Option (List (Deployment Name Actor))
  status : AppStatus
  clients : List Client

/-- An element `[client,appName,actorName]` of the launch list. -/
structure Entry (Client App Actor : Type u) where
  client : Client
  app : App
  actor : Actor
  /-- The number of the launch. -/
  launch : ℕ
  deriving DecidableEq

/-- The controller. -/
structure Controller (Name Client App Actor : Type u) where
  clientMap : Dict Name Client
  appInfo : Dict App (AppInfo Name Client Actor)
  launchList : List (Entry Client App Actor)
  /-- All that was ever appended to the launch list. -/
  launched : List (Entry Client App Actor)

/-- What `haltApp` has gathered: the entries that are to stay, in its own `launchList`, those of the app, in
`haltMap`, and whether it has called the clients. -/
structure HaltRun (Client App Actor : Type u) where
  app : App
  kept : List (Entry Client App Actor)
  toHalt : List (Entry Client App Actor)
  called : Bool
  deriving DecidableEq

variable {Name Client App Actor : Type u} [DecidableEq Name] [DecidableEq Client]

/-- `app.clients.remove(client)`, for an app that has the client: without clients it is not loaded. -/
def AppInfo.leave (client : Client) (info : AppInfo Name Client Actor) : AppInfo Name Client Actor :=
  if client ∈ info.clients then
    let clients := info.clients.erase client
    { info with clients := clients, status := if clients = [] then .notLoaded else info.status }
  else info

namespace Controller

/-- The controller when it starts. -/
def init : Controller Name Client App Actor := ⟨Dict.empty, Dict.empty, [], []⟩

/-! ### Clients -/

/-- `self.clientMap[client.name] = client`, of `addClient`. -/
def enterClient (name : Name) (client : Client) (c : Controller Name Client App Actor) :
    Controller Name Client App Actor :=
  { c with clientMap := c.clientMap.set name client }

/-- `delFromLaunchList`. -/
def delFromLaunchList (client : Client) (c : Controller Name Client App Actor) : Controller Name Client App Actor :=
  { c with launchList := c.launchList.filter fun elt => elt.client ≠ client }

/-- `delClient`. -/
def delClient (name : Name) (c : Controller Name Client App Actor) : Controller Name Client App Actor :=
  match c.clientMap.get? name with
  | some client =>
    let c := { c with appInfo := c.appInfo.mapVals (AppInfo.leave client) }.delFromLaunchList client
    { c with clientMap := c.clientMap.del name }
  | none => c

theorem launchList_delClient (name : Name) (c : Controller Name Client App Actor) :
    (c.delClient name).launchList =
      match c.clientMap.get? name with
      | some client => c.launchList.filter fun elt => elt.client ≠ client
      | none => c.launchList := by
  unfold delClient
  cases c.clientMap.get? name <;> rfl

@[simp] theorem launched_delClient (name : Name) (c : Controller Name Client App Actor) :
    (c.delClient name).launched = c.launched := by
  unfold delClient
  cases c.clientMap.get? name <;> rfl

@[simp] theorem clientMap_delClient (name : Name) (c : Controller Name Client App Actor) :
    (c.delClient name).clientMap = c.clientMap.del name := by
  unfold delClient
  cases h : c.clientMap.get? name with
  | some client => rfl
  | none => exact (Dict.del_of_notMem (Dict.get?_eq_none_iff.mp h)).symm

variable [DecidableEq App]

/-- `addRecoveredAppInfo`: the apps that a client says it runs. -/
def addRecoveredAppInfo (apps : List App) (client : Client) (c : Controller Name Client App Actor) :
    Controller Name Client App Actor :=
  { c with
    appInfo := apps.foldl (fun d app =>
      match d.get? app with
      | none => d.set app ⟨none, .recovered, [client]⟩
      | some info =>
        let status := if info.status = .notLoaded then .loaded else info.status
        d.set app { info with status := status, clients := info.clients.insert client }) c.appInfo }

/-- `findClient`: by name, or by the address that the name stands for. -/
def findClient (gethostbyname : Name → Option Name) (name : Name) (c : Controller Name Client App Actor) :
    Option Client :=
  match c.clientMap.get? name with
  | some client => some client
  | none => (gethostbyname name).bind c.clientMap.get?

/-! ### The launch list -/

/-- `self.launchList.append([client,appName,actorName])`. -/
def append (client : Client) (app : App) (actor : Actor) (c : Controller Name Client App Actor) :
    Controller Name Client App Actor :=
  let elt := ⟨client, app, actor, c.launched.length⟩
  { c with launchList := c.launchList ++ [elt], launched := c.launched ++ [elt] }

/-- The first loop of `haltApp`: nothing if there is no entry of the app. -/
def scan (app : App) (c : Controller Name Client App Actor) : Option (HaltRun Client App Actor) :=
  let toHalt := c.launchList.filter fun elt => elt.app = app
  if toHalt = [] then none else some ⟨app, c.launchList.filter fun elt => elt.app ≠ app, toHalt, false⟩

/-- `self.launchList = launchList`, at the end of `haltApp`. -/
def assign (run : HaltRun Client App Actor) (c : Controller Name Client App Actor) : Controller Name Client App Actor :=
  { c with launchList := run.kept }

end Controller

end Riaps.Control
