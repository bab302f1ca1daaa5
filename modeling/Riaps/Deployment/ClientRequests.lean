import Riaps.Foundation.Exceptions
import Riaps.Deployment.PeerQueue
import Riaps.Deployment.ResourceManager

/-!
# Requests of clients

Actors send their requests to the deployment manager on one socket, in lock-step:
the manager receives a request, and it receives no other before it has replied.
The reply is sent by the handler of the request, as its last step but one, and
what ends the handler before that is caught by the dispatcher, which sends
nothing. A handler may also wait for ever: who releases a device waits for the
thread of its monitor, which may have been ended by an exception.

Only a `BuildError` of a device's start is answered. So a request is answered if
none of the other exceptions is met, and no such wait (`Answerable`), and that is
when it is (`answers_iff`): the conditions are read off the handlers, from the
first step that can fail to the last.

What the operating system says to the steps of a handler is in `Host`. The name
of an application may be any text here: one with a dot in it is known to none of
the managers, but it is part of a key of `launchMap` like any other.
-/

namespace Riaps.Deployment

open Riaps.Foundation

/-! ### Messages -/

/-- `Status`. -/
inductive Status where
  | ok
  | err
  deriving DecidableEq

/-- `DeplReq`. -/
inductive DeplReq where
  | actorReg (appName version actorName : Text) (pid : ℤ) (isDevice : Bool)
  | deviceGet (appName modelName typeName instName : Text) (deviceArgs : List (Text × Text))
  | deviceRel (appName modelName typeName instName : Text)
  | reportEvent (appName version actorName msg : Text)

/-- `DeplRep`. -/
inductive DeplRep where
  | actorReg (status : Status) (port : ℕ) (uuid : Text)
  | deviceGet (status : Status)
  | deviceRel (status : Status)
  | reportEvent (status : Status)
  deriving DecidableEq

/-- The classes of the exceptions, and a step that does not come to its end. -/
inductive Exn where
  | buildError
  | setupError
  | keyError
  | assertionError
  | attributeError
  | typeError
  | indexError
  | osError
  | zmqError
  | hangs
  deriving DecidableEq

/-! ### The state -/

/-- What `psutil.Popen` does. -/
inductive Popen where
  | started (pid : ℕ)
  | fileNotFound
  | failed
  deriving DecidableEq

/-- What the host does for a handler. -/
structure Host where
  /-- The process that has sent the request. -/
  client : Proc
  /-- Whether there is a folder of the app, -/
  appFolder : AppName → Bool
  /-- and a Python or a C++ implementation of a component type in it. -/
  implemented : AppName → Text → Bool
  /-- Whether the files of a new control group can be used. -/
  memFiles : Bool
  /-- No logs are kept, or the file of the log is opened. -/
  logFile : Bool
  /-- The command `riaps_device`. -/
  riapsDevice : Popen
  /-- `python3` with the script. -/
  python3 : Popen
  /-- The process ends within `depmStartTimeout`. -/
  exits : Bool
  /-- It is in the list of processes after that. -/
  listed : Bool
  /-- Its user. -/
  uid : ℕ
  /-- Whether the threads of the monitors that are the actor's own halt when they are stopped. -/
  parks : LimitKind → Bool
  /-- The port of `setupClient`, if it gets one. -/
  clientPort : Option ℕ
  /-- Whether the device is bound to it, -/
  deviceBound : Bool
  /-- and whether all goes well with the other sockets of a client. -/
  sockets : Bool

/-- What a `FaultManager` knows: the actors of each app. -/
structure FaultManager where
  appMap : Dict AppName (List Text)

namespace FaultManager

/-- `addActor`. -/
def addActor (appName : AppName) (actorName : Text) (s : FaultManager) : FaultManager × Bool :=
  match s.appMap.get? appName with
  | some actors => if actorName ∈ actors then (s, true) else (⟨s.appMap.set appName (actors ++ [actorName])⟩, true)
  | none => (s, false)

/-- The actor is known to the manager. -/
def Knows (appName : AppName) (actorName : Text) (s : FaultManager) : Prop :=
  ∃ actors ∈ s.appMap.get? appName, actorName ∈ actors

instance (appName : AppName) (actorName : Text) (s : FaultManager) : Decidable (s.Knows appName actorName) :=
  inferInstanceAs (Decidable (∃ actors ∈ s.appMap.get? appName, actorName ∈ actors))

end FaultManager

/-- The parts of an app's model that a device is started with: the usage of each actor and each device. -/
structure AppModel where
  actors : Dict Text (Option Usage)
  devices : Dict Text (Option Usage)

/-- The REP socket. -/
structure Server where
  /-- A request was received, and there was no reply to it. -/
  pending : Bool
  /-- The replies that were sent. -/
  replies : List DeplRep
  deriving DecidableEq

/-- The manager, as its clients have to do with it. -/
structure Deplo where
  clients : Clients
  resm : ResourceManager
  fm : FaultManager
  /-- `appModels`. -/
  appModels : Dict AppName AppModel
  uuid : Text
  server : Server

/-- What a handler does. -/
abbrev Handler := EStateM Exn Deplo

/-- The name of an app, when it has no dot. -/
def AppName.ofText? (appName : Text) : Option AppName := if h : '.' ∉ appName then some ⟨appName, h⟩ else none

/-- `str(appName) + "." + str(name)`. -/
def clientKey (appName name : Text) : Text := appName ++ '.' :: name

/-- For a name with no dot it is the qualified name. -/
theorem clientKey_eq {appName : Text} {app : AppName} (h : app ∈ AppName.ofText? appName) (name : Text) :
    clientKey appName name = qualName app name := by
  rw [Option.mem_def, AppName.ofText?] at h
  split_ifs at h
  rw [← Option.some.inj h]
  rfl

namespace Deplo

/-- A manager over a database. -/
def init (appDbase : AppDbase) (cgroups : Cgroups) (netmon : Bool) (uuid : Text) : Deplo where
  clients := .init appDbase
  resm := .init cgroups netmon
  fm := ⟨.empty⟩
  appModels := .empty
  uuid := uuid
  server := ⟨false, []⟩

/-- `setupApp`, when there is a model. -/
def setupApp (appName : AppName) (model : AppModel) (s : Deplo) : Deplo :=
  { s with
    appModels := s.appModels.set appName model
    fm := if appName ∈ s.fm.appMap then s.fm else ⟨s.fm.appMap.set appName []⟩
    resm := s.resm.setupApp appName }

/-! ### Steps of the handlers -/

/-- `self.server.send`; a REP socket sends when it has received. -/
def send (rep : DeplRep) : Handler PUnit := do
  let s ← get
  check .zmqError (s.server.pending = true)
  modify fun s => { s with server := ⟨false, s.server.replies ++ [rep]⟩ }

/-- An operation of the resource manager. -/
def onResm (e : ResourceManager → Exn) (f : ResourceManager → ResourceManager × Bool) : Handler PUnit :=
  update (fun s => e s.resm) fun s => ({ s with resm := (f s.resm).1 }, (f s.resm).2)

/-- `resm.addActor` raises a `BuildError`, or it adds to a quota what is no number. -/
def addActorExn (appName : AppName) (s : ResourceManager) : Exn :=
  if appName ∈ s.appMap then .typeError else .buildError

/-- `resm.addClientDevice` does not know the app, or the actor, or it waits for the port of a monitor that was never
started, or there is no process. -/
def addClientDeviceExn (appName : AppName) (actorName : Text) (s : ResourceManager) : Exn :=
  if appName ∈ s.appMap then
    match s.actor? appName actorName with
    | none => .setupError
    | some a => if (a.addClientDevice appName actorName).2 then .attributeError else .hangs
  else .buildError

/-- `resm.stopActor` does not know the app, or the actor, or the actor has no `started`, or the thread of a monitor does
not halt, or a monitor does not have the actor. -/
def stopActorExn (parks : LimitKind → Bool) (appName : AppName) (actorName : Text) (s : ResourceManager) : Exn :=
  if appName ∈ s.appMap then
    match s.actor? appName actorName with
    | none => .setupError
    | some a => if a.started = none then .attributeError else if (a.halt parks).2 then .keyError else .hangs
  else .keyError

/-- The key of an actor's usage in its app's model, in `getActorModel`. -/
def getActorModel (model : AppModel) (actorName : Text) : Option (Option Usage) :=
  match model.actors.get? actorName with
  | some usage => some usage
  | none => model.devices.get? actorName

/-- `psutil.Popen`, and again with `python3`: after that, the message for the log is a `TypeError`. -/
def popen (host : Host) : Handler ℕ :=
  match host.riapsDevice with
  | .started pid => pure pid
  | .failed => throw .osError
  | .fileNotFound =>
    match host.python3 with
    | .started pid => pure pid
    | .fileNotFound | .failed => throw .typeError

/-! ### Devices -/

/-- `startDevice`. -/
def startDevice (host : Host) (appName appModel typeName instName : Text) (actorArgs : List Text) :
    Handler PUnit := do
  let app ← found .buildError (AppName.ofText? appName)
  let s ← get
  let model ← found .buildError (s.appModels.get? app)
  check .buildError (host.appFolder app = true)
  check .buildError (host.implemented app typeName = true)
  let usage ← found .buildError (getActorModel model typeName)
  onResm (addActorExn app) (ResourceManager.addActor app instName host.memFiles usage)
  update (fun _ => .buildError) fun s =>
    ({ s with fm := (s.fm.addActor app instName).1 }, (s.fm.addActor app instName).2)
  check .osError (host.logFile = true)
  let pid ← popen host
  check .buildError (host.exits = false)
  check .indexError (host.listed = true)
  onResm (fun _ => .setupError) (ResourceManager.startActor app instName pid host.uid)
  let s ← get
  check .assertionError (s.fm.Knows app instName)
  modify fun s => { s with clients := { s.clients with
    depm := (s.clients.depm.startDevice app appModel typeName instName actorArgs (some pid)).1 } }

/-- `cmdArgs`. -/
def cmdArgs (deviceArgs : List (Text × Text)) : List Text :=
  deviceArgs.flatMap fun arg => ['-' :: '-' :: arg.1, arg.2]

/-- `handleDeviceReq`. -/
def handleDeviceReq (host : Host) (appName modelName typeName instName : Text) (deviceArgs : List (Text × Text)) :
    Handler PUnit := do
  let status ← tryCatch
    (do startDevice host appName modelName typeName instName (cmdArgs deviceArgs)
        pure Status.ok)
    fun e => if e = .buildError then pure .err else throw e
  send (.deviceGet status)

/-- `stopDevice`. -/
def stopDevice (host : Host) (appName instName : Text) : Handler PUnit := do
  let s ← get
  let key := clientKey appName instName
  match s.clients.depm.launchMap.get? key with
  | none => pure ⟨⟩
  | some proc =>
    modify fun s => { s with clients := { s.clients with depm :=
      { s.clients.depm with launchMap := s.clients.depm.launchMap.del key } } }
    check .assertionError (key ∈ s.clients.depm.devices)
    let app ← found .keyError (AppName.ofText? appName)
    onResm (stopActorExn host.parks app instName) (ResourceManager.stopActor host.parks app instName proc.pid)
    check .keyError (app ∈ s.fm.appMap)
    check .assertionError (s.fm.Knows app instName)
    modify fun s => { s with clients := { s.clients with depm :=
      { s.clients.depm with
        procm := s.clients.depm.procm.release key
        submitted := if proc ∈ s.clients.depm.ended then s.clients.depm.submitted
          else s.clients.depm.submitted ++ [proc] } } }

/-- `handleDeviceRel`; a `BuildError` has no second argument for the log. -/
def handleDeviceRel (host : Host) (appName instName : Text) : Handler PUnit := do
  tryCatch (stopDevice host appName instName) fun e => if e = .buildError then throw .indexError else throw e
  send (.deviceRel .ok)

/-! ### Registration -/

/-- The actor, or the device, is one that the manager has started. -/
def Started (key : Text) (isDevice : Bool) (s : Deplo) : Prop :=
  key ∈ s.clients.depm.launchMap ∧ if isDevice then key ∈ s.clients.depm.devices else key ∈ s.clients.depm.actors

instance (key : Text) (isDevice : Bool) (s : Deplo) : Decidable (s.Started key isDevice) :=
  inferInstanceAs (Decidable (_ ∧ if isDevice then _ else _))

/-- The record of a device that has registered. -/
def renewDevice (app : AppName) (name : Text) (s : Deplo) : Deplo :=
  match s.clients.depm.devices.get? (qualName app name) with
  | some record =>
    { s with clients := { s.clients with depm := { s.clients.depm with
        devices := s.clients.depm.devices.set (qualName app name)
          ⟨app, record.model, record.type, name, record.args⟩ } } }
  | none => s

/-- The end of a registration: the record is replaced, the reply goes out, and then the messages about peers. -/
def confirmActorReg (client : Proc) (app : AppName) (actorName : Text) (isDevice : Bool) (port : ℕ) (uuid : Text) :
    Handler PUnit := do
  modify fun s => if isDevice then s.renewDevice app actorName else s
  send (.actorReg .ok port uuid)
  if !isDevice then
    update (fun _ => .assertionError) fun s =>
      ({ s with clients := (s.clients.handleActorReg true client app actorName).1 },
        (s.clients.handleActorReg true client app actorName).2)

/-- `handleActorReg`. -/
def handleActorReg (host : Host) (appName actorName : Text) (isDevice : Bool) : Handler PUnit := do
  let s ← get
  if s.Started (clientKey appName actorName) isDevice then
    let port ← found .zmqError host.clientPort
    check .zmqError (host.deviceBound = true)
    let app ← found .buildError (AppName.ofText? appName)
    onResm (addClientDeviceExn app actorName) (ResourceManager.addClientDevice app actorName)
    check .zmqError (host.sockets = true)
    check .buildError (app ∈ s.fm.appMap)
    check .assertionError (s.fm.Knows app actorName)
    confirmActorReg host.client app actorName isDevice port s.uuid
  else send (.actorReg .err 0 [])

/-! ### Requests -/

/-- The dispatcher, and what it catches. -/
def handleClient (host : Host) (req : DeplReq) (s : Deplo) : Deplo :=
  match req with
  | .actorReg appName _ actorName _ isDevice => stateAfter (handleActorReg host appName actorName isDevice) s
  | .deviceGet appName modelName typeName instName deviceArgs =>
    stateAfter (handleDeviceReq host appName modelName typeName instName deviceArgs) s
  | .deviceRel appName _ _ instName => stateAfter (handleDeviceRel host appName instName) s
  | .reportEvent .. => stateAfter (send (.reportEvent .ok)) s

/-- `self.server.recv()`. -/
def recv (s : Deplo) : Deplo := { s with server := { s.server with pending := true } }

/-- A request, which is received if there is a reply to the one before it. -/
def request (s : Deplo) (r : Host × DeplReq) : Deplo :=
  if s.server.pending then s else s.recv.handleClient r.1 r.2

/-- There is one reply more, and the next request can be received. -/
def Answered (replies : List DeplRep) (t : Deplo) : Prop := ∃ rep, t.server = ⟨false, replies ++ [rep]⟩

/-- The request is answered. -/
def Answers (host : Host) (req : DeplReq) (s : Deplo) : Prop :=
  Answered s.server.replies (s.recv.handleClient host req)

end Deplo

/-! ### What the resource manager can do -/

/-- The monitor has all that it deletes of an actor. -/
def SpcMonitor.Holds (key : Text) (m : SpcMonitor) : Prop :=
  ∃ uid ∈ m.name2Uid.get? key, ∃ names ∈ m.uid2Name.get? uid, key ∈ names ∧ key ∈ m.devices

theorem SpcMonitor.delProc_ok {key : Text} {m : SpcMonitor} : (m.delProc key).2 = true ↔ m.Holds key := by
  rw [SpcMonitor.delProc, SpcMonitor.Holds]
  cases huid : m.name2Uid.get? key with
  | none => simp
  | some uid =>
    cases hnames : m.uid2Name.get? uid with
    | none => simp [hnames]
    | some names =>
      by_cases hkey : key ∈ names
      · by_cases hdev : key ∈ m.devices <;> simp [hnames, hkey, hdev]
      · simp [hnames, hkey]

/-- The monitor has all that it deletes of an actor. -/
def NetMonitor.Holds (key : Text) (pid : ℕ) (m : NetMonitor) : Prop :=
  key ∈ m.devices ∧ pid ∈ m.pid2Key ∧ pid ∈ m.pid2Rate

theorem NetMonitor.delProc_ok {key : Text} {pid : ℕ} {m : NetMonitor} :
    (m.delProc key pid).2 = true ↔ m.Holds key pid := by
  rw [NetMonitor.delProc, NetMonitor.Holds]
  by_cases hdev : key ∈ m.devices
  · by_cases hkey : pid ∈ m.pid2Key
    · by_cases hrate : pid ∈ m.pid2Rate <;> simp [hdev, hkey, hrate]
    · simp [hdev, hkey]
  · simp [hdev]

namespace ActorResourceManager

/-- The own monitors of an actor have its process, and so has its entry if the others are to be told of it. -/
def Connects (netmon : Bool) (a : ActorResourceManager) : Prop :=
  (∀ m, a.cpu = .monitor m → m.proc.isSome) ∧ (∀ m ∈ a.mem, m.proc.isSome) ∧
    (a.hasSpace = true ∨ netmon = true ∧ (a.hasNet || a.hasRate) = true → a.proc.isSome)

theorem addClientDevice_ok (a : ActorResourceManager) (appName : AppName) (actorName : Text) :
    (a.addClientDevice appName actorName).2 = true ↔
      (∀ m, a.cpu = .monitor m → m.proc.isSome) ∧ ∀ m ∈ a.mem, m.proc.isSome := by
  have hmonitor : ∀ m : UsageMonitor, (m.addClientDevice appName actorName).2 = m.proc.isSome := by
    intro m
    rw [UsageMonitor.addClientDevice]
    cases m.proc <;> rfl
  obtain ⟨cpu, mem, hasSpace, hasNet, hasRate, netRate, proc, started⟩ := a
  rw [addClientDevice]
  cases cpu with
  | none => cases mem <;> simp [hmonitor]
  | group => cases mem <;> simp [hmonitor]
  | monitor m =>
    by_cases hproc : m.proc.isSome = true
    · cases mem <;> simp [hmonitor, hproc]
    · simp [hmonitor, hproc]

end ActorResourceManager

namespace ResourceManager

variable {s : ResourceManager} {appName : AppName} {actorName : Text}

/-- An actor can be added to an app that there is: it is there already, or a space limit that it has is a number. -/
def Fits (appName : AppName) (actorName : Text) (usage : Option Usage) (s : ResourceManager) : Prop :=
  (s.actor? appName actorName).isSome ∨ ∀ u ∈ usage, u.spc ≠ some false

theorem addActor_ok {memFiles : Bool} {usage : Option Usage} :
    (s.addActor appName actorName memFiles usage).2 = true ↔
      appName ∈ s.appMap ∧ s.Fits appName actorName usage := by
  have hnew : (ActorResourceManager.new s.cgroups memFiles usage).isSome = true ↔ ∀ u ∈ usage, u.spc ≠ some false := by
    cases usage with
    | none => simp [ActorResourceManager.new]
    | some u => by_cases hspc : u.spc = some false <;> simp [ActorResourceManager.new, hspc]
  rw [addActor, Fits]
  by_cases happ : appName ∈ s.appMap
  · rw [if_pos happ]
    cases hactor : s.actor? appName actorName with
    | some a => simp [happ]
    | none =>
      cases hfresh : ActorResourceManager.new s.cgroups memFiles usage with
      | some a => simpa [happ, hfresh] using hnew
      | none => simpa [happ, hfresh] using hnew
  · simp [happ]

/-- After that the actor is there. -/
theorem actor?_addActor {memFiles : Bool} {usage : Option Usage}
    (h : (s.addActor appName actorName memFiles usage).2 = true) :
    ((s.addActor appName actorName memFiles usage).1.actor? appName actorName).isSome = true := by
  obtain ⟨happ, hfits⟩ := addActor_ok.mp h
  rw [addActor, if_pos happ] at h ⊢
  cases hactor : s.actor? appName actorName with
  | some a => simp [hactor]
  | none =>
    cases hnew : ActorResourceManager.new s.cgroups memFiles usage with
    | some a => simp [actor?_setActor]
    | none => simp [hactor, hnew] at h

theorem startActor_ok {pid uid : ℕ} :
    (s.startActor appName actorName pid uid).2 = true ↔ (s.actor? appName actorName).isSome = true := by
  cases ha : s.actor? appName actorName with
  | none => simp [startActor, ha]
  | some a => simp [startActor_eq ha]

/-- An actor can be connected to its monitors. -/
def Connects (appName : AppName) (actorName : Text) (s : ResourceManager) : Prop :=
  ∃ a ∈ s.actor? appName actorName, a.Connects s.netMonitor.isSome

theorem addClientDevice_ok :
    (s.addClientDevice appName actorName).2 = true ↔ s.Connects appName actorName := by
  rw [Connects]
  cases ha : s.actor? appName actorName with
  | none => simp [addClientDevice, ha]
  | some a =>
    have hown := a.addClientDevice_ok appName actorName
    cases hproc : a.proc with
    | some pid => simp [addClientDevice, ha, hproc, hown, ActorResourceManager.Connects]
    | none =>
      have hnet : (∀ net ∈ s.netMonitor, (a.hasNet || a.hasRate) = true → false = true) ↔
          ¬(s.netMonitor.isSome = true ∧ (a.hasNet || a.hasRate) = true) := by
        cases s.netMonitor <;> simp
      simp only [addClientDevice, ha, hproc, andThen_ok, hown, watchSpace_ok, watchNet_ok, watchSpace_fst,
        ActorResourceManager.Connects]
      change _ ∧ _ ∧ (∀ net ∈ s.netMonitor, _ → _) ↔ _
      rw [hnet]
      simp [hproc, and_assoc]

/-- An actor can be stopped: it is not started, or its own monitors halt and the others have all that they delete
of it. -/
def Stops (parks : LimitKind → Bool) (appName : AppName) (actorName : Text) (pid : ℕ) (s : ResourceManager) : Prop :=
  ∃ a ∈ s.actor? appName actorName, a.started = some false ∨
    a.started = some true ∧ (∀ k, a.watches k = true → parks k = true) ∧
      (a.hasSpace = true → s.spcMonitor.Holds (qualName appName actorName)) ∧
      ∀ net ∈ s.netMonitor, (a.hasNet || a.hasRate) = true → net.Holds (qualName appName actorName) pid

theorem stopActor_ok {parks : LimitKind → Bool} {pid : ℕ} :
    (s.stopActor parks appName actorName pid).2 = true ↔ s.Stops parks appName actorName pid := by
  rw [Stops]
  cases ha : s.actor? appName actorName with
  | none => simp [stopActor, ha]
  | some a =>
    cases hstarted : a.started with
    | none => simp [stopActor, ha, hstarted]
    | some started =>
      cases started with
      | false => simp [stopActor, ha, hstarted]
      | true =>
        rw [stopActor_ok_iff ha hstarted]
        simp [SpcMonitor.delProc_ok, NetMonitor.delProc_ok, hstarted]

end ResourceManager

/-! ### Steps -/

namespace FaultManager

variable {s : FaultManager} {appName : AppName} {actorName : Text}

theorem addActor_ok : (s.addActor appName actorName).2 = true ↔ appName ∈ s.appMap := by
  rw [addActor, Dict.mem_iff_exists_get?]
  cases hget : s.appMap.get? appName with
  | none => simp
  | some actors => by_cases hmem : actorName ∈ actors <;> simp [hmem]

theorem knows_addActor (h : appName ∈ s.appMap) (actorName : Text) :
    (s.addActor appName actorName).1.Knows appName actorName := by
  obtain ⟨actors, hget⟩ := Dict.mem_iff_exists_get?.mp h
  by_cases hmem : actorName ∈ actors
  · exact ⟨actors, by simp [addActor, hget, hmem], hmem⟩
  · exact ⟨actors ++ [actorName], by simp [addActor, hget, hmem], by simp⟩

theorem Knows.mem (h : s.Knows appName actorName) : appName ∈ s.appMap := by
  obtain ⟨actors, hget, -⟩ := h
  exact Dict.mem_of_get? hget

end FaultManager

/-- The process of a device, if one of the two commands starts it. -/
def Host.launched? (host : Host) : Option ℕ :=
  match host.riapsDevice, host.python3 with
  | .started pid, _ => some pid
  | .fileNotFound, .started pid => some pid
  | _, _ => none

namespace Deplo

section Rules

variable {s : Deplo} {E : Exn → Deplo → Prop} {Q : PUnit → Deplo → Prop}

@[simp] theorem ends_send (rep : DeplRep) :
    Ends (send rep) s Q E ↔
      (s.server.pending = true → Q ⟨⟩ { s with server := ⟨false, s.server.replies ++ [rep]⟩ }) ∧
        (s.server.pending ≠ true → E .zmqError s) := by
  rw [send]
  simp only [ends_bind, ends_get, ends_check, ends_modify]

@[simp] theorem ends_onResm (e : ResourceManager → Exn) (f : ResourceManager → ResourceManager × Bool) :
    Ends (onResm e f) s Q E ↔
      ((f s.resm).2 = true → Q ⟨⟩ { s with resm := (f s.resm).1 }) ∧
        ((f s.resm).2 = false → E (e s.resm) { s with resm := (f s.resm).1 }) := by
  rw [onResm, ends_update]

@[simp] theorem ends_popen (host : Host) {Q : ℕ → Deplo → Prop} :
    Ends (popen host) s Q E ↔
      (∀ pid ∈ host.launched?, Q pid s) ∧
        (host.launched? = none → E (if host.riapsDevice = .failed then .osError else .typeError) s) := by
  rw [popen, Host.launched?]
  cases hdevice : host.riapsDevice with
  | started pid => simp
  | failed => simp
  | fileNotFound => cases host.python3 <;> simp

end Rules

/-! ### Devices -/

variable {s : Deplo} (host : Host)

/-- The start of a device sends nothing, -/
theorem startDevice_server (appName appModel typeName instName : Text) (actorArgs : List Text) :
    Ends (startDevice host appName appModel typeName instName actorArgs) s (fun _ t => t.server = s.server)
      fun _ t => t.server = s.server := by
  simp [startDevice]

/-- A device request gets a reply, whatever comes of it. -/
def DeviceAnswerable (appName typeName instName : Text) (s : Deplo) : Prop :=
  ∀ app ∈ AppName.ofText? appName, ∀ model ∈ s.appModels.get? app, host.appFolder app = true →
    host.implemented app typeName = true → ∀ usage ∈ getActorModel model typeName, app ∈ s.resm.appMap →
      s.resm.Fits app instName usage ∧
        (app ∈ s.fm.appMap → host.logFile = true ∧ host.launched?.isSome ∧ (host.exits = true ∨ host.listed = true))

/-- and it fails in a `BuildError`, if it fails, -/
theorem startDevice_buildError (appName appModel typeName instName : Text) (actorArgs : List Text) :
    Ends (startDevice host appName appModel typeName instName actorArgs) s (fun _ _ => True)
      (fun e _ => e = .buildError) ↔ s.DeviceAnswerable host appName typeName instName := by
  simp only [startDevice, DeviceAnswerable, ends_bind, ends_found, ends_get, ends_check, ends_onResm, ends_update,
    ends_popen, ends_modify, imp_true_iff, and_true, Option.mem_def, Bool.not_eq_true]
  refine forall₂_congr fun app _ => forall₂_congr fun model _ => forall₂_congr fun _ _ => ?_
  refine forall₂_congr fun usage _ => ?_
  have hok : (s.resm.addActor app instName host.memFiles usage).2 = true ↔ _ := ResourceManager.addActor_ok
  by_cases hknown : app ∈ s.resm.appMap
  · rw [imp_iff_right hknown]
    by_cases hfits : s.resm.Fits app instName usage
    · have hadd := hok.mpr ⟨hknown, hfits⟩
      have hstart : ∀ pid, (ResourceManager.startActor app instName pid host.uid
          (s.resm.addActor app instName host.memFiles usage).1).2 = true :=
        fun pid => ResourceManager.startActor_ok.mpr (ResourceManager.actor?_addActor hadd)
      simp only [hadd, hfits, true_and, FaultManager.addActor_ok, imp_iff_right]
      simp only [reduceCtorEq, false_imp_iff, and_true]
      refine imp_congr_right fun hfm => ?_
      -- the managers know the actor now
      have hknows := FaultManager.knows_addActor hfm instName
      cases hpid : host.launched? with
      | none => by_cases hfailed : host.riapsDevice = .failed <;> simp [hfailed]
      | some pid => cases host.logFile <;> cases host.exits <;> simp [hstart, hknows]
    · have hadd : (s.resm.addActor app instName host.memFiles usage).2 = false := by
        simpa [hfits] using hok
      simp [hadd, hfits, addActorExn, hknown]
  · have hadd : (s.resm.addActor app instName host.memFiles usage).2 = false := by
      simpa [hknown] using hok
    simp [hadd, hknown, addActorExn]

/-- A reply is sent, -/
theorem answered_send {t : Deplo} {replies : List DeplRep} (h : t.server = ⟨true, replies⟩) (rep : DeplRep) :
    Ends (send rep) t (fun _ u => Answered replies u) fun _ u => Answered replies u := by
  simp [h, Answered]

/-- and there was none before. -/
theorem not_answered {t : Deplo} {replies : List DeplRep} (h : t.server = ⟨true, replies⟩) : ¬Answered replies t := by
  simp [h, Answered]

theorem Answered.pending {t : Deplo} {replies : List DeplRep} (h : Answered replies t) : t.server.pending = false := by
  obtain ⟨rep, hserver⟩ := h
  rw [hserver]

/-- **A device request is answered** unless another exception is met. -/
theorem answers_deviceGet (appName modelName typeName instName : Text) (deviceArgs : List (Text × Text)) :
    s.Answers host (.deviceGet appName modelName typeName instName deviceArgs) ↔
      s.DeviceAnswerable host appName typeName instName := by
  have hbuild := startDevice_buildError (s := s.recv) host appName modelName typeName instName (cmdArgs deviceArgs)
  rw [Answers, handleClient, ends_stateAfter _ (Answered _), handleDeviceReq, ends_bind, ends_tryCatch, ends_bind]
  refine Iff.trans (Ends.congr (startDevice_server host ..) (fun _ t ht => ?_) fun e t ht => ?_) hbuild
  · rw [ends_pure]
    exact iff_true_intro (answered_send ht _)
  · by_cases he : e = .buildError
    · rw [if_pos he, ends_pure]
      exact iff_of_true (answered_send ht _) he
    · rw [if_neg he, ends_throw]
      exact iff_of_false (not_answered ht) he

/-! ### Releases -/

/-- A device is stopped without a reply, -/
theorem stopDevice_server (appName instName : Text) :
    Ends (stopDevice host appName instName) s (fun _ t => t.server = s.server) fun _ t => t.server = s.server := by
  cases hget : s.clients.depm.launchMap.get? (clientKey appName instName) <;> simp [stopDevice, hget]

/-- There is no such process, or it is that of a device which the managers know, and whose monitors halt. -/
def ReleaseAnswerable (appName instName : Text) (s : Deplo) : Prop :=
  ∀ proc ∈ s.clients.depm.launchMap.get? (clientKey appName instName),
    clientKey appName instName ∈ s.clients.depm.devices ∧
      ∃ app ∈ AppName.ofText? appName, s.resm.Stops host.parks app instName proc.pid ∧ s.fm.Knows app instName

/-- and with no exception. -/
theorem stopDevice_ok (appName instName : Text) :
    Ends (stopDevice host appName instName) s (fun _ _ => True) (fun _ _ => False) ↔
      s.ReleaseAnswerable host appName instName := by
  rw [ReleaseAnswerable]
  cases hget : s.clients.depm.launchMap.get? (clientKey appName instName) with
  | none => simp [stopDevice, hget]
  | some proc =>
    cases happ : AppName.ofText? appName with
    | none => simp [stopDevice, hget, happ]
    | some app =>
      have hmem : s.fm.Knows app instName → app ∈ s.fm.appMap := FaultManager.Knows.mem
      simp only [stopDevice, hget, happ, ends_bind, ends_get, ends_modify, ends_check, ends_found, ends_onResm,
        imp_true_iff, imp_false, not_not, Option.mem_some_iff, forall_eq', exists_eq_left', Bool.not_eq_false,
        ResourceManager.stopActor_ok]
      tauto

/-- **A release is answered** unless the name is that of an actor, or a manager cannot stop it. -/
theorem answers_deviceRel (appName modelName typeName instName : Text) :
    s.Answers host (.deviceRel appName modelName typeName instName) ↔ s.ReleaseAnswerable host appName instName := by
  rw [Answers, handleClient, ends_stateAfter _ (Answered _), handleDeviceRel, ends_bind, ends_tryCatch]
  refine Iff.trans (Ends.congr (stopDevice_server host ..) (fun _ t ht => ?_) fun e t ht => ?_)
    (s.recv.stopDevice_ok host ..)
  · exact iff_true_intro (answered_send ht _)
  · split_ifs <;> exact iff_of_false (not_answered ht) id

/-! ### Registrations -/

/-- The actor is not known, or the host has the sockets and the managers know the actor. -/
def RegistrationAnswerable (appName actorName : Text) (isDevice : Bool) (s : Deplo) : Prop :=
  s.Started (clientKey appName actorName) isDevice →
    host.clientPort.isSome ∧ host.deviceBound = true ∧ host.sockets = true ∧
      ∃ app ∈ AppName.ofText? appName, s.resm.Connects app actorName ∧ s.fm.Knows app actorName

@[simp] theorem renewDevice_server (app : AppName) (name : Text) (s : Deplo) :
    (s.renewDevice app name).server = s.server := by
  rw [renewDevice]
  split <;> rfl

theorem confirmActorReg_answered {t : Deplo} {replies : List DeplRep} (h : t.server = ⟨true, replies⟩) (client : Proc)
    (app : AppName) (actorName : Text) (isDevice : Bool) (port : ℕ) (uuid : Text) :
    Ends (confirmActorReg client app actorName isDevice port uuid) t (fun _ u => Answered replies u)
      fun _ u => Answered replies u := by
  cases isDevice <;> simp [confirmActorReg, h, Answered]

theorem handleActorReg_answered {replies : List DeplRep} (h : s.server = ⟨true, replies⟩) (appName actorName : Text)
    (isDevice : Bool) :
    Ends (handleActorReg host appName actorName isDevice) s (fun _ t => Answered replies t)
        (fun _ t => Answered replies t) ↔
      s.RegistrationAnswerable host appName actorName isDevice := by
  by_cases hknown : s.Started (clientKey appName actorName) isDevice
  · rw [RegistrationAnswerable, imp_iff_right hknown]
    cases hport : host.clientPort with
    | none => simp [handleActorReg, hknown, hport, h, Answered]
    | some port =>
      cases happ : AppName.ofText? appName with
      | none => simp [handleActorReg, hknown, hport, happ, h, Answered]
      | some app =>
        have hno : ∀ r, ¬Answered replies { s with resm := r } := fun _ => not_answered h
        have hconfirm := fun r =>
          confirmActorReg_answered (t := { s with resm := r }) h host.client app actorName isDevice port s.uuid
        have hmem : s.fm.Knows app actorName → app ∈ s.fm.appMap := FaultManager.Knows.mem
        simp only [handleActorReg, hknown, hport, happ, hconfirm, hno, ends_bind, ends_get, if_true,
          ends_check, ends_found, ends_onResm, imp_true_iff, imp_false, not_not, Option.mem_some_iff, forall_eq',
          exists_eq_left', Bool.not_eq_false, ResourceManager.addClientDevice_ok, Option.isSome_some]
        tauto
  · simp [handleActorReg, hknown, h, Answered, RegistrationAnswerable]

/-- There is no reply, or one. -/
theorem handleActorReg_quiet {replies : List DeplRep} (h : s.server = ⟨true, replies⟩) (appName actorName : Text)
    (isDevice : Bool) :
    Ends (handleActorReg host appName actorName isDevice) s (fun _ t => Answered replies t ∨ t.server = ⟨true, replies⟩)
      fun _ t => Answered replies t ∨ t.server = ⟨true, replies⟩ := by
  let P : Deplo → Prop := fun t => Answered replies t ∨ t.server = ⟨true, replies⟩
  have hconfirm : ∀ r app port, Ends (confirmActorReg host.client app actorName isDevice port s.uuid)
      { s with resm := r } (fun _ t => P t) fun _ t => P t :=
    fun r app port => (confirmActorReg_answered (t := { s with resm := r }) h host.client app actorName isDevice port
      s.uuid).mono (fun _ _ => .inl) fun _ _ => .inl
  have hquiet : ∀ r, P { s with resm := r } := fun _ => .inr h
  show Ends _ s (fun _ t => P t) fun _ t => P t
  by_cases hknown : s.Started (clientKey appName actorName) isDevice
  · simp [handleActorReg, hknown, hconfirm, hquiet]
  · simp only [handleActorReg, hknown, if_false, ends_bind, ends_get]
    exact (answered_send h _).mono (fun _ _ => .inl) fun _ _ => .inl

/-- **A registration is answered** unless a socket is missing, or a manager does not know the actor. -/
theorem answers_actorReg (appName version actorName : Text) (pid : ℤ) (isDevice : Bool) :
    s.Answers host (.actorReg appName version actorName pid isDevice) ↔
      s.RegistrationAnswerable host appName actorName isDevice := by
  rw [Answers, handleClient, ends_stateAfter _ (Answered _)]
  exact s.recv.handleActorReg_answered host rfl ..

/-! ### Requests -/

/-- What a request needs to be answered. -/
def Answerable (host : Host) (s : Deplo) : DeplReq → Prop
  | .actorReg appName _ actorName _ isDevice => s.RegistrationAnswerable host appName actorName isDevice
  | .deviceGet appName _ typeName instName _ => s.DeviceAnswerable host appName typeName instName
  | .deviceRel appName _ _ instName => s.ReleaseAnswerable host appName instName
  | .reportEvent .. => True

theorem answers_iff (s : Deplo) (req : DeplReq) : s.Answers host req ↔ s.Answerable host req := by
  cases req with
  | actorReg appName version actorName pid isDevice => exact s.answers_actorReg host ..
  | deviceGet appName modelName typeName instName deviceArgs => exact s.answers_deviceGet host ..
  | deviceRel appName modelName typeName instName => exact s.answers_deviceRel host ..
  | reportEvent appName version actorName msg =>
    refine iff_of_true ?_ trivial
    rw [Answers, handleClient, ends_stateAfter _ (Answered _)]
    exact answered_send rfl _

theorem answered_or_pending (s : Deplo) (req : DeplReq) :
    Answered s.server.replies (s.recv.handleClient host req) ∨
      (s.recv.handleClient host req).server = ⟨true, s.server.replies⟩ := by
  let P : Deplo → Prop := fun t => Answered s.server.replies t ∨ t.server = ⟨true, s.server.replies⟩
  have hsend : ∀ (t : Deplo) (rep : DeplRep), t.server = ⟨true, s.server.replies⟩ →
      Ends (send rep) t (fun _ u => P u) fun _ u => P u :=
    fun t rep ht => (answered_send ht rep).mono (fun _ _ => .inl) fun _ _ => .inl
  show P (s.recv.handleClient host req)
  cases req with
  | actorReg appName version actorName pid isDevice =>
    rw [handleClient, ends_stateAfter _ P]
    exact s.recv.handleActorReg_quiet host rfl ..
  | deviceGet appName modelName typeName instName deviceArgs =>
    rw [handleClient, ends_stateAfter _ P, handleDeviceReq, ends_bind, ends_tryCatch, ends_bind]
    refine (startDevice_server host ..).mono (fun _ t ht => hsend t _ ht) fun e t ht => ?_
    split_ifs
    exacts [hsend t _ ht, .inr ht]
  | deviceRel appName modelName typeName instName =>
    rw [handleClient, ends_stateAfter _ P, handleDeviceRel, ends_bind, ends_tryCatch]
    refine (stopDevice_server host ..).mono (fun _ t ht => hsend t _ ht) fun e t ht => ?_
    split_ifs <;> exact .inr ht
  | reportEvent appName version actorName msg =>
    rw [handleClient, ends_stateAfter _ P]
    exact hsend _ _ rfl

/-- **Exactly the requests that are answerable are answered**, in every state. The others get no reply, and the socket
waits for it. -/
theorem requests_answered (s : Deplo) (host : Host) (req : DeplReq) :
    (s.Answers host req ↔ s.Answerable host req) ∧
      (¬s.Answers host req → (s.recv.handleClient host req).server = ⟨true, s.server.replies⟩) :=
  ⟨s.answers_iff host req, (s.answered_or_pending host req).resolve_left⟩

/-- Neither `riaps_device` nor `python3` can be started, and the message about that is a `TypeError`. A running actor is
released as if it were a device: its entry is deleted, and the assertion fails. And a device is released whose processor
limit is watched by a thread that has been ended. -/
theorem unanswered :
    let app : AppName := ⟨['a'], by decide⟩
    let host : Host := ⟨⟨0, 7, ['a', '.', 'x'], ['m'], [], false⟩, fun _ => true, fun _ _ => true, true, true,
      .fileNotFound, .fileNotFound, false, true, 9, fun _ => false, some 5000, true, true⟩
    let s := (init .init ⟨true, true, true⟩ false ['u']).setupApp app ⟨.empty, Dict.empty.set ['d'] none⟩
    let running := { s with
      clients := (s.clients.startActor app ['m'] ['x'] [] (some 7)).1
      resm := ((s.resm.addActor app ['x'] true none).1.startActor app ['x'] 7 9).1
      fm := (s.fm.addActor app ['x']).1 }
    let watched := { s with
      clients := { s.clients with depm := (s.clients.depm.startDevice app ['m'] ['d'] ['y'] [] (some 7)).1 }
      resm := ((s.resm.addActor app ['y'] true (some ⟨some true, false, none, none⟩)).1.startActor app ['y'] 7 9).1
      fm := (s.fm.addActor app ['y']).1 }
    ¬s.Answers host (.deviceGet ['a'] ['m'] ['d'] ['y'] []) ∧
      ¬running.Answers host (.deviceRel ['a'] ['m'] ['d'] ['x']) ∧
      ¬watched.Answers host (.deviceRel ['a'] ['m'] ['d'] ['y']) := by
  refine ⟨fun h => absurd h.pending ?_, fun h => absurd h.pending ?_, fun h => absurd h.pending ?_⟩ <;> decide +kernel

/-- Then no request is received any more. -/
theorem wedged {s : Deplo} (h : s.server.pending = true) (rs : List (Host × DeplReq)) : run request s rs = s := by
  induction rs with
  | nil => rfl
  | cons r rs ih => rw [run_cons, request, if_pos h, ih]

/-- As long as all requests are answerable, each has its reply. -/
theorem replies_run {s : Deplo} (h : s.server.pending = false) {rs : List (Host × DeplReq)}
    (hall : AllSteps request (fun t r => t.Answerable r.1 r.2) s rs) :
    (run request s rs).server.pending = false ∧
      (run request s rs).server.replies.length = s.server.replies.length + rs.length := by
  induction rs generalizing s with
  | nil => exact ⟨h, rfl⟩
  | cons r rs ih =>
    obtain ⟨hone, hrest⟩ := allSteps_cons.mp hall
    obtain ⟨rep, hrep⟩ : Answered s.server.replies (s.request r) := by
      rw [request, if_neg (by simp [h])]
      exact (s.answers_iff r.1 r.2).mpr hone
    obtain ⟨hready, hlength⟩ := ih (by rw [hrep]) hrest
    refine ⟨hready, hlength.trans ?_⟩
    simp only [hrep, List.length_append, List.length_cons, List.length_nil]
    omega

/-! ### The manager below -/

/-- A device is started in the manager, or an exception has left it as it was. -/
theorem startDevice_depm (appName appModel typeName instName : Text) (actorArgs : List Text) :
    Ends (startDevice host appName appModel typeName instName actorArgs) s
      (fun _ t => ∃ app ∈ AppName.ofText? appName, ∃ pid, t.clients.depm =
        (s.clients.depm.startDevice app appModel typeName instName actorArgs (some pid)).1)
      fun _ t => t.clients.depm = s.clients.depm := by
  simp only [startDevice, ends_bind, ends_found, ends_get, ends_check, ends_onResm, ends_update, ends_popen,
    ends_modify, imp_true_iff, and_true]
  exact fun app happ _ _ _ _ _ _ _ _ _ pid _ _ _ _ _ => ⟨app, happ, pid, rfl⟩

/-- A device is stopped in the manager, or what is left is what is left there when the other managers do not stop
it. -/
theorem stopDevice_depm {appName : Text} {app : AppName} (happ : app ∈ AppName.ofText? appName) (instName : Text) :
    Ends (stopDevice host appName instName) s
      (fun _ t => (t.clients.depm, true) = s.clients.depm.stopDevice .done app instName)
      fun _ t => (t.clients.depm, false) = s.clients.depm.stopDevice .unmanaged app instName := by
  have hkey := clientKey_eq happ instName
  cases hget : s.clients.depm.launchMap.get? (qualName app instName) with
  | none =>
    simp [stopDevice, hkey, hget, DeploymentManager.stopDevice_of_notMem _ (Dict.get?_eq_none_iff.mp hget)]
  | some proc =>
    have hunmanaged := DeploymentManager.stopDevice_of_fails hget (.inr rfl)
    by_cases hdevice : qualName app instName ∈ s.clients.depm.devices
    · have hstop := DeploymentManager.stopDevice_of_mem (r := .done) hget hdevice Stop.noConfusion
      simp [stopDevice, hkey, hget, hdevice, Option.mem_def.mp happ, hstop, hunmanaged]
    · simp [stopDevice, hkey, hget, hdevice, hunmanaged]

end Deplo

end Riaps.Deployment
