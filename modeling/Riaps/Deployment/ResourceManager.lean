import Riaps.Foundation.PyText
import Riaps.Deployment.AppDbase
import Riaps.Deployment.Pausing

/-!
# The resource manager

The resource manager keeps an entry for each actor, with the limits of its usage
specification that are in force, and enters the actor into the monitors of these
limits when it is started and when it registers. A processor or a memory monitor
is the actor's own; those of space and of the network are shared by all actors
of the host, and tell an actor of an excess through the device of its
registration.

An operation is modelled by the state after it and whether it went through: an
exception leaves what was done before it, and so does a wait that does not end.
Who stops a monitor waits for its thread to come to a halt, and `parks` says of
the monitors of an actor whether their threads do (`stop_thread` says when). Threads
that were started are taken to have their ports, the process that is started to be
there, and `riaps_sudo` and the writes to control groups to raise nothing.
-/

namespace Riaps.Deployment

open Riaps.Foundation

/-- `actorIdentity`. -/
def actorIdentity (appName : AppName) (actorName : Text) (pid : ℕ) : Text :=
  qualName appName actorName ++ '-' :: strInt pid

/-! ### Monitors -/

/-- What the monitors of processor and memory usage have in common. -/
structure UsageMonitor where
  /-- The process that is monitored. -/
  proc : Option ℕ
  alive : Bool
  running : Bool
  /-- The identity of each actor's device. -/
  devices : Dict Text Text

namespace UsageMonitor

/-- A monitor that is not running yet. -/
def new : UsageMonitor := ⟨none, false, true, .empty⟩

/-- `setup`, and then `restart` or `start`. -/
def setup (pid : ℕ) (m : UsageMonitor) : UsageMonitor :=
  if m.alive then { m with proc := some pid, running := true } else { m with proc := some pid, alive := true }

/-- `stop`: it waits for `stopped`, for ever if the thread does not set it. -/
def stop (parks : Bool) (m : UsageMonitor) : UsageMonitor × Bool := ({ m with running := false }, parks)

/-- `addClientDevice`: it waits for a port, for ever if the monitor was never started. -/
def addClientDevice (appName : AppName) (actorName : Text) (m : UsageMonitor) : UsageMonitor × Bool :=
  match m.proc with
  | some pid =>
    ({ m with devices := m.devices.set (qualName appName actorName) (actorIdentity appName actorName pid) }, true)
  | none => (m, false)

/-- A monitor, by what the manager and the thread make of its flags. -/
def ofThread (proc : Option ℕ) (devices : Dict Text Text) (t : LimitMonitor) : UsageMonitor :=
  ⟨proc, t.alive, t.running, devices⟩

/-- **When a stop returns**: `stopActor` of an actor that is started clears `running`, and comes to its end exactly if
the thread has halted or is under way to it. -/
theorem stop_thread {k : LimitKind} {past : List LimitMonitor.Event} {t : LimitMonitor}
    (ht : t = run (LimitMonitor.step k) .init past) (hidle : t.manager = .idle) (hstarted : t.started = true)
    (proc : Option ℕ) (devices : Dict Text Text) :
    ((ofThread proc devices t).stop t.parks).1 = ofThread proc devices (t.step k .stopActor) ∧
      (((ofThread proc devices t).stop t.parks).2 = true ↔
        ∃ rest, (∀ e ∈ rest, LimitMonitor.Event.Own e) ∧
          (run (LimitMonitor.step k) (t.step k .stopActor) rest).manager = .idle) := by
  have hstop : t.step k .stopActor = { t with running := false, manager := .stop } := by
    simp [LimitMonitor.step, LimitMonitor.stopActor, hidle, hstarted]
  have hinv : LimitMonitor.Inv k (t.step k .stopActor) := (ht ▸ LimitMonitor.inv_run_init k past).step _
  have hstopping : LimitMonitor.Stopping (t.step k .stopActor) := by
    rw [hstop]
    exact .inl rfl
  have hparks : t.parks = true ↔ (t.step k .stopActor).stopped = true ∨ LimitMonitor.Under (t.step k .stopActor) := by
    rw [hstop, LimitMonitor.parks_iff]
    rfl
  refine ⟨by rw [hstop]; rfl, ⟨fun hreturns => ?_, fun hreturns => ?_⟩⟩
  · exact LimitMonitor.exists_returned hinv hstopping (hparks.mp hreturns)
  · by_contra hnot
    exact (LimitMonitor.hung_of_not hinv hstopping fun h => hnot (hparks.mpr h)).not_returned k hreturns

end UsageMonitor

/-- The state of a `SpcMonitorThread`. -/
structure SpcMonitor where
  uid2Name : Dict ℕ (List Text)
  name2Uid : Dict Text ℕ
  /-- The identity of each actor's device. -/
  devices : Dict Text Text
  /-- The identities that were told of an excess. -/
  notified : List Text
  /-- An exception has ended the thread. -/
  failed : Bool

namespace SpcMonitor

/-- `addProc`; the real user of the process is `uid`. -/
def addProc (key : Text) (uid : ℕ) (m : SpcMonitor) : SpcMonitor :=
  { m with
    uid2Name := m.uid2Name.set uid ((m.uid2Name.get? uid).getD [] ++ [key])
    name2Uid := m.name2Uid.set key uid }

/-- `delProc`. -/
def delProc (key : Text) (m : SpcMonitor) : SpcMonitor × Bool :=
  match m.name2Uid.get? key with
  | none => (m, false)
  | some uid =>
    match m.uid2Name.get? uid with
    | none => (m, false)
    | some names =>
      if key ∈ names then
        let m := { m with uid2Name := m.uid2Name.set uid (names.erase key), name2Uid := m.name2Uid.del key }
        if key ∈ m.devices then ({ m with devices := m.devices.del key }, true) else (m, false)
      else (m, false)

/-- `addClientDevice`. -/
def addClientDevice (appName : AppName) (actorName : Text) (pid : ℕ) (m : SpcMonitor) : SpcMonitor :=
  { m with devices := m.devices.set (qualName appName actorName) (actorIdentity appName actorName pid) }

/-- The loop over the names of a user; the first that has no device raises a `KeyError`. -/
def notifyAll : List Text → SpcMonitor → SpcMonitor × Bool
  | [], m => (m, true)
  | name :: names, m =>
    match m.devices.get? name with
    | some identity => notifyAll names { m with notified := m.notified ++ [identity] }
    | none => ({ m with failed := true }, false)

/-- A quota event of a user, in `run`. -/
def quotaEvent (uid : ℕ) (m : SpcMonitor) : SpcMonitor × Bool :=
  if m.failed then (m, true) else m.notifyAll ((m.uid2Name.get? uid).getD [])

end SpcMonitor

/-- The state of a `NetMonitorThread`. -/
structure NetMonitor where
  /-- The identity of each actor's device. -/
  devices : Dict Text Text
  pid2Key : Dict ℕ Text
  pid2Rate : Dict ℕ ℤ
  /-- The identities that were told of an excess. -/
  notified : List Text

namespace NetMonitor

/-- `'???'`. -/
def noKey : Text := ['?', '?', '?']

/-- `addProc`. -/
def addProc (pid : ℕ) (m : NetMonitor) : NetMonitor :=
  { m with pid2Key := m.pid2Key.set pid noKey, pid2Rate := m.pid2Rate.set pid 0 }

/-- `delProc`. -/
def delProc (key : Text) (pid : ℕ) (m : NetMonitor) : NetMonitor × Bool :=
  if key ∈ m.devices then
    let m := { m with devices := m.devices.del key }
    if pid ∈ m.pid2Key then
      let m := { m with pid2Key := m.pid2Key.del pid }
      if pid ∈ m.pid2Rate then ({ m with pid2Rate := m.pid2Rate.del pid }, true) else (m, false)
    else (m, false)
  else (m, false)

/-- `addClientDevice`; a rate that is no number counts as 0. -/
def addClientDevice (appName : AppName) (actorName : Text) (pid : ℕ) (rate : Option ℤ) (m : NetMonitor) : NetMonitor :=
  { m with
    devices := m.devices.set (qualName appName actorName) (actorIdentity appName actorName pid)
    pid2Key := m.pid2Key.set pid (qualName appName actorName)
    pid2Rate := m.pid2Rate.set pid (rate.getD 0) }

/-- `network_activity_callback`, with what the process sends in the unit of the rates. -/
def activity (pid uid : ℕ) (sent : ℤ) (m : NetMonitor) : NetMonitor × Bool :=
  if pid = 0 ∨ uid = 0 then (m, true)
  else
    match m.pid2Key.get? pid with
    | none => (m, true)
    | some key =>
      match m.pid2Rate.get? pid with
      | none => (m, false)
      | some rate =>
        if rate ≠ 0 ∧ sent > rate then
          match m.devices.get? key with
          | some identity => ({ m with notified := m.notified ++ [identity] }, true)
          | none => (m, false)
        else (m, true)

end NetMonitor

/-! ### The limits of an actor -/

/-- The usage specification of an actor, by what is done about it. -/
structure Usage where
  /-- The processor limit, and whether it is to be monitored (`max`). -/
  cpu : Option Bool
  /-- There is a memory limit. -/
  mem : Bool
  /-- The space limit, and whether it is a number: it is `None` if the model has no unit. -/
  spc : Option Bool
  /-- The network limit, and its rate where that is a number. -/
  net : Option (Option ℤ)

/-- What a host offers for the control of resources. -/
structure Cgroups where
  cpu : Bool
  mem : Bool
  net : Bool

/-- A processor limit: none, one that the control group enforces, or one that is monitored. -/
inductive CpuLimit where
  | none
  | group
  | monitor (m : UsageMonitor)

/-- The state of an `ActorResourceManager`. -/
structure ActorResourceManager where
  /-- `hasCPU`, `cpuMax` and `cpuMonitor`. -/
  cpu : CpuLimit
  /-- `hasMem` and `memMonitor`. -/
  mem : Option UsageMonitor
  hasSpace : Bool
  hasNet : Bool
  hasRate : Bool
  netRate : Option ℤ
  /-- `proc`, when there is a process. -/
  proc : Option ℕ
  /-- `started`: an actor without a usage specification has no such attribute until it is started. -/
  started : Option Bool

namespace ActorResourceManager

/-- The constructor: `none` when the quota of the app is raised by what is not a number. Of a memory limit, whether the
files of the control group can be used. -/
def new (cgroups : Cgroups) (memFiles : Bool) (usage : Option Usage) : Option ActorResourceManager :=
  match usage with
  | none => some ⟨.none, none, false, false, false, none, none, none⟩
  | some usage =>
    if usage.spc = some false then none
    else
      some {
        cpu := match usage.cpu with
          | none => .none
          | some false => .group
          | some true => .monitor .new
        mem := if usage.mem ∧ cgroups.mem ∧ memFiles then some .new else none
        hasSpace := usage.spc.isSome
        hasNet := usage.net.isSome ∧ cgroups.net
        hasRate := usage.net.isSome
        netRate := usage.net.join
        proc := none
        started := some false }

/-- What `startActor` does to the actor's own monitors and to its entry. -/
def start (pid : ℕ) (a : ActorResourceManager) : ActorResourceManager :=
  { a with
    cpu := match a.cpu with
      | .monitor m => .monitor (m.setup pid)
      | cpu => cpu
    mem := a.mem.map (·.setup pid)
    proc := some pid
    started := some true }

/-- What `stopActor` does to the actor's own monitors, the first of which may keep it from the second. -/
def halt (parks : LimitKind → Bool) (a : ActorResourceManager) : ActorResourceManager × Bool :=
  let cpu := match a.cpu with
    | .monitor m => (CpuLimit.monitor (m.stop (parks .cpu)).1, (m.stop (parks .cpu)).2)
    | cpu => (cpu, true)
  if cpu.2 then
    match a.mem with
    | some m => ({ a with cpu := cpu.1, mem := some (m.stop (parks .mem)).1 }, (m.stop (parks .mem)).2)
    | none => ({ a with cpu := cpu.1 }, true)
  else ({ a with cpu := cpu.1 }, false)

/-- The actor has a monitor of its own. -/
def watches (a : ActorResourceManager) : LimitKind → Bool
  | .cpu => match a.cpu with
    | .monitor _ => true
    | .none | .group => false
  | .mem => a.mem.isSome

/-- The actor's device goes to its own monitors. -/
def addClientDevice (appName : AppName) (actorName : Text) (a : ActorResourceManager) : ActorResourceManager × Bool :=
  let cpu := match a.cpu with
    | .monitor m =>
      ((CpuLimit.monitor (m.addClientDevice appName actorName).1), (m.addClientDevice appName actorName).2)
    | cpu => (cpu, true)
  if cpu.2 then
    match a.mem with
    | some m =>
      ({ a with cpu := cpu.1, mem := some (m.addClientDevice appName actorName).1 },
        (m.addClientDevice appName actorName).2)
    | none => ({ a with cpu := cpu.1 }, true)
  else (a, false)

/-- The actor's own monitors come to a halt if their threads do. -/
theorem halt_ok (parks : LimitKind → Bool) (a : ActorResourceManager) :
    (a.halt parks).2 = true ↔ ∀ k, a.watches k = true → parks k = true := by
  have hall : (∀ k, a.watches k = true → parks k = true) ↔
      (a.watches .cpu = true → parks .cpu = true) ∧ (a.watches .mem = true → parks .mem = true) :=
    ⟨fun h => ⟨h .cpu, h .mem⟩, fun h k => match k with | .cpu => h.1 | .mem => h.2⟩
  obtain ⟨cpu, mem, hasSpace, hasNet, hasRate, netRate, proc, started⟩ := a
  rw [hall, halt]
  cases cpu with
  | none | group => cases mem <;> simp [watches, UsageMonitor.stop]
  | monitor m =>
    by_cases hparks : parks .cpu = true
    · cases mem <;> simp [watches, UsageMonitor.stop, hparks]
    · simp [watches, UsageMonitor.stop, hparks]

end ActorResourceManager

/-! ### The manager -/

/-- The state of a `ResourceManager`. -/
structure ResourceManager where
  cgroups : Cgroups
  /-- The actors of each app. -/
  appMap : Dict AppName (Dict Text ActorResourceManager)
  spcMonitor : SpcMonitor
  /-- There is one if the host is set up so. -/
  netMonitor : Option NetMonitor

namespace ResourceManager

/-- The manager after its construction. -/
def init (cgroups : Cgroups) (netmon : Bool) : ResourceManager where
  cgroups := cgroups
  appMap := .empty
  spcMonitor := ⟨.empty, .empty, .empty, [], false⟩
  netMonitor := if netmon then some ⟨.empty, .empty, .empty, []⟩ else none

/-- One operation after another, unless the first raised an exception. -/
def andThen (r : ResourceManager × Bool) (f : ResourceManager → ResourceManager × Bool) : ResourceManager × Bool :=
  if r.2 then f r.1 else r

/-- The entry of an actor. -/
def actor? (appName : AppName) (actorName : Text) (s : ResourceManager) : Option ActorResourceManager :=
  (s.appMap.get? appName).bind fun actors => actors.get? actorName

/-- The entry of an actor is set. -/
def setActor (appName : AppName) (actorName : Text) (a : ActorResourceManager) (s : ResourceManager) :
    ResourceManager :=
  { s with appMap := s.appMap.set appName (((s.appMap.get? appName).getD .empty).set actorName a) }

/-- `setupApp`. -/
def setupApp (appName : AppName) (s : ResourceManager) : ResourceManager :=
  if appName ∈ s.appMap then s else { s with appMap := s.appMap.set appName .empty }

/-- `cleanupApp`. -/
def cleanupApp (appName : AppName) (s : ResourceManager) : ResourceManager × Bool :=
  if appName ∈ s.appMap then ({ s with appMap := s.appMap.del appName }, true) else (s, false)

/-- `addActor`. -/
def addActor (appName : AppName) (actorName : Text) (memFiles : Bool) (usage : Option Usage) (s : ResourceManager) :
    ResourceManager × Bool :=
  if appName ∈ s.appMap then
    match s.actor? appName actorName with
    | some _ => (s, true)
    | none =>
      match ActorResourceManager.new s.cgroups memFiles usage with
      | some a => (s.setActor appName actorName a, true)
      | none => (s, false)
  else (s, false)

/-- The space monitor of an actor that has a space limit. -/
def watchSpace (a : ActorResourceManager) (f : SpcMonitor → SpcMonitor × Bool) (s : ResourceManager) :
    ResourceManager × Bool :=
  if a.hasSpace then ({ s with spcMonitor := (f s.spcMonitor).1 }, (f s.spcMonitor).2) else (s, true)

/-- The network monitor of an actor whose traffic is limited. -/
def watchNet (limited : Bool) (f : NetMonitor → NetMonitor × Bool) (s : ResourceManager) : ResourceManager × Bool :=
  match s.netMonitor with
  | some net => if limited then ({ s with netMonitor := some (f net).1 }, (f net).2) else (s, true)
  | none => (s, true)

/-- `startActor`: the process is `pid`, of the user `uid`. -/
def startActor (appName : AppName) (actorName : Text) (pid uid : ℕ) (s : ResourceManager) : ResourceManager × Bool :=
  match s.actor? appName actorName with
  | none => (s, false)
  | some a =>
    let key := qualName appName actorName
    andThen (s.watchSpace a fun m => (m.addProc key uid, true)) fun s =>
      andThen (s.watchNet a.hasNet fun m => (m.addProc pid, true)) fun s =>
        (s.setActor appName actorName (a.start pid), true)

/-- `addClientDevice`. -/
def addClientDevice (appName : AppName) (actorName : Text) (s : ResourceManager) : ResourceManager × Bool :=
  match s.actor? appName actorName with
  | none => (s, false)
  | some a =>
    let own := a.addClientDevice appName actorName
    andThen (s.setActor appName actorName own.1, own.2) fun s =>
      match a.proc with
      | some pid =>
        andThen (s.watchSpace a fun m => (m.addClientDevice appName actorName pid, true)) fun s =>
          s.watchNet (a.hasNet || a.hasRate) fun m => (m.addClientDevice appName actorName pid a.netRate, true)
      | none =>
        -- `proc.pid` of `None`
        andThen (s.watchSpace a fun m => (m, false)) fun s => s.watchNet (a.hasNet || a.hasRate) fun m => (m, false)

/-- `stopActor`. -/
def stopActor (parks : LimitKind → Bool) (appName : AppName) (actorName : Text) (pid : ℕ) (s : ResourceManager) :
    ResourceManager × Bool :=
  match s.actor? appName actorName with
  | none => (s, false)
  | some a =>
    match a.started with
    | none => (s, false)
    | some false => (s, true)
    | some true =>
      let key := qualName appName actorName
      let own := a.halt parks
      andThen (s.setActor appName actorName own.1, own.2) fun s =>
        andThen (s.watchSpace a (SpcMonitor.delProc key)) fun s =>
          andThen (s.watchNet (a.hasNet || a.hasRate) (NetMonitor.delProc key pid)) fun s =>
            (s.setActor appName actorName { own.1 with started := some false }, true)

/-- A quota event of a user. -/
def quotaEvent (uid : ℕ) (s : ResourceManager) : ResourceManager × Bool :=
  ({ s with spcMonitor := (s.spcMonitor.quotaEvent uid).1 }, (s.spcMonitor.quotaEvent uid).2)

/-- A rate event of a process. -/
def rateEvent (pid uid : ℕ) (sent : ℤ) (s : ResourceManager) : ResourceManager × Bool :=
  s.watchNet true (NetMonitor.activity pid uid sent)

/-! ### What the operations do -/

variable {s : ResourceManager} {appName : AppName} {actorName : Text} {a : ActorResourceManager}

theorem actor?_setActor (s : ResourceManager) (appName app : AppName) (actorName actor : Text)
    (a : ActorResourceManager) :
    (s.setActor appName actorName a).actor? app actor =
      if qualName app actor = qualName appName actorName then some a else s.actor? app actor := by
  have hget : (s.setActor appName actorName a).actor? app actor =
      ((s.appMap.set appName (((s.appMap.get? appName).getD .empty).set actorName a)).get? app).bind
        fun actors => actors.get? actor := rfl
  rw [hget, Dict.get?_set]
  by_cases happ : app = appName
  · subst happ
    rw [if_pos rfl, Option.bind_some, Dict.get?_set]
    by_cases hactor : actor = actorName
    · simp [hactor]
    · rw [if_neg hactor, if_neg fun h => hactor (qualName_inj h).2, actor?]
      cases s.appMap.get? app <;> rfl
  · rw [if_neg happ, if_neg fun h => happ (qualName_inj h).1, actor?]

theorem actor?_congr {s' : ResourceManager} (h : s'.appMap.get? appName = s.appMap.get? appName) :
    s'.actor? appName actorName = s.actor? appName actorName := by
  rw [actor?, actor?, h]

@[simp] theorem andThen_ok (r : ResourceManager × Bool) (f : ResourceManager → ResourceManager × Bool) :
    (andThen r f).2 = true ↔ r.2 = true ∧ (f r.1).2 = true := by
  obtain ⟨s, ok⟩ := r
  cases ok <;> simp [andThen]

theorem andThen_of_ok {r : ResourceManager × Bool} (h : r.2 = true) (f : ResourceManager → ResourceManager × Bool) :
    andThen r f = f r.1 := if_pos h

@[simp] theorem watchSpace_ok (a : ActorResourceManager) (f : SpcMonitor → SpcMonitor × Bool) (s : ResourceManager) :
    (s.watchSpace a f).2 = true ↔ (a.hasSpace = true → (f s.spcMonitor).2 = true) := by
  by_cases h : a.hasSpace = true <;> simp [watchSpace, h]

theorem watchSpace_fst (a : ActorResourceManager) (f : SpcMonitor → SpcMonitor × Bool) (s : ResourceManager) :
    (s.watchSpace a f).1 = { s with spcMonitor := if a.hasSpace then (f s.spcMonitor).1 else s.spcMonitor } := by
  by_cases h : a.hasSpace = true <;> simp [watchSpace, h]

@[simp] theorem watchNet_ok (limited : Bool) (f : NetMonitor → NetMonitor × Bool) (s : ResourceManager) :
    (s.watchNet limited f).2 = true ↔ ∀ net ∈ s.netMonitor, limited = true → (f net).2 = true := by
  rw [watchNet]
  cases hnet : s.netMonitor with
  | none => simp
  | some net => cases limited <;> simp

theorem watchNet_fst (limited : Bool) (f : NetMonitor → NetMonitor × Bool) (s : ResourceManager) :
    (s.watchNet limited f).1 =
      { s with netMonitor := if limited then s.netMonitor.map fun net => (f net).1 else s.netMonitor } := by
  obtain ⟨cgroups, appMap, spc, net⟩ := s
  rw [watchNet]
  cases net <;> cases limited <;> rfl

/-- An actor that is known is started. -/
theorem startActor_eq (ha : s.actor? appName actorName = some a) (pid uid : ℕ) :
    s.startActor appName actorName pid uid =
      (setActor appName actorName (a.start pid) { s with
          spcMonitor := if a.hasSpace then s.spcMonitor.addProc (qualName appName actorName) uid else s.spcMonitor
          netMonitor := if a.hasNet then s.netMonitor.map (·.addProc pid) else s.netMonitor }, true) := by
  simp only [startActor, ha]
  rw [andThen_of_ok (by simp), andThen_of_ok (by simp), watchNet_fst, watchSpace_fst]

/-- An actor whose own monitors have its process gets its device entered. -/
theorem addClientDevice_eq (ha : s.actor? appName actorName = some a) {pid : ℕ} (hproc : a.proc = some pid)
    (hown : (a.addClientDevice appName actorName).2 = true) :
    s.addClientDevice appName actorName =
      ({ s.setActor appName actorName (a.addClientDevice appName actorName).1 with
          spcMonitor := if a.hasSpace then s.spcMonitor.addClientDevice appName actorName pid else s.spcMonitor
          netMonitor := if a.hasNet || a.hasRate then
            s.netMonitor.map (·.addClientDevice appName actorName pid a.netRate) else s.netMonitor }, true) := by
  simp only [addClientDevice, ha, hproc]
  rw [andThen_of_ok hown, andThen_of_ok (by simp)]
  refine Prod.ext ?_ ?_
  · rw [watchNet_fst, watchSpace_fst]
    rfl
  · simp

/-- An actor that was started is stopped, if its own monitors come to a halt and the others can delete it. -/
theorem stopActor_ok_iff (ha : s.actor? appName actorName = some a) (hstarted : a.started = some true)
    (parks : LimitKind → Bool) (pid : ℕ) :
    (s.stopActor parks appName actorName pid).2 = true ↔
      (∀ k, a.watches k = true → parks k = true) ∧
        (a.hasSpace = true → (s.spcMonitor.delProc (qualName appName actorName)).2 = true) ∧
        ∀ net ∈ s.netMonitor, (a.hasNet || a.hasRate) = true →
          (net.delProc (qualName appName actorName) pid).2 = true := by
  simp only [stopActor, ha, hstarted, andThen_ok, watchSpace_ok, watchNet_ok, watchSpace_fst, and_true,
    ActorResourceManager.halt_ok]
  rfl

/-- What is left of it. -/
theorem stopActor_fst (ha : s.actor? appName actorName = some a) (hstarted : a.started = some true)
    {parks : LimitKind → Bool} {pid : ℕ} (hok : (s.stopActor parks appName actorName pid).2 = true) :
    (s.stopActor parks appName actorName pid).1 =
      setActor appName actorName { (a.halt parks).1 with started := some false }
        { s.setActor appName actorName (a.halt parks).1 with
          spcMonitor := if a.hasSpace then (s.spcMonitor.delProc (qualName appName actorName)).1 else s.spcMonitor
          netMonitor := if a.hasNet || a.hasRate then
            s.netMonitor.map fun net => (net.delProc (qualName appName actorName) pid).1 else s.netMonitor } := by
  simp only [stopActor, ha, hstarted, andThen_ok] at hok ⊢
  rw [andThen_of_ok hok.1, andThen_of_ok hok.2.1, andThen_of_ok hok.2.2.1, watchNet_fst, watchSpace_fst]
  rfl

end ResourceManager

end Riaps.Deployment
