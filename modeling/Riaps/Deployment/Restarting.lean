import Riaps.Foundation.Runs
import Riaps.Deployment.ClientRequests
import Riaps.Deployment.Firewall

/-!
# Restarts

The thread of a process that has ended tells the manager, which starts the discovery service, the
actor or the device again and then replies. A restart is a sequence of steps that may fail: the old
process is stopped, an actor is taken from the discovery service, and the new process is started.

Nothing is caught on the way, neither in `handleProcmon` nor in the loop that calls it, and the stop
of an actor waits for the threads of its monitors, one of which is ended by an exception when it
measures a process that is gone. So there is a reply if none of the steps raises an exception or
waits for ever (`handles_iff`), and at the first message for which one does the loop comes no further
(`serves_iff`). What the steps need is read off them: `Restartable`.

The manager is that of the requests of clients, with what it has of the users of the apps. Rules of
the firewall are not followed here, only whether `setupAppNetwork` raises an exception.
-/

namespace Riaps.Deployment

open Riaps.Foundation

/-! ### The state -/

/-- The exceptions of a restart. -/
inductive RestartExn where
  | deplo (e : Exn)
  | valueError
  | unboundLocalError
  | kjException
  deriving DecidableEq

/-- What becomes of a request to the discovery service. -/
inductive DiscoAnswer where
  | notSent
  | noResponse
  /-- The response is no `DiscoRep`. -/
  | malformed
  | response (ok : Bool)
  deriving DecidableEq

/-- What the host does for a restart. -/
structure RestartHost extends Host where
  /-- The command `riaps_actor`; `fileNotFound` is also for a `PermissionError`. -/
  riapsActor : Popen
  /-- The command `riaps_disco`. -/
  riapsDisco : Popen
  /-- What `setupAppNetwork` reads: the hosts and the networks in the app's record, and the names that are resolved. -/
  launch : Launch
  cfg : SecurityConfig
  disco : DiscoAnswer

/-- The manager, with its users and its replies to the process monitors. -/
structure Restarter extends Deplo where
  /-- Of each user with a record, the id. -/
  users : Dict Text ℕ
  /-- The user of each app. -/
  appUser : Dict AppName Text
  /-- `getComponentTypes`, in the models: there are none of what has no instances. -/
  componentTypes : AppName → Text → Option (List Text)
  /-- The identities that a reply was sent to. -/
  procmon : List ℕ

/-- What restarts. -/
abbrev Restarting := EStateM RestartExn Restarter

/-- The process that is started, by the one program or else by `python3`. -/
def Popen.launched? : Popen → Popen → Option ℕ
  | .started pid, _ => some pid
  | .fileNotFound, .started pid => some pid
  | _, _ => none

/-- Setting up the network of an app for its user raises nothing. -/
def RestartHost.network (host : RestartHost) (userName : Text) : Bool :=
  match { host.launch with user := userName }.setupAppNetwork host.cfg [] with
  | .ok _ _ => true
  | .error _ _ => false

namespace Deplo

/-- `stopActor`. -/
def stopActor (host : Host) (appName : AppName) (actorName : Text) : Handler PUnit := do
  let s ← get
  let key := qualName appName actorName
  match s.clients.depm.launchMap.get? key with
  | none => pure ⟨⟩
  | some proc =>
    modify fun s => { s with clients := { s.clients with depm :=
      { s.clients.depm with launchMap := s.clients.depm.launchMap.del key } } }
    if key ∈ s.clients.depm.actors then
      onResm (stopActorExn host.parks appName actorName)
        (ResourceManager.stopActor host.parks appName actorName proc.pid)
      check .keyError (appName ∈ s.fm.appMap)
      check .assertionError (s.fm.Knows appName actorName)
      modify fun s => { s with clients := { s.clients with depm :=
        { s.clients.depm with
          procm := s.clients.depm.procm.release key
          submitted := s.clients.depm.submitted ++ [proc] } } }
      -- an actor that has registered has a device, whose sockets are closed
      check .zmqError (key ∈ s.clients.control → host.sockets = true)
      modify fun s => { s with clients := { s.clients with
        control := s.clients.control.del key
        depm := { s.clients.depm with actors := s.clients.depm.actors.del key } } }
      check .attributeError ((s.clients.depm.appDbase.getAppActor appName actorName).isSome = true)
      modify fun s => { s with clients := { s.clients with depm :=
        { s.clients.depm with appDbase := s.clients.depm.appDbase.delAppActor appName actorName } } }

end Deplo

namespace ResourceManager

variable {s : ResourceManager} {appName : AppName} {actorName : Text} {a : ActorResourceManager}

/-- The apps and the actors are the same. -/
def SameActors (s t : ResourceManager) : Prop :=
  (∀ app, app ∈ t.appMap ↔ app ∈ s.appMap) ∧ ∀ app actor, (t.actor? app actor).isSome = (s.actor? app actor).isSome

theorem SameActors.fits {t : ResourceManager} (h : SameActors s t) (usage : Option Usage) :
    t.Fits appName actorName usage ↔ s.Fits appName actorName usage := by
  rw [Fits, Fits, h.2]

end ResourceManager

namespace Restarter

/-- A step of the manager of the requests. -/
def onDeplo {α : Type} (x : Handler α) : Restarting α :=
  zoom toDeplo (fun d s => { s with toDeplo := d }) RestartExn.deplo x

/-- `psutil.Popen`, and again with `python3`. -/
def popen (e : Exn) (program python3 : Popen) : Restarting ℕ :=
  match program with
  | .started pid => pure pid
  | .failed => throw (.deplo .osError)
  | .fileNotFound =>
    match python3 with
    | .started pid => pure pid
    | .fileNotFound | .failed => throw (.deplo e)

/-! ### The discovery service -/

/-- `startDisco`. -/
def startDisco (host : RestartHost) : Restarting PUnit := do
  let s ← get
  check (.deplo .keyError) (host.cfg.targetUser ∈ s.users)
  let pid ← popen .osError host.riapsDisco host.python3
  modify fun s => { s with clients := { s.clients with depm := (s.clients.depm.startDisco (some pid)).1 } }
  check (.deplo .indexError) (host.listed = true)

/-- The loop of `reinstate`; whether there is a `record`, of this round or one before. A message goes out on its
control socket. -/
def reinstateAll : List (Text × Proc) → Bool → Restarting PUnit
  | [], _ => pure ⟨⟩
  | (key, proc) :: items, record => do
    let s ← get
    if proc ∈ s.clients.depm.ended then reinstateAll items record
    else
      let record := record || key ∈ s.clients.depm.actors || key ∈ s.clients.depm.devices
      check .unboundLocalError (record = true)
      reinstateAll items record

/-- `reinstate`. -/
def reinstate : Restarting PUnit := do
  let s ← get
  reinstateAll s.clients.depm.launchMap.items false

/-! ### Actors -/

/-- `unRegisterActor`: what cannot be sent or received is caught. -/
def unRegisterActor (host : RestartHost) : Restarting PUnit :=
  match host.disco with
  | .malformed => throw .kjException
  | .notSent | .noResponse | .response _ => pure ⟨⟩

/-- `startActor`. -/
def startActor (host : RestartHost) (appName : AppName) (appModel actorName : Text) (actorArgs : List Text) :
    Restarting PUnit := do
  let s ← get
  let model ← found (.deplo .buildError) (s.appModels.get? appName)
  check (.deplo .buildError) (host.appFolder appName = true)
  let usage ← found (.deplo .buildError) (Deplo.getActorModel model actorName)
  let componentTypes ← found (.deplo .keyError) (s.componentTypes appName actorName)
  check (.deplo .buildError) (∀ componentType ∈ componentTypes, host.implemented appName componentType = true)
  onDeplo (Deplo.onResm (Deplo.addActorExn appName) (ResourceManager.addActor appName actorName host.memFiles usage))
  onDeplo (update (fun _ => .buildError) fun s =>
    ({ s with fm := (s.fm.addActor appName actorName).1 }, (s.fm.addActor appName actorName).2))
  let userName ← found (.deplo .keyError) (s.appUser.get? appName)
  check (.deplo .keyError) (userName ∈ s.users)
  check (.deplo .buildError) (host.network userName = true)
  check (.deplo .osError) (host.logFile = true)
  let pid ← popen .buildError host.riapsActor host.python3
  check (.deplo .buildError) (host.exits = false)
  check (.deplo .indexError) (host.listed = true)
  onDeplo (Deplo.onResm (fun _ => .setupError) (ResourceManager.startActor appName actorName pid host.uid))
  let s ← get
  check (.deplo .assertionError) (s.fm.Knows appName actorName)
  modify fun s => { s with clients := (s.clients.startActor appName appModel actorName actorArgs (some pid)).1 }

/-! ### Messages of the process monitors -/

/-- `handleProcmon`, up to the reply. -/
def restart (host : RestartHost) (key : Text) : Restarting PUnit := do
  if key = DeploymentManager.discoName then
    startDisco host
    reinstate
  else
    let (appName, actorName) ← found .valueError (splitName key)
    let s ← get
    match s.clients.depm.actors.get? key, s.clients.depm.devices.get? key with
    | some record, _ =>
      check (.deplo .assertionError) (appName = record.app ∧ actorName = record.actor)
      check (.deplo .assertionError) (key ∈ s.clients.depm.launchMap)
      onDeplo (Deplo.stopActor host.toHost appName actorName)
      unRegisterActor host
      startActor host appName record.model actorName record.args
    | none, some record =>
      onDeplo (Deplo.stopDevice host.toHost appName.name actorName)
      onDeplo (Deplo.startDevice host.toHost appName.name record.model record.type record.inst record.args)
    | none, none => pure ⟨⟩

/-- `handleProcmon`, for a message with a name from the thread of an identity. -/
def handleProcmon (host : RestartHost) (identity : ℕ) (key : Text) : Restarting PUnit := do
  restart host key
  modify fun s => { s with procmon := s.procmon ++ [identity] }

/-- There is no exception, and one reply more. -/
def Handles (host : RestartHost) (identity : ℕ) (key : Text) (s : Restarter) : Prop :=
  Ends (handleProcmon host identity key) s (fun _ t => t.procmon = s.procmon ++ [identity]) fun _ _ => False

/-! ### What each step needs -/

section Rules

variable {s : Restarter} {E : RestartExn → Restarter → Prop}

@[simp] theorem ends_onDeplo {α : Type} (x : Handler α) {Q : α → Restarter → Prop} :
    Ends (onDeplo x) s Q E ↔
      Ends x s.toDeplo (fun a d => Q a { s with toDeplo := d }) fun e d => E (.deplo e) { s with toDeplo := d } := by
  rw [onDeplo, ends_zoom]

theorem popen_eq (e : Exn) (program python3 : Popen) :
    popen e program python3 =
      found (.deplo (if program = .failed then .osError else e)) (program.launched? python3) := by
  cases program <;> cases python3 <;> rfl

end Rules

variable {s : Restarter} (host : RestartHost)

/-! ### The discovery service again -/

/-- What a start reads is the same. -/
structure Keeps (s t : Deplo) : Prop where
  appModels : t.appModels = s.appModels
  fm : t.fm = s.fm
  resm : s.resm.SameActors t.resm

theorem leaves_reinstateAll {τ : Type} (g : Restarter → τ) (items : List (Text × Proc)) (record : Bool) :
    Leaves g (reinstateAll items record) := by
  intro s
  induction items generalizing record with
  | nil => rfl
  | cons i items ih =>
    obtain ⟨key, proc⟩ := i
    by_cases hended : proc ∈ s.clients.depm.ended <;> simp [reinstateAll, hended, ih]

/-- The app, its user and one actor that was started. -/
def oneActor (usage : Option Usage) : Restarter :=
  let app : AppName := ⟨['e'], by decide⟩
  let deplo := (Deplo.init .init ⟨true, true, true⟩ false ['u']).setupApp app ⟨Dict.empty.set ['x'] usage, .empty⟩
  let running := { deplo with
    clients := (deplo.clients.startActor app ['m'] ['x'] [] (some 7)).1
    resm := ((deplo.resm.addActor app ['x'] true usage).1.startActor app ['x'] 7 9).1
    fm := (deplo.fm.addActor app ['x']).1 }
  ⟨running, Dict.empty.set ['u'] 9, Dict.empty.set app ['u'], fun _ _ => some [['c']], []⟩

/-- A message that is handled has its reply. -/
theorem Handles.reply {host : RestartHost} {identity : ℕ} {key : Text} (h : Handles host identity key s) :
    (stateAfter (handleProcmon host identity key) s).procmon = s.procmon ++ [identity] :=
  (ends_stateAfter _ fun t : Restarter => t.procmon = s.procmon ++ [identity]).mpr
    (h.mono (fun _ _ => id) fun _ _ => False.elim)

/-- The main loop, at a message: an exception ends it, or it stays in a wait for ever. -/
def serve (s : Restarter × Bool) (m : RestartHost × ℕ × Text) : Restarter × Bool :=
  if s.2 then
    match handleProcmon m.1 m.2.1 m.2.2 s.1 with
    | .ok _ t => (t, true)
    | .error _ t => (t, false)
  else s

/-- An actor is stopped in the manager, or what has ended the stop is one of the results of a stop. -/
theorem stopActor_depm (appName : AppName) (actorName : Text) (d : Deplo) :
    Ends (Deplo.stopActor host.toHost appName actorName) d
      (fun _ t => (t.clients.depm, true) = d.clients.depm.stopActor .done appName actorName)
      fun _ t => ∃ r, (t.clients.depm, false) = d.clients.depm.stopActor r appName actorName := by
  cases hget : d.clients.depm.launchMap.get? (qualName appName actorName) with
  | none =>
    simp [Deplo.stopActor, hget, DeploymentManager.stopActor_of_notMem _ (Dict.get?_eq_none_iff.mp hget)]
  | some proc =>
    by_cases hactor : qualName appName actorName ∈ d.clients.depm.actors
    · have hunmanaged := DeploymentManager.stopActor_unmanaged hget hactor
      simp only [Deplo.stopActor, hget, hactor, if_true, ends_bind, ends_get, ends_modify, Deplo.ends_onResm,
        ends_check]
      -- the checks in their order: the resource manager, the fault manager twice, the sockets, the record
      refine ⟨fun _ => ⟨fun _ => ⟨fun _ => ⟨fun _ => ⟨fun hrecord => ?_, fun hrecord => ⟨.done, ?_⟩⟩,
        fun _ => ⟨.unclosed, (DeploymentManager.stopActor_unclosed hget hactor).symm⟩⟩,
        fun _ => ⟨_, hunmanaged.symm⟩⟩, fun _ => ⟨_, hunmanaged.symm⟩⟩, fun _ => ⟨_, hunmanaged.symm⟩⟩
      · rw [DeploymentManager.stopActor_of_mem hget hactor (AppDbase.getAppActor_isSome.mp hrecord)]
      · have hnone := Option.not_isSome_iff_eq_none.mp hrecord
        simp [DeploymentManager.stopActor, hget, hactor, hnone]
    · simp [Deplo.stopActor, hget, hactor, DeploymentManager.stopActor_of_notMem_actors _ hget hactor]

/-- An actor is started in the manager, or the manager is what it was. -/
theorem startActor_depm (appName : AppName) (appModel actorName : Text) (actorArgs : List Text) :
    Ends (startActor host appName appModel actorName actorArgs) s
      (fun _ t => ∃ pid, (t.clients.depm, true) =
        s.clients.depm.startActor appName appModel actorName actorArgs (some pid))
      fun _ t => t.clients.depm = s.clients.depm := by
  simp only [startActor, popen_eq, ends_bind, ends_get, ends_check, ends_found, ends_onDeplo, Deplo.ends_onResm,
    ends_update, ends_modify, imp_true_iff, and_true]
  intro _ _ _ _ _ _ _ _ _ _ _ _ _ _ _ pid _ _ _ _ _
  exact ⟨pid, Prod.ext (Clients.startActor_depm ..) rfl⟩

/-- The discovery service is started in the manager, and what is sent to the actors changes nothing. -/
theorem restartDisco_depm :
    Ends (startDisco host >>= fun _ => reinstate) s
      (fun _ t => ∃ pid, (t.clients.depm, true) = s.clients.depm.startDisco (some pid))
      fun _ t => ∃ pid, t.clients.depm = (s.clients.depm.startDisco pid).1 := by
  simp only [startDisco, popen_eq, reinstate, ends_bind, ends_get, ends_check, ends_found, ends_modify]
  refine ⟨fun _ => ⟨fun pid _ => ⟨fun _ => ?_, fun _ => ⟨some pid, rfl⟩⟩, fun _ => ⟨none, rfl⟩⟩, fun _ => ⟨none, rfl⟩⟩
  exact (leaves_reinstateAll (fun t => t.clients.depm) _ _ _).mono (fun _ t ht => ⟨pid, Prod.ext ht rfl⟩)
    fun _ t ht => ⟨some pid, ht⟩

/-- An actor is stopped and started in the manager, or the manager comes as far as it does. -/
theorem restartActor_depm (appName : AppName) (appModel actorName : Text) (actorArgs : List Text) :
    Ends (onDeplo (Deplo.stopActor host.toHost appName actorName) >>= fun _ => unRegisterActor host >>= fun _ =>
        startActor host appName appModel actorName actorArgs) s
      (fun _ t => ∃ pid, (t.clients.depm, true) =
        DeploymentManager.andThen (s.clients.depm.stopActor .done appName actorName) fun d =>
          d.startActor appName appModel actorName actorArgs (some pid))
      fun _ t => ∃ r pid, t.clients.depm =
        (DeploymentManager.andThen (s.clients.depm.stopActor r appName actorName) fun d =>
          d.startActor appName appModel actorName actorArgs pid).1 := by
  rw [ends_bind, ends_onDeplo]
  refine (stopActor_depm host appName actorName _).mono (fun _ d hd => ?_) fun _ t ht => ?_
  · simp only [← hd, DeploymentManager.andThen, if_true]
    have hunreg : Ends (unRegisterActor host) { s with toDeplo := d }
        (fun _ t => t = { s with toDeplo := d }) fun _ t => t = { s with toDeplo := d } := by
      rw [unRegisterActor]
      cases host.disco <;> simp
    -- what fails after the stop leaves what a start leaves that gets no process
    have hleft : ∀ t : Restarter, t.clients.depm = d.clients.depm → ∃ r pid, t.clients.depm =
        (DeploymentManager.andThen (s.clients.depm.stopActor r appName actorName) fun d =>
          d.startActor appName appModel actorName actorArgs pid).1 :=
      fun t ht => ⟨.done, none, by rw [← hd]; exact ht⟩
    rw [ends_bind]
    refine hunreg.mono (fun _ t ht => ?_) fun _ t ht => hleft t (by rw [ht])
    subst ht
    exact (startActor_depm host appName appModel actorName actorArgs).mono (fun _ _ => id) fun _ t => hleft t
  · obtain ⟨r, hstop⟩ := ht
    exact ⟨r, none, by rw [← hstop]; rfl⟩

/-- So is a device. -/
theorem restartDevice_depm (appName : AppName) (appModel typeName instName : Text) (actorName : Text)
    (actorArgs : List Text) :
    Ends (onDeplo (Deplo.stopDevice host.toHost appName.name actorName) >>= fun _ =>
        onDeplo (Deplo.startDevice host.toHost appName.name appModel typeName instName actorArgs)) s
      (fun _ t => ∃ pid, (t.clients.depm, true) =
        DeploymentManager.andThen (s.clients.depm.stopDevice .done appName actorName) fun d =>
          d.startDevice appName appModel typeName instName actorArgs (some pid))
      fun _ t => ∃ r pid, t.clients.depm =
        (DeploymentManager.andThen (s.clients.depm.stopDevice r appName actorName) fun d =>
          d.startDevice appName appModel typeName instName actorArgs pid).1 := by
  have hname : appName ∈ AppName.ofText? appName.name := dif_pos appName.dot_name
  simp only [ends_bind, ends_onDeplo]
  refine (Deplo.stopDevice_depm host.toHost hname actorName).mono (fun _ d hd => ?_) fun _ t ht => ?_
  · simp only [← hd, DeploymentManager.andThen, if_true]
    refine (Deplo.startDevice_depm host.toHost ..).mono (fun _ t ht => ?_) fun _ t ht => ?_
    · obtain ⟨app, happ, pid, hdepm⟩ := ht
      obtain rfl : appName = app := Option.some.inj (hname.symm.trans happ)
      exact ⟨pid, Prod.ext hdepm rfl⟩
    · exact ⟨.done, none, by rw [← hd]; exact ht⟩
  · exact ⟨.unmanaged, none, by rw [← ht]; rfl⟩

/-- **A restart is one of the manager's**: if it comes to its end, one where all goes well, and if it does not, what is
left is what is left there, for some result of the stop and some pid. -/
theorem restart_depm (key : Text) :
    Ends (restart host key) s
      (fun _ t => ∃ pid, (t.clients.depm, true) = s.clients.depm.handleProcmon .done key (some pid))
      fun _ t => ∃ r pid, t.clients.depm = (s.clients.depm.handleProcmon r key pid).1 := by
  by_cases hdisco : key = DeploymentManager.discoName
  · simp only [restart, DeploymentManager.handleProcmon, if_pos hdisco]
    exact (restartDisco_depm host).mono (fun _ _ => id) fun _ _ h => ⟨.done, h⟩
  rw [restart, if_neg hdisco, ends_bind, ends_found]
  refine ⟨fun named hsplit => ?_, fun hsplit => ⟨.done, none, ?_⟩⟩
  swap
  · simp only [DeploymentManager.handleProcmon, if_neg hdisco, hsplit]
  obtain ⟨appName, actorName⟩ := named
  rw [Option.mem_def] at hsplit
  dsimp only
  rw [ends_bind, ends_get]
  cases hactor : s.clients.depm.actors.get? key with
  | some record =>
    simp only [DeploymentManager.handleProcmon, if_neg hdisco, hsplit, hactor]
    rw [ends_bind, ends_check]
    refine ⟨fun hrecord => ?_, fun hrecord => ⟨.done, none, by rw [if_neg fun h => hrecord ⟨h.1, h.2.1⟩]⟩⟩
    rw [ends_bind, ends_check]
    refine ⟨fun hrun => ?_, fun hrun => ⟨.done, none, by rw [if_neg fun h => hrun h.2.2]⟩⟩
    have hguard : appName = record.app ∧ actorName = record.actor ∧ key ∈ s.clients.depm.launchMap :=
      ⟨hrecord.1, hrecord.2, hrun⟩
    simp only [if_pos hguard]
    exact restartActor_depm host appName record.model actorName record.args
  | none =>
    cases hdevice : s.clients.depm.devices.get? key with
    | some record =>
      simp only [DeploymentManager.handleProcmon, if_neg hdisco, hsplit, hactor, hdevice]
      exact restartDevice_depm host appName record.model record.type record.inst actorName record.args
    | none => exact ⟨0, by simp [DeploymentManager.handleProcmon, hdisco, hsplit, hactor, hdevice]⟩

end Restarter

end Riaps.Deployment
