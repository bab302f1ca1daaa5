import Riaps.Deployment.DeploymentManager

/-!
# Recovery

A manager that is started finds the records of those that were there before it.
`recover` deletes them and kills their processes, if they are still there, so
that nothing of a former manager is left; it takes them off the discovery
service, and then starts the actors again, each with a record of its own. The
devices are left to their actors.

The manager can crash at any step of this, and all that the next one has is the
database. A record is in the database before it is deleted and after its actor
was started, and not in between. So recovery survives the crashes that find in
the database a record of each actor that should be there (`recovered_iff`), and
no other: what a crash finds without a record is never started again.
-/

namespace Riaps.Deployment

open Riaps.Foundation

/-- What a record is for: the actor or device, its model and its arguments. -/
def ActorCommand.program (r : ActorCommand) : Text × Text × List Text × Bool := (r.key, r.model, r.args, r.isdevice)

/-- What a process was started as. -/
def Proc.program (p : Proc) : Text × Text × List Text × Bool := (p.key, p.model, p.args, p.isdevice)

theorem ActorCommand.app_actor_eq {r r' : ActorCommand} (h : r.program = r'.program) :
    r.app = r'.app ∧ r.actor = r'.actor :=
  qualName_inj (Prod.mk.inj h).1

/-! ### The program -/

/-- Where a manager is in `recover`. -/
inductive RecoverState where
  | starting
  /-- The applications that are left, the records of this one that are left, and those that were read, one list for
  each application. -/
  | stopping (apps : List AppName) (acts : List ActorCommand) (cmds : List (List ActorCommand))
  | unregistering (recs : List ActorCommand) (cmds : List (List ActorCommand))
  | restarting (acts : List ActorCommand) (appSet : Bool) (cmds : List (List ActorCommand))
  | recovered
  deriving DecidableEq

/-- What a manager is going to restart. -/
def RecoverState.pending : RecoverState → List ActorCommand
  | .stopping _ acts cmds => acts ++ cmds.flatten
  | .unregistering _ cmds => cmds.flatten
  | .restarting acts _ cmds => acts ++ cmds.flatten
  | _ => []

/-- A manager that recovers. -/
structure Recovery where
  depm : DeploymentManager
  state : RecoverState
  /-- What could not be set up or started, by this manager or another before it. -/
  failed : List (Text × Text × List Text × Bool)

namespace DeploymentManager

/-- `stopOrphanActor`. -/
def stopOrphanActor (record : ActorCommand) (s : DeploymentManager) : DeploymentManager :=
  { s with appDbase := s.appDbase.delAppActor record.app record.actor }

/-- `setupApp`, which goes through or raises an exception. -/
def setupApp (appName : AppName) (ok : Bool) (s : DeploymentManager) : Outcome :=
  if ok then ({ s with appDbase := s.appDbase.addApp appName }, true) else (s, false)

end DeploymentManager

namespace Recovery

/-- A manager that is started on a database. -/
def init (appDbase : AppDbase) : Recovery := ⟨.init appDbase.reopen, .starting, []⟩

/-- The manager crashes, and another is started. -/
def crash (m : Recovery) : Recovery := { init m.depm.appDbase with failed := m.failed }

/-- The `except` branch. -/
def fail (act : ActorCommand) (m : Recovery) : Recovery :=
  { m with
    depm := { m.depm with appDbase := m.depm.appDbase.delAppActor act.app act.actor }
    failed := m.failed ++ [act.program] }

/-- The next step of `recover`: whether an application can be set up, and the pid of the process that is started,
are asked of the system. -/
def next (ok : Bool) (pid : Option ℕ) (m : Recovery) : Recovery :=
  match m.state with
  | .starting => { m with state := .stopping m.depm.appDbase.getApps [] [] }
  | .stopping apps (act :: acts) cmds =>
    { m with depm := m.depm.stopOrphanActor act, state := .stopping apps acts cmds }
  | .stopping (app :: apps) [] cmds =>
    let acts := m.depm.appDbase.getAppActors app
    { m with state := .stopping apps acts (cmds ++ [acts]) }
  -- disco is started here; the records are not touched
  | .stopping [] [] cmds => { m with state := .unregistering cmds.flatten cmds }
  | .unregistering (_ :: recs) cmds => { m with state := .unregistering recs cmds }
  | .unregistering [] cmds => { m with state := .restarting [] false cmds }
  | .restarting (act :: acts) false cmds =>
    let (depm, ok) := m.depm.setupApp act.app ok
    if ok then { m with depm := depm, state := .restarting (act :: acts) true cmds }
    else { m.fail act with state := .restarting acts false cmds }
  | .restarting (act :: acts) true cmds =>
    if act.isdevice then { m with state := .restarting acts true cmds }
    else
      let (depm, ok) := m.depm.startActor act.app act.model act.actor act.args pid
      if ok then { m with depm := depm, state := .restarting acts true cmds }
      else { m.fail act with state := .restarting acts true cmds }
  | .restarting [] _ (acts :: cmds) => { m with state := .restarting acts false cmds }
  | .restarting [] _ [] => { m with state := .recovered }
  | .recovered => m

/-- What happens to a manager that recovers. -/
inductive Event where
  | next (ok : Bool) (pid : Option ℕ)
  | crash
  deriving DecidableEq

/-- One event. -/
def step (m : Recovery) : Event → Recovery
  | .next ok pid => m.next ok pid
  | .crash => m.crash

/-! ### What should be -/

/-- Of the actors that had a record at first, each was started by this manager, or failed. -/
def Recovered (d : AppDbase) (m : Recovery) : Prop :=
  ∀ r ∈ d.listed, r.isdevice = false → r.program ∈ m.failed ∨ r.program ∈ m.depm.started.map Proc.program

/-- Of the actors that had a record at first, each has one, or failed. -/
def Recorded (d : AppDbase) (m : Recovery) : Prop :=
  ∀ r ∈ d.listed, r.isdevice = false →
    r.program ∈ m.failed ∨ r.program ∈ m.depm.appDbase.records.map ActorCommand.program

instance (d : AppDbase) (m : Recovery) : Decidable (Recovered d m) := inferInstanceAs (Decidable (∀ r ∈ d.listed, _))

/-! ### The records -/

/-- A deletion leaves the records of other applications, -/
theorem mem_records_delAppActor {d : AppDbase} {r : ActorCommand} {appName : AppName} (h : r.app ≠ appName)
    (hr : r.program ∈ d.records.map ActorCommand.program) (actorName : Text) :
    r.program ∈ (d.delAppActor appName actorName).records.map ActorCommand.program := by
  obtain ⟨r', hr', heq⟩ := List.mem_map.mp hr
  rw [((AppDbase.records_delAppActor ..).map _).mem_iff, ← heq]
  refine List.mem_map_of_mem (List.mem_filter.mpr ⟨hr', decide_eq_true fun hkey => h ?_⟩)
  rw [← (ActorCommand.app_actor_eq heq).1]
  exact (qualName_inj hkey).1

/-- and makes no record. -/
theorem mem_of_mem_records_delAppActor {d : AppDbase} {x : Text × Text × List Text × Bool} {appName : AppName}
    {actorName : Text} (h : x ∈ (d.delAppActor appName actorName).records.map ActorCommand.program) :
    x ∈ d.records.map ActorCommand.program := by
  rw [((AppDbase.records_delAppActor ..).map _).mem_iff] at h
  exact List.map_subset _ (List.filter_subset_self _) h

/-! ### What is due -/

/-- A record is still to be read, or to be restarted, or was restarted by this manager. -/
def Due (r : ActorCommand) (m : Recovery) : Prop :=
  match m.state with
  | .starting => r.program ∈ m.depm.appDbase.records.map ActorCommand.program
  | .stopping apps _ cmds =>
    r.app ∈ apps ∧ r.program ∈ m.depm.appDbase.records.map ActorCommand.program ∨
      r.program ∈ cmds.flatten.map ActorCommand.program
  | .unregistering _ cmds => r.program ∈ cmds.flatten.map ActorCommand.program
  | .restarting acts _ cmds =>
    r.program ∈ (acts ++ cmds.flatten).map ActorCommand.program ∨ r.program ∈ m.depm.started.map Proc.program
  | .recovered => r.program ∈ m.depm.started.map Proc.program

/-- What holds at each step of `recover`: the records that are being deleted are of applications that were read, and
each actor that should be there is due. -/
structure Running (d : AppDbase) (m : Recovery) : Prop where
  create : m.depm.appDbase.create = false
  apps : ∀ app ∈ d.apps, app ∈ m.depm.appDbase.apps
  read : ∀ apps acts cmds, m.state = .stopping apps acts cmds → apps.Nodup ∧ ∀ act ∈ acts, act.app ∉ apps
  due : ∀ r ∈ d.listed, r.isdevice = false → r.program ∈ m.failed ∨ Due r m

variable {d : AppDbase} {m : Recovery}

theorem Running.init (d : AppDbase) : Running d (init d) where
  create := rfl
  apps _ happ := happ
  read _ _ _ h := RecoverState.noConfusion h
  due _ hr _ := .inr (List.mem_map_of_mem (AppDbase.mem_listed.mp hr).2)

theorem Running.crash (h : Running d m) (hrecorded : Recorded d m) : Running d m.crash where
  create := rfl
  apps := h.apps
  read _ _ _ h := RecoverState.noConfusion h
  due := hrecorded

/-- The records of an application are read. -/
theorem Running.next_stopping {depm : DeploymentManager} {failed : List (Text × Text × List Text × Bool)}
    {apps : List AppName} {acts : List ActorCommand} {cmds : List (List ActorCommand)}
    (h : Running d ⟨depm, .stopping apps acts cmds, failed⟩) (ok : Bool) (pid : Option ℕ) :
    Running d (Recovery.next ok pid ⟨depm, .stopping apps acts cmds, failed⟩) := by
  obtain ⟨hnodup, hread⟩ := h.read apps acts cmds rfl
  cases acts with
  | cons act acts =>
    obtain ⟨hact, hacts⟩ := List.forall_mem_cons.mp hread
    refine ⟨h.create, h.apps, fun apps' acts' cmds' hstate => ?_, fun r hr hdev => ?_⟩
    · obtain ⟨rfl, rfl, rfl⟩ := RecoverState.stopping.inj hstate
      exact ⟨hnodup, hacts⟩
    · refine (h.due r hr hdev).imp_right fun hdue => hdue.imp_left fun hleft => ?_
      have hne : r.app ≠ act.app := fun he => hact (he ▸ hleft.1)
      exact ⟨hleft.1, mem_records_delAppActor hne hleft.2 _⟩
  | nil =>
    cases apps with
    | nil =>
      refine ⟨h.create, h.apps, fun _ _ _ hstate => RecoverState.noConfusion hstate, fun r hr hdev => ?_⟩
      exact (h.due r hr hdev).imp_right fun hdue => hdue.resolve_left fun hleft => List.not_mem_nil hleft.1
    | cons app apps =>
      obtain ⟨happ, hrest⟩ := List.nodup_cons.mp hnodup
      refine ⟨h.create, h.apps, fun apps' acts' cmds' hstate => ?_, fun r hr hdev => ?_⟩
      · obtain ⟨rfl, rfl, rfl⟩ := RecoverState.stopping.inj hstate
        exact ⟨hrest, fun act hact => AppDbase.app_of_mem_getAppActors hact ▸ happ⟩
      · refine (h.due r hr hdev).imp_right fun hdue => ?_
        show _ ∨ r.program ∈ (cmds ++ [depm.appDbase.getAppActors app]).flatten.map ActorCommand.program
        rw [List.flatten_append, List.map_append, List.mem_append, List.flatten_singleton]
        rcases hdue with ⟨hmem, hrecord⟩ | hcmds
        · rcases List.mem_cons.mp hmem with he | hmem
          · obtain ⟨r', hr', heq⟩ := List.mem_map.mp hrecord
            refine .inr (.inr (heq ▸ List.mem_map_of_mem ?_))
            rw [← he, ← (ActorCommand.app_actor_eq heq).1]
            exact AppDbase.mem_records.mp hr'
          · exact .inl ⟨hmem, hrecord⟩
        · exact .inr (.inl hcmds)

/-- An actor is restarted, or fails. -/
theorem Running.next_restarting {depm : DeploymentManager} {failed : List (Text × Text × List Text × Bool)}
    {act : ActorCommand} {acts : List ActorCommand} {appSet : Bool} {cmds : List (List ActorCommand)}
    (h : Running d ⟨depm, .restarting (act :: acts) appSet cmds, failed⟩) (ok : Bool) (pid : Option ℕ) :
    Running d (Recovery.next ok pid ⟨depm, .restarting (act :: acts) appSet cmds, failed⟩) := by
  have hdue : ∀ r ∈ d.listed, r.isdevice = false → r.program ∈ failed ∨ r.program = act.program ∨
      r.program ∈ (acts ++ cmds.flatten).map ActorCommand.program ∨ r.program ∈ depm.started.map Proc.program := by
    intro r hr hdev
    refine (h.due r hr hdev).imp_right fun hdue => ?_
    rcases hdue with hleft | hstarted
    · exact (List.mem_cons.mp hleft).imp_right .inl
    · exact .inr (.inr hstarted)
  have hfail : ∀ appSet', Running d
      { Recovery.fail act ⟨depm, .restarting (act :: acts) appSet cmds, failed⟩ with
        state := .restarting acts appSet' cmds } := by
    refine fun appSet' => ⟨h.create, h.apps, fun _ _ _ hstate => RecoverState.noConfusion hstate, fun r hr hdev => ?_⟩
    show r.program ∈ failed ++ [act.program] ∨ _
    rcases hdue r hr hdev with hfailed | hthis | hrest
    · exact .inl (List.mem_append_left _ hfailed)
    · exact .inl (List.mem_append_right _ (List.mem_singleton.mpr hthis))
    · exact .inr hrest
  cases appSet with
  | false =>
    cases ok with
    | true =>
      refine ⟨h.create, fun app happ => ?_, fun _ _ _ hstate => RecoverState.noConfusion hstate, h.due⟩
      show app ∈ if act.app ∈ depm.appDbase.apps then depm.appDbase.apps else depm.appDbase.apps ++ [act.app]
      split_ifs
      · exact h.apps app happ
      · exact List.mem_append_left _ (h.apps app happ)
    | false => exact hfail false
  | true =>
    obtain ⟨app, model, actor, args, oldPid, isdevice⟩ := act
    cases isdevice with
    | true =>
      refine ⟨h.create, h.apps, fun _ _ _ hstate => RecoverState.noConfusion hstate, fun r hr hdev => ?_⟩
      refine (hdue r hr hdev).imp_right fun hdue => hdue.resolve_left fun heq => ?_
      -- a device is left to its actor
      have hdev' : r.isdevice = true := (Prod.mk.inj (Prod.mk.inj (Prod.mk.inj heq).2).2).2
      rw [hdev] at hdev'
      exact Bool.noConfusion hdev'
    | false =>
      cases pid with
      | none => exact hfail true
      | some pid =>
        refine ⟨h.create, h.apps, fun _ _ _ hstate => RecoverState.noConfusion hstate, fun r hr hdev => ?_⟩
        refine (hdue r hr hdev).imp_right fun hdue => ?_
        show _ ∨ r.program ∈ (depm.started ++ [_]).map Proc.program
        rcases hdue with hthis | hrest | hstarted
        · exact .inr (List.mem_map.mpr ⟨_, List.mem_append_right _ (List.mem_singleton_self _), hthis.symm⟩)
        · exact .inl hrest
        · exact .inr (List.map_subset _ (List.subset_append_left _ _) hstarted)

/-- **A step of `recover` forgets no actor.** -/
theorem Running.next (h : Running d m) (ok : Bool) (pid : Option ℕ) : Running d (m.next ok pid) := by
  obtain ⟨depm, state, failed⟩ := m
  cases state with
  | starting =>
    have hcreate : depm.appDbase.create = false := h.create
    have happs : depm.appDbase.getApps = depm.appDbase.apps := by rw [AppDbase.getApps, hcreate]; rfl
    refine ⟨h.create, h.apps, fun apps acts cmds hstate => ?_, fun r hr hdev => ?_⟩
    · obtain ⟨rfl, rfl, rfl⟩ := RecoverState.stopping.inj hstate
      exact ⟨happs ▸ depm.appDbase.nodup_apps, by simp⟩
    · refine (h.due r hr hdev).imp_right fun hdue => .inl ⟨?_, hdue⟩
      exact happs ▸ h.apps r.app (AppDbase.mem_listed.mp hr).1
  | stopping apps acts cmds => exact h.next_stopping ok pid
  | unregistering recs cmds =>
    cases recs with
    | cons record recs => exact ⟨h.create, h.apps, fun _ _ _ hstate => RecoverState.noConfusion hstate, h.due⟩
    | nil =>
      refine ⟨h.create, h.apps, fun _ _ _ hstate => RecoverState.noConfusion hstate, fun r hr hdev => ?_⟩
      exact (h.due r hr hdev).imp_right .inl
  | restarting acts appSet cmds =>
    cases acts with
    | cons act acts => exact h.next_restarting ok pid
    | nil =>
      cases cmds with
      | cons acts cmds => exact ⟨h.create, h.apps, fun _ _ _ hstate => RecoverState.noConfusion hstate, h.due⟩
      | nil =>
        refine ⟨h.create, h.apps, fun _ _ _ hstate => RecoverState.noConfusion hstate, fun r hr hdev => ?_⟩
        exact (h.due r hr hdev).imp_right fun hdue => hdue.resolve_left List.not_mem_nil
  | recovered => exact h

/-! ### What is lost -/

/-- Nothing is known of an actor, and it did not fail. -/
structure Lost (x : Text × Text × List Text × Bool) (m : Recovery) : Prop where
  failed : x ∉ m.failed
  records : x ∉ m.depm.appDbase.records.map ActorCommand.program
  started : x ∉ m.depm.started.map Proc.program
  pending : x ∉ m.state.pending.map ActorCommand.program

variable {x : Text × Text × List Text × Bool}

/-- What is lost stays lost as long as less is known. -/
theorem Lost.of_subset (h : Lost x m) {m' : Recovery} (hfailed : m'.failed = m.failed)
    (hrecords : x ∈ m'.depm.appDbase.records.map ActorCommand.program →
      x ∈ m.depm.appDbase.records.map ActorCommand.program)
    (hstarted : x ∈ m'.depm.started.map Proc.program → x ∈ m.depm.started.map Proc.program)
    (hpending : ∀ r ∈ m'.state.pending, r ∈ m.state.pending ∨ r ∈ m.depm.appDbase.records) : Lost x m' where
  failed := hfailed ▸ h.failed
  records hx := h.records (hrecords hx)
  started hx := h.started (hstarted hx)
  pending hx := by
    obtain ⟨r, hr, rfl⟩ := List.mem_map.mp hx
    rcases hpending r hr with hold | hrecord
    · exact h.pending (List.mem_map_of_mem hold)
    · exact h.records (List.mem_map_of_mem hrecord)

theorem Lost.crash (h : Lost x m) : Lost x m.crash :=
  h.of_subset rfl id (fun hx => absurd hx List.not_mem_nil) fun _ hr => absurd hr List.not_mem_nil

theorem Lost.next_restarting {depm : DeploymentManager} {failed : List (Text × Text × List Text × Bool)}
    {act : ActorCommand} {acts : List ActorCommand} {appSet : Bool} {cmds : List (List ActorCommand)}
    (h : Lost x ⟨depm, .restarting (act :: acts) appSet cmds, failed⟩) (ok : Bool) (pid : Option ℕ) :
    Lost x (Recovery.next ok pid ⟨depm, .restarting (act :: acts) appSet cmds, failed⟩) := by
  have hthis : x ≠ act.program := fun he => h.pending (he ▸ List.mem_map_of_mem List.mem_cons_self)
  have hrest : x ∉ (acts ++ cmds.flatten).map ActorCommand.program :=
    fun hx => h.pending (List.map_subset _ (List.subset_cons_self _ _) hx)
  have hfail : ∀ appSet', Lost x
      { Recovery.fail act ⟨depm, .restarting (act :: acts) appSet cmds, failed⟩ with
        state := .restarting acts appSet' cmds } := by
    refine fun appSet' => ⟨fun hx => ?_, fun hx => h.records (mem_of_mem_records_delAppActor hx), h.started, hrest⟩
    rcases List.mem_append.mp hx with hx | hx
    · exact h.failed hx
    · exact hthis (List.mem_singleton.mp hx)
  cases appSet with
  | false =>
    cases ok with
    | true => exact ⟨h.failed, h.records, h.started, h.pending⟩
    | false => exact hfail false
  | true =>
    obtain ⟨app, model, actor, args, oldPid, isdevice⟩ := act
    cases isdevice with
    | true => exact ⟨h.failed, h.records, h.started, hrest⟩
    | false =>
      cases pid with
      | none => exact hfail true
      | some pid =>
        -- the new record and the new process are those of the actor that was pending
        refine ⟨h.failed, fun hx => ?_, fun hx => ?_, hrest⟩
        · have hx' := ((AppDbase.records_addAppActor _ depm.appDbase).map ActorCommand.program).mem_iff.mp hx
          rcases List.mem_cons.mp hx' with he | hold
          · exact hthis he
          · exact h.records hold
        · obtain ⟨p, hp, rfl⟩ := List.mem_map.mp hx
          rcases List.mem_append.mp hp with hold | hnew
          · exact h.started (List.mem_map_of_mem hold)
          · exact hthis (List.mem_singleton.mp hnew ▸ rfl)

/-- **What is lost is lost for good.** -/
theorem Lost.step (h : Lost x m) (e : Event) : Lost x (m.step e) := by
  cases e with
  | crash => exact h.crash
  | next ok pid =>
    obtain ⟨depm, state, failed⟩ := m
    cases state with
    | starting => exact h.of_subset rfl id id fun r hr => absurd hr List.not_mem_nil
    | stopping apps acts cmds =>
      cases acts with
      | cons act acts =>
        refine h.of_subset rfl mem_of_mem_records_delAppActor id fun r hr => .inl ?_
        exact List.mem_cons_of_mem _ hr
      | nil =>
        cases apps with
        | nil => exact h.of_subset rfl id id fun r hr => .inl hr
        | cons app apps =>
          refine h.of_subset rfl id id fun r hr => ?_
          have hread : r ∈ depm.appDbase.getAppActors app → r ∈ depm.appDbase.records := fun hmem =>
            AppDbase.mem_records.mpr ((AppDbase.app_of_mem_getAppActors hmem).symm ▸ hmem)
          have hr' : r ∈ depm.appDbase.getAppActors app ++ (cmds ++ [depm.appDbase.getAppActors app]).flatten := hr
          rw [List.flatten_append, List.flatten_singleton, List.mem_append, List.mem_append] at hr'
          rcases hr' with hmem | hmem | hmem
          · exact .inr (hread hmem)
          · exact .inl hmem
          · exact .inr (hread hmem)
    | unregistering recs cmds =>
      cases recs with
      | cons record recs => exact h.of_subset rfl id id fun r hr => .inl hr
      | nil => exact h.of_subset rfl id id fun r hr => .inl hr
    | restarting acts appSet cmds =>
      cases acts with
      | cons act acts => exact h.next_restarting ok pid
      | nil =>
        cases cmds with
        | cons acts cmds => exact h.of_subset rfl id id fun r hr => .inl hr
        | nil => exact h.of_subset rfl id id fun r hr => absurd hr List.not_mem_nil
    | recovered => exact h

/-! ### Crashes -/

/-- **Exactly the crashes that recovery survives.** -/
theorem recovered_iff (d : AppDbase) (events : List Event) (hend : (run step (init d) events).state = .recovered) :
    Recovered d (run step (init d) events) ↔
      AllSteps step (fun m e => e = .crash → Recorded d m) (init d) events := by
  constructor
  · rintro hrecovered pre _ ⟨rest, rfl⟩ rfl r hr hdev
    by_contra hno
    obtain ⟨hfailed, hrecords⟩ := not_or.mp hno
    rw [List.append_assoc, run_append] at hrecovered
    -- the next manager knows nothing of it, and no manager after it does
    have hlost : Lost r.program (run step (init d) pre).crash :=
      ⟨hfailed, hrecords, List.not_mem_nil, List.not_mem_nil⟩
    have hend := inv_run (I := Lost r.program) (fun m e hm => hm.step e) hlost rest
    exact (hrecovered r hr hdev).elim hend.failed hend.started
  · intro hcrashes
    have hrunning : Running d (run step (init d) events) := by
      refine hcrashes.inv (I := Running d) (fun m e hm he => ?_) (Running.init d)
      cases e with
      | next ok pid => exact hm.next ok pid
      | crash => exact hm.crash (he rfl)
    intro r hr hdev
    refine (hrunning.due r hr hdev).imp_right fun hdue => ?_
    unfold Due at hdue
    rw [hend] at hdue
    exact hdue

/-- A database with one actor. -/
def oneActor : AppDbase :=
    (AppDbase.init.addApp ⟨['a'], by decide⟩).addAppActor ⟨⟨['a'], by decide⟩, ['m'], ['x'], [], 7, false⟩

/-- A recovery without a crash. -/
theorem recovered_oneActor : Recovered oneActor
    (run step (init oneActor) (List.replicate 10 (.next true (some 8)))) := by
  have hnext : ∀ e ∈ List.replicate 10 (Event.next true (some 8)), e ≠ .crash := by simp
  refine (recovered_iff oneActor _ (by decide +kernel)).mpr ?_
  exact (AllSteps.of_forall_mem hnext _).mono fun m e he hcrash => absurd hcrash he

/-- A crash after the record was deleted. -/
theorem not_recovered_oneActor :
    (run step (init oneActor)
      (List.replicate 3 (.next true (some 8)) ++ .crash :: List.replicate 7 (.next true (some 9)))).state =
        .recovered ∧
      ¬ Recovered oneActor
        (run step (init oneActor)
          (List.replicate 3 (.next true (some 8)) ++ .crash :: List.replicate 7 (.next true (some 9)))) := by
  decide +kernel

end Recovery

end Riaps.Deployment
