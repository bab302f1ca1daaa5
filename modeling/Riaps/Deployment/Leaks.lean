import Riaps.Deployment.DeploymentManager

/-!
# Processes that nobody terminates

A process that the manager started and that is alive should be the one in
`launchMap` under its key, or have been submitted for termination; after `stop`
it should have been submitted.

A process can go out of `launchMap` without being submitted. A start under a key
that is in use puts the new process in the place of the old one. `stopActor`
deletes the entry before it asks whether the key is an actor's, and returns if it
is not; `stopDevice` does the same, and raises. Both ask the resource and the
fault manager before they submit the process, and what these raise, or a wait
that has no end, leaves it where it is; a restart stops in the same way. And
`stop` halts every key as an actor, so that it submits no device, and none that
comes after a halt that does not go through. These are all the leaks: a run has
none exactly if it has no such step (`noLeak_iff`).
-/

namespace Riaps.Deployment

open Riaps.Foundation

namespace DeploymentManager

variable {s : DeploymentManager}

/-! ### What leaks -/

/-- A process has ended, or was submitted for termination. -/
def Settled (s : DeploymentManager) (p : Proc) : Prop := p ∈ s.ended ∨ p ∈ s.submitted

/-- A process of this manager that is alive is in `launchMap`, or was submitted. -/
def NoLeak (s : DeploymentManager) : Prop :=
  ∀ p ∈ s.started, p ∈ s.ended ∨ s.launchMap.get? p.key = some p ∨ p ∈ s.submitted

/-- Every process that is alive was submitted. -/
def AllSubmitted (s : DeploymentManager) : Prop := ∀ p ∈ s.started, p ∈ s.ended ∨ p ∈ s.submitted

/-- No process is alive under a key. -/
def Gone (s : DeploymentManager) (key : Text) : Prop := ∀ p ∈ s.launchMap.get? key, s.Settled p

/-- A call that takes no process out of `launchMap` without submitting it. -/
def KeepsCall (s : DeploymentManager) : Call → Prop
  | .startActor appName _ actorName _ pid => pid.isSome → s.Gone (qualName appName actorName)
  | .startDevice appName _ _ instName _ pid => pid.isSome → s.Gone (qualName appName instName)
  | .setupDisco _ => True
  | .haltActor r appName actorName =>
    qualName appName actorName ∈ s.actors ∧ r ≠ .unmanaged ∨ s.Gone (qualName appName actorName)
  | .stopDevice r appName instName =>
    qualName appName instName ∈ s.devices ∧ r ≠ .unmanaged ∨ s.Gone (qualName appName instName)

/-- An event that takes none. A restart does so if the managers do not stop a process that is alive. -/
def Keeps (s : DeploymentManager) : Event → Prop
  | .call c => s.KeepsCall c
  | .handleProcmon r key _ => r = .unmanaged → key ≠ discoName → key ∈ s.actors ∨ key ∈ s.devices → s.Gone key
  | .ended _ => True

/-- Of the keys that `stop` halts one after the other, those that it comes to: a halt that does not go through is the
last. -/
def reached (results : Text → Stop) (s : DeploymentManager) : List Text → List Text
  | [] => []
  | key :: toHalt => if key ∈ s.actors ∧ results key ≠ .done then [key] else key :: s.reached results toHalt

/-- What is alive when the manager is stopped is an actor's, the manager comes to it, and the managers of resources and
faults stop it. -/
def Stoppable (results : Text → Stop) (s : DeploymentManager) : Prop :=
  ∀ key ∈ s.launchMap,
    key ∈ s.actors ∧ results key ≠ .unmanaged ∧ key ∈ s.reached results s.launchMap.keys ∨ s.Gone key

instance (s : DeploymentManager) : Decidable s.NoLeak := inferInstanceAs (Decidable (∀ p ∈ s.started, _))

instance (s : DeploymentManager) : Decidable s.AllSubmitted := inferInstanceAs (Decidable (∀ p ∈ s.started, _))

/-! ### A step -/

theorem gone_of_notMem {key : Text} (h : key ∉ s.launchMap) : s.Gone key := by
  intro p hp
  rw [Dict.get?_eq_none_iff.mpr h] at hp
  exact absurd hp (Option.not_mem_none p)

/-- What does not leak and is not in the map is settled. -/
theorem NoLeak.settled (h : s.NoLeak) {p : Proc} (hp : p ∈ s.started) (hmap : s.launchMap.get? p.key ≠ some p) :
    s.Settled p := by
  rcases h p hp with hended | hget | hsubmitted
  · exact .inl hended
  · exact absurd hget hmap
  · exact .inr hsubmitted

/-- A process goes out of the map: no leak, if it is settled then. -/
theorem NoLeak.of_del {s' : DeploymentManager} {key : Text} (h : s.NoLeak) (hstarted : s'.started = s.started)
    (hended : s'.ended = s.ended) (hmap : s'.launchMap = s.launchMap.del key)
    (hsubmitted : s.submitted ⊆ s'.submitted) (hgone : ∀ p ∈ s.launchMap.get? key, s'.Settled p) : s'.NoLeak := by
  intro p hp
  rw [hstarted] at hp
  rcases h p hp with hend | hget | hsub
  · exact .inl (hended ▸ hend)
  · by_cases hkey : p.key = key
    · rcases hgone p (hkey ▸ hget) with hend | hsub
      · exact .inl hend
      · exact .inr (.inr hsub)
    · refine .inr (.inl ?_)
      rw [hmap, Dict.get?_del, if_neg hkey, hget]
  · exact .inr (.inr (hsubmitted hsub))

/-- A process that goes out of the map leaks, unless it is settled. -/
theorem Tables.noLeak_del (ht : Tables s) (h : s.NoLeak) (key : Text) :
    NoLeak { s with launchMap := s.launchMap.del key } ↔ s.Gone key := by
  constructor
  · intro hno p hp
    obtain ⟨rfl, hstarted⟩ := ht.launched key p hp
    refine hno.settled hstarted ?_
    show (s.launchMap.del p.key).get? p.key ≠ some p
    rw [Dict.get?_del, if_pos rfl]
    exact (Option.some_ne_none p).symm
  · intro hgone
    exact h.of_del rfl rfl rfl (List.Subset.refl _) hgone

/-- The process that had the key leaks, unless it is settled. -/
theorem Tables.noLeak_launch (ht : Tables s) (h : s.NoLeak) (act : ActorCommand) :
    (s.launch act).NoLeak ↔ s.Gone act.key := by
  constructor
  · intro hno p hp
    obtain ⟨hkey, hstarted⟩ := ht.launched act.key p hp
    refine hno.settled (List.mem_append_left _ hstarted) ?_
    show (s.launchMap.set act.key _).get? p.key ≠ some p
    rw [hkey, Dict.get?_set_self]
    -- the new process has a number of its own
    intro heq
    have hnum := ht.fresh p hstarted
    rw [← Option.some.inj heq] at hnum
    exact Nat.lt_irrefl _ hnum
  · intro hgone p hp
    show p ∈ s.ended ∨ (s.launchMap.set act.key _).get? p.key = some p ∨ p ∈ s.submitted
    rcases List.mem_append.mp hp with hold | hnew
    · by_cases hkey : p.key = act.key
      · rcases h p hold with hended | hget | hsubmitted
        · exact .inl hended
        · exact (hgone p (hkey ▸ hget)).imp_right .inr
        · exact .inr (.inr hsubmitted)
      · rw [Dict.get?_set_of_ne _ _ hkey]
        exact h p hold
    · obtain rfl := List.mem_singleton.mp hnew
      exact .inr (.inl (Dict.get?_set_self ..))

/-- A process of a key that is free does not make another leak. -/
theorem Tables.noLeak_launch_of_notMem (ht : Tables s) (h : s.NoLeak) (act : ActorCommand)
    (hkey : act.key ∉ s.launchMap) : (s.launch act).NoLeak :=
  (ht.noLeak_launch h act).mpr (gone_of_notMem hkey)

/-- An actor's process is submitted, unless the managers do not stop it. -/
theorem Tables.noLeak_stopActor (ht : Tables s) (h : s.NoLeak) (r : Stop) (appName : AppName) (actorName : Text) :
    (s.stopActor r appName actorName).1.NoLeak ↔
      qualName appName actorName ∈ s.actors ∧ r ≠ .unmanaged ∨ s.Gone (qualName appName actorName) := by
  have hsubmit : ∀ {s' : DeploymentManager} {proc : Proc}, s.launchMap.get? (qualName appName actorName) = some proc →
      s'.started = s.started → s'.ended = s.ended → s'.launchMap = s.launchMap.del (qualName appName actorName) →
      s'.submitted = s.submitted ++ [proc] → s'.NoLeak := by
    intro s' proc hget hstarted hended hmap hsubmitted
    refine h.of_del hstarted hended hmap (hsubmitted ▸ List.subset_append_left _ _) fun p hp => .inr ?_
    rw [hget, Option.mem_some_iff] at hp
    rw [hsubmitted]
    exact List.mem_append_right _ (List.mem_singleton.mpr hp.symm)
  rcases ht.stopActor_cases r appName actorName with ⟨hno, heq⟩ | ⟨proc, -, hactor, heq⟩ | ⟨proc, -, -, rfl, heq⟩ |
    ⟨proc, hget, hactor, rfl, heq⟩ | ⟨proc, hget, hactor, rfl, heq⟩
  all_goals rw [heq]
  · exact ⟨fun _ => .inr (gone_of_notMem hno), fun _ => h⟩
  · rw [or_iff_right fun hin => hactor hin.1]
    exact ht.noLeak_del h _
  · rw [or_iff_right fun hin => hin.2 rfl]
    exact ht.noLeak_del h _
  · exact ⟨fun _ => .inl ⟨hactor, Stop.noConfusion⟩, fun _ => hsubmit hget rfl rfl rfl rfl⟩
  · exact ⟨fun _ => .inl ⟨hactor, Stop.noConfusion⟩, fun _ => hsubmit hget rfl rfl rfl rfl⟩

/-- A device's process is submitted, if it is alive and the managers stop it. -/
theorem Tables.noLeak_stopDevice (ht : Tables s) (h : s.NoLeak) (r : Stop) (appName : AppName) (instName : Text) :
    (s.stopDevice r appName instName).1.NoLeak ↔
      qualName appName instName ∈ s.devices ∧ r ≠ .unmanaged ∨ s.Gone (qualName appName instName) := by
  rcases s.stopDevice_cases r appName instName with ⟨hno, heq⟩ | ⟨proc, -, hfails, heq⟩ |
    ⟨proc, hget, hdevice, hmanaged, heq⟩
  all_goals rw [heq]
  · exact ⟨fun _ => .inr (gone_of_notMem hno), fun _ => h⟩
  · rw [or_iff_right fun hin => hfails.elim (fun hno => hno hin.1) hin.2]
    exact ht.noLeak_del h _
  · refine ⟨fun _ => .inl ⟨hdevice, hmanaged⟩, fun _ => ?_⟩
    have hsubset : s.submitted ⊆ if proc ∈ s.ended then s.submitted else s.submitted ++ [proc] := by
      split_ifs
      · exact List.Subset.refl _
      · exact List.subset_append_left _ _
    refine h.of_del rfl rfl rfl hsubset fun p hp => ?_
    rw [hget, Option.mem_some_iff] at hp
    obtain rfl := hp
    by_cases hended : proc ∈ s.ended
    · exact .inl hended
    · refine .inr ?_
      show proc ∈ if proc ∈ s.ended then s.submitted else s.submitted ++ [proc]
      rw [if_neg hended]
      exact List.mem_append_right _ (List.mem_singleton_self _)

theorem NoLeak.startDisco (h : s.NoLeak) (pid : Option ℕ) : (s.startDisco pid).1.NoLeak := by
  cases pid with
  | none => exact h
  | some pid => exact h

/-- A start under a key that is free leaks nothing. -/
theorem Tables.noLeak_startActor_of_notMem (ht : Tables s) (h : s.NoLeak) {appName : AppName} {actorName : Text}
    (hkey : qualName appName actorName ∉ s.launchMap) (appModel : Text) (actorArgs : List Text) (pid : Option ℕ) :
    (s.startActor appName appModel actorName actorArgs pid).1.NoLeak := by
  cases pid with
  | none => exact h
  | some pid => exact ht.noLeak_launch_of_notMem h ⟨appName, appModel, actorName, actorArgs, pid, false⟩ hkey

theorem Tables.noLeak_startDevice_of_notMem (ht : Tables s) (h : s.NoLeak) {appName : AppName} {instName : Text}
    (hkey : qualName appName instName ∉ s.launchMap) (appModel typeName : Text) (actorArgs : List Text)
    (pid : Option ℕ) : (s.startDevice appName appModel typeName instName actorArgs pid).1.NoLeak := by
  cases pid with
  | none => exact h
  | some pid => exact ht.noLeak_launch_of_notMem h ⟨appName, appModel, instName, actorArgs, pid, true⟩ hkey

/-- A restart leaks what its stop leaks, when a stop that goes through leaks nothing and no start does. -/
theorem noLeak_andThen {o : Outcome} {f : DeploymentManager → Outcome} (hok : o.2 = true → o.1.NoLeak)
    (hf : o.1.NoLeak → (f o.1).1.NoLeak) : (andThen o f).1.NoLeak ↔ o.1.NoLeak := by
  cases h : o.2 with
  | false => rw [andThen_of_not_ok h]
  | true =>
    rw [andThen_of_ok h]
    exact iff_of_true (hf (hok h)) (hok h)

/-- What a restart stops is what the record is for, and then the key is free. -/
theorem Tables.noLeak_handleProcmon (ht : Tables s) (h : s.NoLeak) (r : Stop) (key : Text) (pid : Option ℕ) :
    (s.handleProcmon r key pid).1.NoLeak ↔
      (r = .unmanaged → key ≠ discoName → key ∈ s.actors ∨ key ∈ s.devices → s.Gone key) := by
  rcases ht.handleProcmon_cases r key pid with ⟨hdisco, heq⟩ | ⟨a, hdisco, hactor, rfl, hrun, heq⟩ |
    ⟨d, hdisco, -, hdevice, rfl, heq⟩ | ⟨-, -, hrun, heq⟩ | ⟨-, hactor, hdevice, heq⟩ <;> rw [heq]
  · exact iff_of_true (h.startDisco pid) fun _ hne => absurd hdisco hne
  · have hmem := Dict.mem_of_get? hactor
    have hstop := ht.noLeak_stopActor h r a.app a.actor
    have hok : (s.stopActor r a.app a.actor).2 = true → (s.stopActor r a.app a.actor).1.NoLeak := by
      intro hok
      refine hstop.mpr (.inl ⟨hmem, ?_⟩)
      rintro rfl
      obtain ⟨proc, hget⟩ := Dict.mem_iff_exists_get?.mp hrun
      rw [stopActor_unmanaged hget hmem] at hok
      exact Bool.false_ne_true hok
    refine (noLeak_andThen hok fun hno => ?_).trans (hstop.trans ?_)
    · exact (ht.stopActor ..).noLeak_startActor_of_notMem hno (notMem_stopActor s r a.app a.actor) _ _ pid
    · rw [and_iff_right hmem, imp_iff_right hdisco, imp_iff_right (Or.inl hmem), ne_eq, imp_iff_not_or]
  · have hmem := Dict.mem_of_get? hdevice
    have hstop := ht.noLeak_stopDevice h r d.app d.inst
    have hok : (s.stopDevice r d.app d.inst).2 = true → (s.stopDevice r d.app d.inst).1.NoLeak := by
      intro hok
      rcases s.stopDevice_cases r d.app d.inst with ⟨-, heq⟩ | ⟨proc, -, -, heq⟩ | ⟨proc, -, -, hmanaged, -⟩
      · rwa [heq]
      · rw [heq] at hok
        exact absurd hok Bool.false_ne_true
      · exact hstop.mpr (.inl ⟨hmem, hmanaged⟩)
    refine (noLeak_andThen hok fun hno => ?_).trans (hstop.trans ?_)
    · exact (ht.stopDevice ..).noLeak_startDevice_of_notMem hno (notMem_stopDevice s r d.app d.inst) _ _ _ pid
    · rw [and_iff_right hmem, imp_iff_right hdisco, imp_iff_right (Or.inr hmem), ne_eq, imp_iff_not_or]
  · exact iff_of_true h fun _ _ _ => gone_of_notMem hrun
  · exact iff_of_true h fun _ _ hin => absurd hin (not_or.mpr ⟨hactor, hdevice⟩)

/-- A call leaks no process exactly if it keeps them all. -/
theorem Tables.noLeak_call (ht : Tables s) (h : s.NoLeak) (c : Call) : (s.call c).1.NoLeak ↔ s.KeepsCall c := by
  cases c with
  | startActor appName appModel actorName actorArgs pid =>
    cases pid with
    | none => exact ⟨fun _ hpid => absurd hpid Bool.false_ne_true, fun _ => h⟩
    | some pid =>
      have hlaunch := ht.noLeak_launch h ⟨appName, appModel, actorName, actorArgs, pid, false⟩
      exact hlaunch.trans ⟨fun hgone _ => hgone, fun hgone => hgone rfl⟩
  | startDevice appName appModel typeName instName actorArgs pid =>
    cases pid with
    | none => exact ⟨fun _ hpid => absurd hpid Bool.false_ne_true, fun _ => h⟩
    | some pid =>
      have hlaunch := ht.noLeak_launch h ⟨appName, appModel, instName, actorArgs, pid, true⟩
      exact hlaunch.trans ⟨fun hgone _ => hgone, fun hgone => hgone rfl⟩
  | setupDisco pid => exact ⟨fun _ => trivial, fun _ => setupDisco_rule h (h.startDisco pid)⟩
  | haltActor r appName actorName => exact ht.noLeak_stopActor h r appName actorName
  | stopDevice r appName instName => exact ht.noLeak_stopDevice h r appName instName

theorem Tables.noLeak_step (ht : Tables s) (h : s.NoLeak) (e : Event) :
    (DeploymentManager.step s e).NoLeak ↔ s.Keeps e := by
  cases e with
  | call c => exact ht.noLeak_call h c
  | handleProcmon r key pid => exact ht.noLeak_handleProcmon h r key pid
  | ended proc =>
    refine ⟨fun _ => trivial, fun _ p hp => ?_⟩
    exact (h p hp).imp_left (List.mem_append_left _)

/-! ### The end -/

/-- What halting an actor submits, what it leaves, and whether it goes through. -/
theorem Tables.stopActor_submitted (ht : Tables s) (r : Stop) (appName : AppName) (actorName : Text)
    (hrun : qualName appName actorName ∈ s.launchMap) :
    (s.stopActor r appName actorName).1.started = s.started ∧
      (s.stopActor r appName actorName).1.ended = s.ended ∧
      (∀ p, p ∈ (s.stopActor r appName actorName).1.submitted ↔
        p ∈ s.submitted ∨ qualName appName actorName ∈ s.actors ∧ r ≠ .unmanaged ∧
          s.launchMap.get? (qualName appName actorName) = some p) ∧
      (∀ key ≠ qualName appName actorName, key ∈ (s.stopActor r appName actorName).1.actors ↔ key ∈ s.actors) ∧
      ((s.stopActor r appName actorName).2 = true ↔ ¬(qualName appName actorName ∈ s.actors ∧ r ≠ .done)) := by
  rcases ht.stopActor_cases r appName actorName with ⟨hno, -⟩ | ⟨proc, -, hactor, heq⟩ |
    ⟨proc, hget, hactor, rfl, heq⟩ | ⟨proc, hget, hactor, rfl, heq⟩ | ⟨proc, hget, hactor, rfl, heq⟩
  · exact absurd hrun hno
  all_goals rw [heq]
  · exact ⟨rfl, rfl, fun p => by simp [hactor], fun key _ => Iff.rfl, by simp [hactor]⟩
  · exact ⟨rfl, rfl, fun p => by simp, fun key _ => Iff.rfl, by simp [hactor]⟩
  · exact ⟨rfl, rfl, fun p => by simp [hactor, hget, eq_comm], fun key _ => Iff.rfl, by simp [hactor]⟩
  · exact ⟨rfl, rfl, fun p => by simp [hactor, hget, eq_comm], fun key hne => by simp [Dict.mem_del, hne], by simp⟩

/-- The keys that are reached are the same, when the actors are. -/
theorem reached_congr {s' : DeploymentManager} (results : Text → Stop) {toHalt : List Text}
    (h : ∀ key ∈ toHalt, key ∈ s'.actors ↔ key ∈ s.actors) : s'.reached results toHalt = s.reached results toHalt := by
  induction toHalt with
  | nil => rfl
  | cons key toHalt ih =>
    obtain ⟨hkey, hrest⟩ := List.forall_mem_cons.mp h
    simp only [reached, ih hrest, hkey]

theorem mem_of_mem_reached {results : Text → Stop} {toHalt : List Text} {key : Text}
    (h : key ∈ s.reached results toHalt) : key ∈ toHalt := by
  induction toHalt with
  | nil => exact h
  | cons k toHalt ih =>
    rw [reached] at h
    split_ifs at h
    · exact List.mem_cons.mpr (.inl (List.mem_singleton.mp h))
    · exact (List.mem_cons.mp h).elim (fun he => he ▸ List.mem_cons_self) fun hin => List.mem_cons_of_mem _ (ih hin)

/-- Of what runs, halting submits the actors that it comes to, unless the managers do not stop them. -/
theorem Tables.haltAll_submitted (ht : Tables s) (results : Text → Stop) {toHalt : List Text}
    (hmem : ∀ key ∈ toHalt, key ∈ s.launchMap) (hnodup : toHalt.Nodup) :
    (s.haltAll results toHalt).1.started = s.started ∧ (s.haltAll results toHalt).1.ended = s.ended ∧
      ∀ p, p ∈ (s.haltAll results toHalt).1.submitted ↔
        p ∈ s.submitted ∨ ∃ key ∈ s.reached results toHalt,
          key ∈ s.actors ∧ results key ≠ .unmanaged ∧ s.launchMap.get? key = some p := by
  induction toHalt generalizing s with
  | nil => simp [haltAll, reached]
  | cons key toHalt ih =>
    obtain ⟨hkey, htoHalt⟩ := List.forall_mem_cons.mp hmem
    obtain ⟨hnotMem, hrest⟩ := List.nodup_cons.mp hnodup
    obtain ⟨act, -, rfl⟩ := List.mem_map.mp (ht.recorded key hkey)
    obtain ⟨hstarted, hended, hsubmitted, hactors, hok⟩ :=
      ht.stopActor_submitted (results act.key) act.app act.actor hkey
    have hne : ∀ k ∈ toHalt, k ≠ act.key := fun k hk he => hnotMem (he ▸ hk)
    have hcons : s.haltAll results (act.key :: toHalt) =
        andThen (s.stopActor (results act.key) act.app act.actor) (haltAll results toHalt) := by
      rw [haltAll, ActorCommand.key, splitName_qualName]
      rfl
    rw [hcons, reached]
    by_cases hlast : act.key ∈ s.actors ∧ results act.key ≠ .done
    · -- the halt is the last
      have hfails : (s.stopActor (results act.key) act.app act.actor).2 = false :=
        Bool.eq_false_iff.mpr fun htrue => hok.mp htrue hlast
      rw [andThen_of_not_ok hfails, if_pos hlast]
      refine ⟨hstarted, hended, fun p => ?_⟩
      rw [hsubmitted p]
      simp [ActorCommand.key]
    · rw [andThen_of_ok (hok.mpr hlast), if_neg hlast]
      have hmem' : ∀ k ∈ toHalt, k ∈ (s.stopActor (results act.key) act.app act.actor).1.launchMap := by
        intro k hk
        rw [stopActor_launchMap, Dict.mem_del]
        exact ⟨htoHalt k hk, hne k hk⟩
      have hreached := reached_congr results fun k hk => hactors k (hne k hk)
      obtain ⟨hstarted', hended', hsubmitted'⟩ := ih (ht.stopActor ..) hmem' hrest
      refine ⟨hstarted'.trans hstarted, hended'.trans hended, fun p => ?_⟩
      rw [hsubmitted' p, hsubmitted p, hreached]
      simp only [List.mem_cons, or_and_right, exists_or, exists_eq_left, or_assoc]
      -- the keys that are left have what they had before
      refine or_congr_right (or_congr_right (exists_congr fun k => and_congr_right fun hk => ?_))
      have hk' := hne k (mem_of_mem_reached hk)
      have hget : (s.stopActor (results act.key) act.app act.actor).1.launchMap.get? k = s.launchMap.get? k := by
        rw [stopActor_launchMap, Dict.get?_del]
        exact if_neg hk'
      rw [hactors k hk', hget]

/-- What stopping submits: the actors that run and that it comes to. -/
theorem Tables.allSubmitted_stop (ht : Tables s) (h : s.NoLeak) (results : Text → Stop) :
    (s.stop results).1.AllSubmitted ↔ s.Stoppable results := by
  obtain ⟨hstarted, hended, hsubmitted⟩ :=
    ht.haltAll_submitted results (fun key hkey => hkey) s.launchMap.nodup
  have hstop : (s.stop results).1.AllSubmitted ↔ (s.haltAll results s.launchMap.keys).1.AllSubmitted := by
    rw [stop, andThen]
    split_ifs <;> rfl
  rw [hstop]
  unfold AllSubmitted Stoppable
  rw [hstarted, hended]
  constructor
  · intro hall key hkey
    by_cases hactor : key ∈ s.actors ∧ results key ≠ .unmanaged ∧ key ∈ s.reached results s.launchMap.keys
    · exact .inl hactor
    · refine .inr fun p hp => ?_
      obtain ⟨rfl, hp'⟩ := ht.launched key p hp
      refine (hall p hp').imp_right fun hsub => ?_
      rcases (hsubmitted p).mp hsub with hsub | ⟨k, hreached, hk, hmanaged, hget⟩
      · exact hsub
      · obtain ⟨rfl, -⟩ := ht.launched k p hget
        exact absurd ⟨hk, hmanaged, hreached⟩ hactor
  · intro hall p hp
    rw [hsubmitted p]
    rcases h p hp with hend | hget | hsub
    · exact .inl hend
    · rcases hall p.key (Dict.mem_of_get? hget) with ⟨hactor, hmanaged, hreached⟩ | hgone
      · exact .inr (.inr ⟨p.key, hreached, hactor, hmanaged, hget⟩)
      · exact (hgone p hget).imp_right .inl
    · exact .inr (.inl hsub)

/-- **Exactly the runs without a leak**: along them, and after `stop`. -/
theorem noLeak_iff (appDbase : AppDbase) (events : List Event) (results : Text → Stop) :
    Always step NoLeak (init appDbase) events ∧ ((run step (init appDbase) events).stop results).1.AllSubmitted ↔
      AllSteps step Keeps (init appDbase) events ∧ (run step (init appDbase) events).Stoppable results := by
  have hno : (init appDbase).NoLeak := fun p hp => absurd hp List.not_mem_nil
  have hiff : Always step NoLeak (init appDbase) events ↔ AllSteps step Keeps (init appDbase) events :=
    always_iff_allSteps (I := Tables) (fun s e ht _ => ht.step e) (fun s e ht h => ht.noLeak_step h e)
      (Tables.init appDbase) hno events
  have htables : Tables (run step (init appDbase) events) :=
    inv_run (I := Tables) (fun s e ht => ht.step e) (Tables.init appDbase) events
  constructor
  · rintro ⟨halways, hstop⟩
    exact ⟨hiff.mp halways, (htables.allSubmitted_stop halways.last results).mp hstop⟩
  · rintro ⟨hkeeps, hstop⟩
    have halways := hiff.mpr hkeeps
    exact ⟨halways, (htables.allSubmitted_stop halways.last results).mpr hstop⟩

/-- A device that is not stopped before the manager, an actor that is started once more, and one that the managers of
resources and faults do not stop. -/
theorem leak_device_actor :
    (¬ ((run step (init .init)
        [.call (.startDevice ⟨['a'], by decide⟩ ['m'] ['t'] ['d'] [] (some 7))]).stop fun _ => .done).1.AllSubmitted) ∧
      (¬ NoLeak (run step (init .init)
        [.call (.startActor ⟨['a'], by decide⟩ ['m'] ['x'] [] (some 7)),
          .call (.startActor ⟨['a'], by decide⟩ ['m'] ['x'] [] (some 8))])) ∧
      ¬ NoLeak (run step (init .init)
        [.call (.startActor ⟨['a'], by decide⟩ ['m'] ['x'] [] (some 7)),
          .call (.haltActor .unmanaged ⟨['a'], by decide⟩ ['x'])]) := by
  decide +kernel

end DeploymentManager

end Riaps.Deployment
