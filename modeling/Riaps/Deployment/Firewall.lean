import Riaps.Foundation.Exceptions
import Riaps.Deployment.Recovery

/-!
# The firewall

When security is enabled, the user of an app may only send to the sites that the
app names. The manager sets this up before it starts the process of an actor,
with one rule for each site and a last one for all the others, and the record of
the actor in the database has the list of its rules. `stopActor` takes from there
what it deletes.

So the rules should be those of the actors that run. They are, as long as a start
that has set up rules goes through (`balanced_iff`): the list is in the record,
which is written after all that can fail, and so the rules of a start that fails
are never deleted. Nor are those of a process that is recorded a second time, of
an actor that could not be stopped, and of all that ran when the manager crashed:
`recover` deletes the records, and sets up the rules once more.

The steps are those of a manager that recovers and then serves; what is new is
what they do to the rules. The commands are taken to do what they say.
-/

namespace Riaps.Deployment

open Riaps.Foundation
open List (Perm)

/-! ### Setting up -/

/-- What becomes of a packet. -/
inductive Target where
  | accept
  | drop
  deriving DecidableEq

/-- A rule of the `OUTPUT` chain: what a user sends to a destination. -/
structure Rule where
  dest : Text
  user : Text
  target : Target
  deriving DecidableEq

/-- The parts of the configuration. -/
structure SecurityConfig where
  /-- `SECURITY`. -/
  security : Bool
  /-- `TARGET_USER`. -/
  targetUser : Text
  hostAddress : Text

/-- What a start depends on. -/
structure Launch where
  /-- All that is done before the network is set up raises nothing. -/
  ready : Bool
  /-- The user of the app, -/
  user : Text
  /-- and the hosts and the networks in its record. -/
  hosts : Option (List Text)
  network : Dict Text (Option (List Text))
  gethostbyname : Text → Option Text
  /-- The servers that `get_unix_dns_ips` finds, unless it raises. -/
  dns : Option (List Text)
  /-- The process, when all that is done after that raises nothing. -/
  pid : Option ℕ

namespace Launch

/-- `'127.0.0.1'`. -/
def localhost : Text := ['1', '2', '7', '.', '0', '.', '0', '.', '1']

/-- `'0.0.0.0/0'`. -/
def anywhere : Text := ['0', '.', '0', '.', '0', '.', '0', '/', '0']

/-- Setting up: the rules so far are the list in the record. -/
abbrev Setup := EStateM PUnit (List Rule)

variable (l : Launch)

/-- `setupAppSite`; nothing is ever put in `done`. -/
def setupAppSite (site : Text) : Setup PUnit := do
  let host ← found ⟨⟩ (l.gethostbyname site)
  modify fun firewall => firewall ++ [⟨host, l.user, .accept⟩]

/-- `setupAppDNS`. -/
def setupAppDNS : Setup PUnit := do
  let ips ← found ⟨⟩ l.dns
  ips.forM l.setupAppSite

/-- `setupAppNetworkSites`: whether any network may be accessed. -/
def setupAppNetworkSites (sites : Option (List Text)) : Setup Bool := do
  match sites with
  | none => pure false
  | some [] => pure true
  | some (site :: sites) =>
    (site :: sites).forM fun site => if site = ['d', 'n', 's'] then l.setupAppDNS else l.setupAppSite site
    pure false

/-- `setupAppNetwork`. -/
def setupAppNetwork (cfg : SecurityConfig) : Setup PUnit :=
  if cfg.security = false ∨ l.user = cfg.targetUser then pure ⟨⟩
  else do
    l.setupAppSite localhost
    -- what is returned for the hosts is not used
    let _ ← l.setupAppNetworkSites l.hosts
    if ← l.setupAppNetworkSites (l.network.get? ['[', ']']).join then pure ⟨⟩
    else if ← l.setupAppNetworkSites (l.network.get? cfg.hostAddress).join then pure ⟨⟩
    else modify fun firewall => firewall ++ [⟨anywhere, l.user, .drop⟩]

/-- The rules that a start installs. -/
def installed (cfg : SecurityConfig) : List Rule := if l.ready then stateAfter (l.setupAppNetwork cfg) [] else []

/-- The process of a start that goes through. -/
def result (cfg : SecurityConfig) : Option ℕ :=
  if l.ready then
    match l.setupAppNetwork cfg [] with
    | .ok _ _ => l.pid
    | .error _ _ => none
  else none

/-- The start comes to where it restricts the user. -/
def Restricts (cfg : SecurityConfig) : Prop :=
  l.ready = true ∧ cfg.security = true ∧ l.user ≠ cfg.targetUser ∧ (l.gethostbyname localhost).isSome

theorem setupAppSite_prefix (site : Text) (firewall : List Rule) {rules : List Rule} (h : rules <+: firewall) :
    Ends (l.setupAppSite site) firewall (fun _ t => rules <+: t) fun _ t => rules <+: t := by
  simp only [setupAppSite, ends_bind, ends_found, ends_modify]
  exact ⟨fun _ _ => h.trans (List.prefix_append ..), fun _ => h⟩

theorem setupAppNetworkSites_prefix (sites : Option (List Text)) {rules firewall : List Rule}
    (h : rules <+: firewall) :
    Ends (l.setupAppNetworkSites sites) firewall (fun _ t => rules <+: t) fun _ t => rules <+: t := by
  have hdns : ∀ t, rules <+: t → Ends l.setupAppDNS t (fun _ u => rules <+: u) fun _ u => rules <+: u := by
    intro t ht
    simp only [setupAppDNS, ends_bind, ends_found]
    exact ⟨fun ips _ => ends_forM (fun ip _ u hu => l.setupAppSite_prefix ip u hu) ht, fun _ => ht⟩
  obtain _ | _ | ⟨site, sites⟩ := sites
  · exact h
  · exact h
  · simp only [setupAppNetworkSites, ends_bind, ends_pure]
    refine ends_forM (fun site _ t ht => ?_) h
    split_ifs
    exacts [hdns t ht, l.setupAppSite_prefix site t ht]

/-- The rule of the host itself. -/
def hostRule (host : Text) : Rule := ⟨host, l.user, .accept⟩

/-- It is the first one, and the others come after it. -/
theorem setupAppNetwork_prefix {cfg : SecurityConfig} (hsecurity : cfg.security = true)
    (huser : l.user ≠ cfg.targetUser) {host : Text} (hhost : l.gethostbyname localhost = some host) :
    Ends (l.setupAppNetwork cfg) [] (fun _ t => [l.hostRule host] <+: t) fun _ t => [l.hostRule host] <+: t := by
  have hsites (sites : Option (List Text)) {t : List Rule} (ht : [l.hostRule host] <+: t) :=
    l.setupAppNetworkSites_prefix sites ht
  simp only [setupAppNetwork, hsecurity, huser, Bool.true_eq_false, or_self, if_false, ends_bind, setupAppSite, hhost]
  refine (ends_found ..).mpr ⟨fun _ hb => ?_, fun h => absurd h (Option.some_ne_none _)⟩
  obtain rfl := Option.some.inj hb
  refine (hsites _ (List.prefix_refl _)).mono (fun _ t ht => ?_) fun _ t ht => ht
  refine (hsites _ ht).mono (fun any t ht => ?_) fun _ t ht => ht
  cases any with
  | true => exact ht
  | false =>
    rw [if_neg Bool.false_ne_true, ends_bind]
    refine (hsites _ ht).mono (fun any t ht => ?_) fun _ t ht => ht
    cases any with
    | true => exact ht
    | false => exact ht.trans (List.prefix_append ..)

theorem installed_eq_nil (cfg : SecurityConfig) : l.installed cfg = [] ↔ ¬l.Restricts cfg := by
  by_cases hready : l.ready = true
  · rw [installed, if_pos hready]
    by_cases hexempt : cfg.security = false ∨ l.user = cfg.targetUser
    · rw [setupAppNetwork, if_pos hexempt]
      refine iff_of_true rfl fun h => ?_
      rcases hexempt with hsecurity | huser
      · exact absurd (hsecurity.symm.trans h.2.1) Bool.false_ne_true
      · exact h.2.2.1 huser
    · obtain ⟨hsecurity, huser⟩ := not_or.mp hexempt
      rw [Bool.not_eq_false] at hsecurity
      cases hhost : l.gethostbyname localhost with
      | none =>
        refine iff_of_true ((ends_stateAfter _ (· = [])).mpr ?_) fun h => absurd h.2.2.2 (by simp [hhost])
        simp [setupAppNetwork, hsecurity, huser, setupAppSite, hhost]
      | some host =>
        refine iff_of_false (fun h => ?_) (not_not_intro ⟨hready, hsecurity, huser, by simp [hhost]⟩)
        have hprefix := (ends_stateAfter (l.setupAppNetwork cfg) ([l.hostRule host] <+: ·)).mpr
          (l.setupAppNetwork_prefix hsecurity huser hhost)
        rw [h, List.prefix_nil] at hprefix
        exact List.cons_ne_nil _ _ hprefix
  · exact iff_of_true (if_neg hready) fun h => hready h.1

end Launch

/-! ### The manager -/

/-- Actors are started in this state. -/
def RecoverState.Starts : RecoverState → Prop
  | .restarting .. | .recovered => True
  | _ => False

/-- A manager that recovers and then serves, with its rules. -/
structure FirewalledManager extends Recovery where
  /-- The rules that are installed. -/
  rules : List Rule
  /-- Of each actor, the lists in its records in the database. -/
  firewalls : Dict Text (List (List Rule))

namespace FirewalledManager

/-- A manager over a new database. -/
def init : FirewalledManager := ⟨⟨.init .init, .starting, []⟩, [], .empty⟩

/-- The lists of an actor. -/
def lists (s : FirewalledManager) (key : Text) : List (List Rule) := (s.firewalls.get? key).getD []

/-- `getAppActor(appName, actorName).firewall`; an actor without a record has no rule. -/
def firewall (s : FirewalledManager) (key : Text) : List Rule := (s.lists key).head?.getD []

/-- `undoAppNetwork`. -/
def undoAppNetwork (cfg : SecurityConfig) (firewall rules : List Rule) : List Rule :=
  if cfg.security then firewall.foldl List.erase rules else rules

variable (cfg : SecurityConfig)

/-- `startActor`. -/
def startActor (l : Launch) (appName : AppName) (appModel actorName : Text) (actorArgs : List Text)
    (s : FirewalledManager) : FirewalledManager × Bool :=
  if l.ready then
    match l.setupAppNetwork cfg [] with
    | .error _ firewall => ({ s with rules := s.rules ++ firewall }, false)
    | .ok _ firewall =>
      let s := { s with rules := s.rules ++ firewall }
      match l.pid with
      | none => (s, false)
      | some pid =>
        let key := qualName appName actorName
        ({ s with
            depm := (s.depm.startActor appName appModel actorName actorArgs (some pid)).1
            firewalls := s.firewalls.set key (s.lists key ++ [firewall]) }, true)
  else (s, false)

/-- `stopActor`; whether nothing fails before the rules are deleted. -/
def stopActor (ok : Bool) (appName : AppName) (actorName : Text) (s : FirewalledManager) : FirewalledManager × Bool :=
  let key := qualName appName actorName
  if key ∈ s.depm.launchMap ∧ key ∈ s.depm.actors then
    if ok then
      let depm := (s.depm.stopActor .done appName actorName).1
      match s.lists key with
      -- `None` has no firewall
      | [] => ({ s with depm := depm }, false)
      | firewall :: _ =>
        ({ s with
            depm := depm
            rules := undoAppNetwork cfg firewall s.rules
            firewalls := s.firewalls.del key }, true)
    else ({ s with depm := { s.depm with launchMap := s.depm.launchMap.del key } }, false)
  else
    let r := s.depm.stopActor .done appName actorName
    ({ s with depm := r.1 }, r.2)

/-- `handleProcmon` restarts the actor. -/
def Restarts (key : Text) (appName : AppName) (actorName : Text) (record : ActorRecord) (s : FirewalledManager) :
    Prop :=
  key ≠ DeploymentManager.discoName ∧ appName = record.app ∧ actorName = record.actor ∧ key ∈ s.depm.launchMap

instance (key : Text) (appName : AppName) (actorName : Text) (record : ActorRecord) (s : FirewalledManager) :
    Decidable (s.Restarts key appName actorName record) := inferInstanceAs (Decidable (_ ∧ _))

/-- `handleProcmon`. There is no device here, and the other cases touch no rule. -/
def handleProcmon (ok : Bool) (key : Text) (l : Launch) (s : FirewalledManager) : FirewalledManager × Bool :=
  match splitName key, s.depm.actors.get? key with
  | some (appName, actorName), some record =>
    if s.Restarts key appName actorName record then
      let r := s.stopActor cfg ok appName actorName
      if r.2 then r.1.startActor cfg l appName record.model actorName record.args else r
    else ({ s with depm := (s.depm.handleProcmon .done key l.pid).1 }, (s.depm.handleProcmon .done key l.pid).2)
  | _, _ => ({ s with depm := (s.depm.handleProcmon .done key l.pid).1 }, (s.depm.handleProcmon .done key l.pid).2)

/-- The `except` branch of `recover`. -/
def fail (act : ActorCommand) (s : FirewalledManager) : FirewalledManager :=
  { s with toRecovery := s.toRecovery.fail act, firewalls := s.firewalls.del act.key }

/-- The next step of `recover`. -/
def next (ok : Bool) (l : Launch) (s : FirewalledManager) : FirewalledManager :=
  match s.state with
  | .stopping _ (act :: _) _ =>
    { s with toRecovery := s.toRecovery.next ok none, firewalls := s.firewalls.del act.key }
  | .restarting (act :: acts) false cmds =>
    if ok then { s with toRecovery := s.toRecovery.next true none }
    else { s.fail act with state := .restarting acts false cmds }
  | .restarting (act :: acts) true cmds =>
    if act.isdevice then { s with state := .restarting acts true cmds }
    else
      let r := s.startActor cfg l act.app act.model act.actor act.args
      if r.2 then { r.1 with state := .restarting acts true cmds }
      else { r.1.fail act with state := .restarting acts true cmds }
  | _ => { s with toRecovery := s.toRecovery.next ok none }

/-- What happens to a manager. -/
inductive Event where
  | setupApp (appName : AppName) (ok : Bool)
  | startActor (appName : AppName) (appModel actorName : Text) (actorArgs : List Text) (l : Launch)
  | stopActor (ok : Bool) (appName : AppName) (actorName : Text)
  | handleProcmon (ok : Bool) (key : Text) (l : Launch)
  /-- The next step of `recover`. -/
  | next (ok : Bool) (l : Launch)
  | crash

/-- It serves when it has recovered. -/
def serve (s : FirewalledManager) : Event → FirewalledManager
  | .setupApp appName ok => { s with depm := (s.depm.setupApp appName ok).1 }
  | .startActor appName appModel actorName actorArgs l => (s.startActor cfg l appName appModel actorName actorArgs).1
  | .stopActor ok appName actorName => (s.stopActor cfg ok appName actorName).1
  | .handleProcmon ok key l => (s.handleProcmon cfg ok key l).1
  | .next ok l => s.next cfg ok l
  | .crash => { s with toRecovery := s.toRecovery.crash }

/-- One event. -/
def step (s : FirewalledManager) (e : Event) : FirewalledManager :=
  match e with
  | .next .. | .crash => s.serve cfg e
  | _ => if s.state = .recovered then s.serve cfg e else s

/-- The lists of the actors in `launchMap`. -/
def expected (s : FirewalledManager) : List Rule := s.depm.launchMap.keys.flatMap s.firewall

/-- The rules are just these. -/
def Balanced (s : FirewalledManager) : Prop := Perm s.rules s.expected

instance (s : FirewalledManager) : Decidable s.Balanced := inferInstanceAs (Decidable (Perm _ _))

/-! ### What keeps the balance -/

/-- A start that restricts the user goes through, and there is no record of the actor yet. -/
def KeepsStart (s : FirewalledManager) (key : Text) (l : Launch) : Prop :=
  l.Restricts cfg → (l.result cfg).isSome ∧ s.lists key = []

/-- An actor that runs is stopped without an exception, or it has no rules. -/
def KeepsStop (s : FirewalledManager) (ok : Bool) (key : Text) : Prop :=
  key ∈ s.depm.launchMap → ok = true ∨ s.firewall key = []

/-- An actor that is restarted is stopped so, and then the start goes through if it restricts the user. -/
def KeepsRestart (s : FirewalledManager) (ok : Bool) (key : Text) (l : Launch) : Prop :=
  ∀ named, splitName key = some named → ∀ record, s.depm.actors.get? key = some record →
    s.Restarts key named.1 named.2 record →
      (ok = false → s.firewall key = []) ∧ (ok = true → s.lists key ≠ [] → l.Restricts cfg → (l.result cfg).isSome)

/-- So it is in `recover`; and what cannot be set up or started there has no rules from before. -/
def KeepsNext (s : FirewalledManager) (ok : Bool) (l : Launch) : Prop :=
  match s.state with
  | .restarting (act :: _) false _ => ok = false → s.firewall act.key = []
  | .restarting (act :: _) true _ =>
    act.isdevice = false → s.KeepsStart cfg act.key l ∧ (l.result cfg = none → s.firewall act.key = [])
  | _ => True

/-- The step keeps the balance. -/
def Keeps (s : FirewalledManager) : Event → Prop
  | .setupApp .. => True
  | .startActor appName _ actorName _ l => s.state = .recovered → s.KeepsStart cfg (qualName appName actorName) l
  | .stopActor ok appName actorName => s.state = .recovered → s.KeepsStop ok (qualName appName actorName)
  | .handleProcmon ok key l => s.state = .recovered → s.KeepsRestart cfg ok key l
  | .next ok l => s.KeepsNext cfg ok l
  | .crash => ∀ key ∈ s.depm.launchMap, s.firewall key = []

/-- What holds in every run besides. -/
structure Wf (s : FirewalledManager) : Prop where
  running : ∀ key ∈ s.depm.launchMap, key ∈ s.depm.actors
  noDevice : ∀ key, key ∉ s.depm.devices
  idle : ∀ key, key ∉ s.depm.launchMap → s.firewall key = []
  unsecured : cfg.security = false → s.rules = []
  phase : ¬s.state.Starts → s.depm.launchMap = .empty

variable {cfg} {s s' : FirewalledManager}

/-! ### One actor -/

/-- The rules of all other actors. -/
def others (s : FirewalledManager) (key : Text) : List Rule := (s.depm.launchMap.del key).keys.flatMap s.firewall

theorem expected_perm {key : Text} (hidle : key ∉ s.depm.launchMap → s.firewall key = []) :
    Perm s.expected (s.firewall key ++ s.others key) := by
  cases hget : s.depm.launchMap.get? key with
  | none =>
    have hkey := Dict.get?_eq_none_iff.mp hget
    rw [hidle hkey, others, Dict.del_of_notMem hkey]
    exact .refl _
  | some proc => exact ((Dict.items_perm_del hget).map Prod.fst).flatMap_right _

/-- `s'` differs from `s` at most in one actor. -/
structure Frame (key : Text) (s s' : FirewalledManager) : Prop where
  launchMap : ∀ k, k ≠ key → (k ∈ s'.depm.launchMap ↔ k ∈ s.depm.launchMap)
  firewall : ∀ k, k ≠ key → s'.firewall k = s.firewall k

theorem Frame.others_perm {key : Text} (h : Frame key s s') : Perm (s'.others key) (s.others key) := by
  have hkeys : Perm (s'.depm.launchMap.del key).keys (s.depm.launchMap.del key).keys := by
    refine (List.perm_ext_iff_of_nodup (Dict.nodup _) (Dict.nodup _)).mpr fun k => ?_
    show k ∈ s'.depm.launchMap.del key ↔ k ∈ s.depm.launchMap.del key
    rw [Dict.mem_del, Dict.mem_del]
    exact and_congr_left (h.launchMap k)
  refine (hkeys.flatMap_right _).trans (.of_eq (List.flatMap_congr fun k hk => ?_))
  exact h.firewall k (Dict.mem_del.mp (Dict.mem_iff_mem_keys.mpr hk)).2

/-- Then it is balanced if the rules of that actor are. -/
theorem Frame.balanced_congr {key : Text} (h : Frame key s s')
    (hidle : key ∉ s'.depm.launchMap → s'.firewall key = []) :
    s'.Balanced ↔ Perm s'.rules (s'.firewall key ++ s.others key) := by
  have hperm : Perm s'.expected (s'.firewall key ++ s.others key) :=
    (expected_perm hidle).trans (h.others_perm.append_left _)
  exact ⟨fun hb => hb.trans hperm, fun hp => hp.trans hperm.symm⟩

theorem Wf.rules_perm (h : s.Wf cfg) (hb : s.Balanced) (key : Text) : Perm s.rules (s.firewall key ++ s.others key) :=
  hb.trans (expected_perm (h.idle key))

/-- What else is to be shown of that actor. -/
theorem Wf.of_frame (h : s.Wf cfg) {key : Text} (hframe : Frame key s s')
    (hrun : key ∈ s'.depm.launchMap → key ∈ s'.depm.actors)
    (hactors : ∀ k, k ≠ key → k ∈ s.depm.actors → k ∈ s'.depm.actors) (hdevices : s'.depm.devices = s.depm.devices)
    (hidle : key ∉ s'.depm.launchMap → s'.firewall key = []) (hunsecured : cfg.security = false → s'.rules = [])
    (hphase : ¬s'.state.Starts → s'.depm.launchMap = .empty) : s'.Wf cfg where
  running k hk := by
    by_cases hkey : k = key
    · exact hkey ▸ hrun (hkey ▸ hk)
    · exact hactors k hkey (h.running k ((hframe.launchMap k hkey).mp hk))
  noDevice k := hdevices ▸ h.noDevice k
  idle k hk := by
    by_cases hkey : k = key
    · exact hkey ▸ hidle (hkey ▸ hk)
    · rw [hframe.firewall k hkey]
      exact h.idle k fun hmem => hk ((hframe.launchMap k hkey).mpr hmem)
  unsecured := hunsecured
  phase := hphase

/-! ### Starting -/

/-- A list that was balanced stays so if nothing is added. -/
theorem perm_append_left_iff {rules firewall : List Rule} {expected : List Rule} (h : Perm rules expected) :
    Perm (rules ++ firewall) expected ↔ firewall = [] := by
  constructor
  · intro hp
    have hlen := (hp.trans h.symm).length_eq
    rw [List.length_append] at hlen
    exact List.length_eq_zero_iff.mp (by omega)
  · rintro rfl
    rwa [List.append_nil]

/-- **What a start does**: it fails, and what it has installed stays, or it goes through. -/
theorem startActor_cases (s : FirewalledManager) (cfg : SecurityConfig) (l : Launch) (appName : AppName)
    (appModel actorName : Text) (actorArgs : List Text) :
    l.result cfg = none ∧ s.startActor cfg l appName appModel actorName actorArgs =
      ({ s with rules := s.rules ++ l.installed cfg }, false) ∨
    ∃ pid, l.result cfg = some pid ∧ s.startActor cfg l appName appModel actorName actorArgs =
      ({ s with
          depm := (s.depm.startActor appName appModel actorName actorArgs (some pid)).1
          rules := s.rules ++ l.installed cfg
          firewalls := s.firewalls.set (qualName appName actorName)
            (s.lists (qualName appName actorName) ++ [l.installed cfg]) }, true) := by
  rw [startActor, Launch.result, Launch.installed, stateAfter]
  by_cases hready : l.ready = true
  · simp only [hready, if_true]
    cases l.setupAppNetwork cfg [] with
    | error e firewall => exact .inl ⟨rfl, rfl⟩
    | ok a firewall =>
      cases hpid : l.pid with
      | none => exact .inl ⟨rfl, rfl⟩
      | some pid => exact .inr ⟨pid, rfl, rfl⟩
  · simp [hready]

/-- A start that fails keeps the balance if it has installed nothing. -/
theorem keepsStart_of_none {key : Text} {l : Launch} (hresult : l.result cfg = none) :
    s.KeepsStart cfg key l ↔ l.installed cfg = [] := by
  rw [KeepsStart, hresult, Launch.installed_eq_nil]
  simp

/-- One that goes through does so if it has, or if there is no record yet. -/
theorem keepsStart_of_some {key : Text} {l : Launch} {pid : ℕ} (hresult : l.result cfg = some pid) :
    s.KeepsStart cfg key l ↔ l.installed cfg = [] ∨ s.lists key = [] := by
  rw [KeepsStart, hresult, Launch.installed_eq_nil, imp_iff_not_or]
  simp

theorem Wf.startActor (h : s.Wf cfg) (hb : s.Balanced) (hstate : s.state.Starts) (l : Launch) (appName : AppName)
    (appModel actorName : Text) (actorArgs : List Text) :
    ((s.startActor cfg l appName appModel actorName actorArgs).1.Balanced ↔
        s.KeepsStart cfg (qualName appName actorName) l) ∧
      (s.KeepsStart cfg (qualName appName actorName) l →
        (s.startActor cfg l appName appModel actorName actorArgs).1.Wf cfg) := by
  have hunsecured : cfg.security = false → s.rules ++ l.installed cfg = [] := by
    intro hsecurity
    have hnone : l.installed cfg = [] :=
      (l.installed_eq_nil cfg).mpr fun hr => Bool.false_ne_true (hsecurity.symm.trans hr.2.1)
    rw [h.unsecured hsecurity, hnone, List.append_nil]
  rcases s.startActor_cases cfg l appName appModel actorName actorArgs with
    ⟨hresult, heq⟩ | ⟨pid, hresult, heq⟩ <;> rw [heq]
  · rw [keepsStart_of_none hresult]
    refine ⟨perm_append_left_iff hb, fun _ => ?_⟩
    exact ⟨h.running, h.noDevice, h.idle, hunsecured, h.phase⟩
  · generalize hkey : qualName appName actorName = key
    rw [keepsStart_of_some hresult]
    generalize hs' : ({ s with
      depm := (s.depm.startActor appName appModel actorName actorArgs (some pid)).1
      rules := s.rules ++ l.installed cfg
      firewalls := s.firewalls.set key (s.lists key ++ [l.installed cfg]) } : FirewalledManager) = s'
    have hlists : ∀ k, s'.lists k = if k = key then s.lists key ++ [l.installed cfg] else s.lists k := by
      intro k
      rw [← hs', lists, Dict.get?_set]
      split_ifs <;> rfl
    have hmem : ∀ k, k ∈ s'.depm.launchMap ↔ k = key ∨ k ∈ s.depm.launchMap := by
      intro k
      rw [← hs', ← hkey]
      exact Dict.mem_set
    have hactors : ∀ k, k ∈ s'.depm.actors ↔ k = key ∨ k ∈ s.depm.actors := by
      intro k
      rw [← hs', ← hkey]
      exact Dict.mem_set
    have hframe : Frame key s s' := by
      refine ⟨fun k hk => (hmem k).trans (or_iff_right hk), fun k hk => ?_⟩
      rw [firewall, firewall, hlists, if_neg hk]
    have hrun : key ∈ s'.depm.launchMap := (hmem key).mpr (.inl rfl)
    have hrules : s'.rules = s.rules ++ l.installed cfg := by rw [← hs']
    have hold := h.rules_perm hb key
    constructor
    · rw [hframe.balanced_congr fun hno => absurd hrun hno, hrules, firewall, hlists, if_pos rfl]
      cases hrecord : s.lists key with
      | nil =>
        refine iff_of_true ?_ (.inr rfl)
        rw [firewall, hrecord] at hold
        exact (hold.append_right _).trans List.perm_append_comm
      | cons first rest =>
        rw [firewall, hrecord] at hold
        rw [or_iff_left (List.cons_ne_nil first rest)]
        exact perm_append_left_iff hold
    · intro _
      refine h.of_frame hframe (fun _ => (hactors key).mpr (.inl rfl)) (fun k _ hk => (hactors k).mpr (.inr hk)) ?_
        (fun hno => absurd hrun hno) (fun hsecurity => hrules.trans (hunsecured hsecurity)) fun hno => ?_
      · rw [← hs']
        rfl
      · rw [← hs'] at hno
        exact absurd hstate hno

/-! ### Stopping -/

theorem undoAppNetwork_perm {firewall others rules : List Rule} (hsecurity : cfg.security = true)
    (h : Perm rules (firewall ++ others)) : Perm (undoAppNetwork cfg firewall rules) others := by
  rw [undoAppNetwork, if_pos hsecurity]
  induction firewall generalizing rules with
  | nil => exact h
  | cons rule firewall ih =>
    refine ih ((h.erase rule).trans (.of_eq ?_))
    rw [List.cons_append, List.erase_cons_head]

/-- What an actor that is stopped leaves in the maps of the manager, with or without an exception. -/
theorem depm_stopActor {d : DeploymentManager} {appName : AppName} {actorName : Text}
    (hrun : qualName appName actorName ∈ d.launchMap) (hactor : qualName appName actorName ∈ d.actors) :
    (d.stopActor .done appName actorName).1.actors = d.actors.del (qualName appName actorName) ∧
      (d.stopActor .done appName actorName).1.devices = d.devices := by
  obtain ⟨proc, hproc⟩ := Dict.mem_iff_exists_get?.mp hrun
  simp only [DeploymentManager.stopActor, hproc, hactor, not_true_eq_false, if_false]
  cases d.appDbase.getAppActor appName actorName <;> exact ⟨rfl, rfl⟩

/-- The entry of an actor goes, and nothing else changes but its lists. -/
structure Halted (key : Text) (s s' : FirewalledManager) : Prop where
  launchMap : s'.depm.launchMap = s.depm.launchMap.del key
  actors : ∀ k, k ≠ key → k ∈ s.depm.actors → k ∈ s'.depm.actors
  devices : s'.depm.devices = s.depm.devices
  state : s'.state = s.state
  firewall : ∀ k, k ≠ key → s'.firewall k = s.firewall k

theorem Halted.expected_eq {key : Text} (h : Halted key s s') : s'.expected = s.others key := by
  rw [expected, h.launchMap]
  exact List.flatMap_congr fun k hk => h.firewall k (Dict.mem_del.mp (Dict.mem_iff_mem_keys.mpr hk)).2

theorem Wf.halted (h : s.Wf cfg) {key : Text} (hhalted : Halted key s s') (hidle : s'.firewall key = [])
    (hunsecured : cfg.security = false → s'.rules = []) : s'.Wf cfg := by
  have hno : key ∉ s'.depm.launchMap := by
    rw [hhalted.launchMap]
    exact fun hmem => (Dict.mem_del.mp hmem).2 rfl
  refine h.of_frame ⟨fun k hk => ?_, hhalted.firewall⟩ (fun hmem => absurd hmem hno) hhalted.actors hhalted.devices
    (fun _ => hidle) hunsecured fun hphase => ?_
  · rw [hhalted.launchMap, Dict.mem_del]
    exact and_iff_left hk
  · rw [hhalted.launchMap, h.phase (hhalted.state ▸ hphase)]
    rfl

theorem firewall_of_nil {key : Text} (h : s.lists key = []) : s.firewall key = [] := by
  rw [firewall, h]
  rfl

theorem lists_del (s : FirewalledManager) (key k : Text) :
    ((s.firewalls.del key).get? k).getD [] = if k = key then [] else s.lists k := by
  rw [Dict.get?_del]
  split_ifs <;> rfl

/-- **What stopping does** to a state that is balanced: with an exception that comes early the rules stay. -/
theorem Wf.stopActor (h : s.Wf cfg) (hb : s.Balanced) (ok : Bool) (appName : AppName) (actorName : Text) :
    ((s.stopActor cfg ok appName actorName).1.Balanced ↔ s.KeepsStop ok (qualName appName actorName)) ∧
      (s.KeepsStop ok (qualName appName actorName) → (s.stopActor cfg ok appName actorName).1.Wf cfg) := by
  by_cases hrun : qualName appName actorName ∈ s.depm.launchMap
  · have hactor := h.running _ hrun
    have hold := h.rules_perm hb (qualName appName actorName)
    have hmap := s.depm.stopActor_launchMap .done appName actorName
    obtain ⟨hactors, hdevices⟩ := depm_stopActor hrun hactor
    have hothers : ∀ k, k ≠ qualName appName actorName → k ∈ s.depm.actors →
        k ∈ (s.depm.stopActor .done appName actorName).1.actors := by
      intro k hk hin
      rw [hactors]
      exact Dict.mem_del.mpr ⟨hin, hk⟩
    rw [KeepsStop, imp_iff_right hrun, FirewalledManager.stopActor, if_pos ⟨hrun, hactor⟩]
    generalize qualName appName actorName = key at *
    cases ok with
    | false =>
      rw [if_neg Bool.false_ne_true, or_iff_right Bool.false_ne_true]
      have hhalted : Halted key s { s with depm := { s.depm with launchMap := s.depm.launchMap.del key } } :=
        ⟨rfl, fun _ _ hk => hk, rfl, rfl, fun _ _ => rfl⟩
      refine ⟨?_, fun hnone => h.halted hhalted hnone h.unsecured⟩
      rw [Balanced, hhalted.expected_eq, hold.congr_left, List.perm_append_comm.congr_left]
      exact perm_append_left_iff (.refl _)
    | true =>
      rw [if_pos rfl, iff_true_right (.inl rfl)]
      cases hlists : s.lists key with
      | nil =>
        have hnone := firewall_of_nil hlists
        have hhalted : Halted key s { s with depm := (s.depm.stopActor .done appName actorName).1 } :=
          ⟨hmap, hothers, hdevices, rfl, fun _ _ => rfl⟩
        refine ⟨?_, fun _ => h.halted hhalted hnone h.unsecured⟩
        rw [Balanced, hhalted.expected_eq]
        rwa [hnone, List.nil_append] at hold
      | cons first rest =>
        have hfirst : s.firewall key = first := by
          rw [firewall, hlists]
          rfl
        rw [hfirst] at hold
        have hhalted : Halted key s { s with
            depm := (s.depm.stopActor .done appName actorName).1
            rules := undoAppNetwork cfg first s.rules
            firewalls := s.firewalls.del key } := by
          refine ⟨hmap, hothers, hdevices, rfl, fun k hk => ?_⟩
          rw [firewall, lists, lists_del, if_neg hk, firewall]
        have hunsecured : cfg.security = false → undoAppNetwork cfg first s.rules = [] := by
          intro hsecurity
          rw [undoAppNetwork, hsecurity]
          exact h.unsecured hsecurity
        refine ⟨?_, fun _ => h.halted hhalted ?_ hunsecured⟩
        · rw [Balanced, hhalted.expected_eq]
          cases hsecurity : cfg.security with
          | true => exact undoAppNetwork_perm hsecurity hold
          | false =>
            rw [h.unsecured hsecurity, List.nil_perm, List.append_eq_nil_iff] at hold
            show Perm (undoAppNetwork cfg first s.rules) (s.others key)
            rw [hunsecured hsecurity, hold.2]
        · rw [firewall, lists, lists_del, if_pos rfl]
          rfl
  · have hstop := DeploymentManager.stopActor_of_notMem .done hrun
    rw [FirewalledManager.stopActor, if_neg fun hin => hrun hin.1, hstop]
    exact ⟨iff_of_true hb fun hin => absurd hin hrun, fun _ => h⟩

/-- An actor that is stopped without an exception had a record, and has none after that. -/
theorem stopActor_flag (s : FirewalledManager) (cfg : SecurityConfig) {appName : AppName} {actorName : Text}
    (hrun : qualName appName actorName ∈ s.depm.launchMap) (hactor : qualName appName actorName ∈ s.depm.actors)
    (ok : Bool) :
    (ok = true ∧ s.lists (qualName appName actorName) ≠ [] ∧ (s.stopActor cfg ok appName actorName).2 = true ∧
        (s.stopActor cfg ok appName actorName).1.state = s.state ∧
        (s.stopActor cfg ok appName actorName).1.lists (qualName appName actorName) = []) ∨
      (ok = false ∨ s.lists (qualName appName actorName) = []) ∧ (s.stopActor cfg ok appName actorName).2 = false := by
  rw [FirewalledManager.stopActor, if_pos ⟨hrun, hactor⟩]
  generalize qualName appName actorName = key
  cases ok with
  | false => exact .inr ⟨.inl rfl, rfl⟩
  | true =>
    rw [if_pos rfl]
    cases hlists : s.lists key with
    | nil => exact .inr ⟨.inr rfl, rfl⟩
    | cons first rest => exact .inl ⟨rfl, List.cons_ne_nil _ _, rfl, rfl, by rw [lists, lists_del, if_pos rfl]⟩

/-! ### Restarting -/

/-- A message that restarts no actor leaves the maps of the manager. -/
theorem depm_handleProcmon {d : DeploymentManager} {key : Text} (pid : Option ℕ) (hdevice : key ∉ d.devices)
    (hno : ∀ named, splitName key = some named → ∀ record, d.actors.get? key = some record →
      ¬(key ≠ DeploymentManager.discoName ∧ named.1 = record.app ∧ named.2 = record.actor ∧ key ∈ d.launchMap)) :
    (d.handleProcmon .done key pid).1.launchMap = d.launchMap ∧ (d.handleProcmon .done key pid).1.actors = d.actors ∧
      (d.handleProcmon .done key pid).1.devices = d.devices ∧
      (d.handleProcmon .done key pid).1.appDbase = d.appDbase := by
  by_cases hdisco : key = DeploymentManager.discoName
  · rw [DeploymentManager.handleProcmon, if_pos hdisco]
    cases pid <;> exact ⟨rfl, rfl, rfl, rfl⟩
  · rw [DeploymentManager.handleProcmon, if_neg hdisco]
    cases hsplit : splitName key with
    | none => exact ⟨rfl, rfl, rfl, rfl⟩
    | some named =>
      cases hactor : d.actors.get? key with
      | none => simp [Dict.get?_eq_none_iff.mpr hdevice]
      | some record =>
        have hidle := fun hrest => hno named hsplit record hactor ⟨hdisco, hrest⟩
        simp only [if_neg hidle]
        exact ⟨trivial, trivial, trivial, trivial⟩

theorem Wf.handleProcmon (h : s.Wf cfg) (hb : s.Balanced) (hstate : s.state.Starts) (ok : Bool) (key : Text)
    (l : Launch) :
    ((s.handleProcmon cfg ok key l).1.Balanced ↔ s.KeepsRestart cfg ok key l) ∧
      (s.KeepsRestart cfg ok key l → (s.handleProcmon cfg ok key l).1.Wf cfg) := by
  have hother : (∀ named, splitName key = some named → ∀ record, s.depm.actors.get? key = some record →
        ¬s.Restarts key named.1 named.2 record) →
      Balanced { s with depm := (s.depm.handleProcmon .done key l.pid).1 } ∧
        Wf cfg { s with depm := (s.depm.handleProcmon .done key l.pid).1 } := by
    intro hno
    obtain ⟨hmap, hactors, hdevices, -⟩ := depm_handleProcmon l.pid (h.noDevice key) hno
    constructor
    · rw [Balanced, expected, hmap]
      exact hb
    · refine ⟨?_, ?_, ?_, h.unsecured, ?_⟩
      · rw [hmap, hactors]
        exact h.running
      · rw [hdevices]
        exact h.noDevice
      · rw [hmap]
        exact h.idle
      · rw [hmap]
        exact h.phase
  cases hsplit : splitName key with
  | none =>
    have hkeeps : s.KeepsRestart cfg ok key l := fun named hnamed => by simp [hsplit] at hnamed
    obtain ⟨hbal, hwf⟩ := hother fun named hnamed => by simp [hsplit] at hnamed
    rw [FirewalledManager.handleProcmon, hsplit]
    exact ⟨iff_of_true hbal hkeeps, fun _ => hwf⟩
  | some named =>
    obtain ⟨appName, actorName⟩ := named
    cases hactor : s.depm.actors.get? key with
    | none =>
      have hkeeps : s.KeepsRestart cfg ok key l := fun _ _ record hrecord => by simp [hactor] at hrecord
      obtain ⟨hbal, hwf⟩ := hother fun _ _ record hrecord => by simp [hactor] at hrecord
      rw [FirewalledManager.handleProcmon, hsplit, hactor]
      exact ⟨iff_of_true hbal hkeeps, fun _ => hwf⟩
    | some record =>
      rw [FirewalledManager.handleProcmon, hsplit, hactor]
      dsimp only
      by_cases hrestarts : s.Restarts key appName actorName record
      · have hkeeps : s.KeepsRestart cfg ok key l ↔ (ok = false → s.firewall key = []) ∧
            (ok = true → s.lists key ≠ [] → l.Restricts cfg → (l.result cfg).isSome) := by
          simp only [KeepsRestart, hsplit, hactor, Option.some.injEq, forall_eq', hrestarts, forall_const]
        obtain rfl := eq_of_splitName hsplit
        rw [hkeeps, if_pos hrestarts]
        have hstop := h.stopActor hb ok appName actorName
        have hrun : qualName appName actorName ∈ s.depm.launchMap := hrestarts.2.2.2
        rcases s.stopActor_flag cfg hrun (h.running _ hrun) ok with
          ⟨hok, hlists, hflag, hstate', hlists'⟩ | ⟨hnot, hflag⟩
        · -- it is started, from a state that is balanced again
          have hkept : s.KeepsStop ok (qualName appName actorName) := fun _ => .inl hok
          rw [← hstate'] at hstate
          have hstart :=
            (hstop.2 hkept).startActor (hstop.1.mpr hkept) hstate l appName record.model actorName record.args
          rw [hflag, if_pos rfl]
          have hiff : (s.stopActor cfg ok appName actorName).1.KeepsStart cfg (qualName appName actorName) l ↔
              (ok = false → s.firewall (qualName appName actorName) = []) ∧
                (ok = true → s.lists (qualName appName actorName) ≠ [] → l.Restricts cfg → (l.result cfg).isSome) := by
            rw [KeepsStart, hlists']
            simp [hok, hlists]
          rwa [hiff] at hstart
        · rw [hflag, if_neg Bool.false_ne_true]
          have hiff : s.KeepsStop ok (qualName appName actorName) ↔
              (ok = false → s.firewall (qualName appName actorName) = []) ∧
                (ok = true → s.lists (qualName appName actorName) ≠ [] → l.Restricts cfg → (l.result cfg).isSome) := by
            rw [KeepsStop, imp_iff_right hrun]
            rcases hnot with rfl | hnone
            · simp
            · cases ok <;> simp [hnone, firewall_of_nil hnone]
          rwa [hiff] at hstop
      · obtain ⟨hbal, hwf⟩ := hother fun named hnamed r hr => by
          obtain rfl := Option.some.inj (hsplit.symm.trans hnamed)
          obtain rfl := Option.some.inj (hactor.symm.trans hr)
          exact hrestarts
        rw [if_neg hrestarts]
        refine ⟨iff_of_true hbal fun named hnamed r hr hin => ?_, fun _ => hwf⟩
        obtain rfl := Option.some.inj (hsplit.symm.trans hnamed)
        obtain rfl := Option.some.inj (hactor.symm.trans hr)
        exact absurd hin hrestarts

/-! ### Recovering -/

/-- Nothing that matters has changed. -/
theorem Wf.congr (h : s.Wf cfg) (s' : FirewalledManager) (hmap : s'.depm.launchMap = s.depm.launchMap)
    (hactors : s'.depm.actors = s.depm.actors) (hdevices : s'.depm.devices = s.depm.devices)
    (hrules : s'.rules = s.rules)
    (hfirewall : ∀ key, s'.firewall key = s.firewall key) (hstate : s.state.Starts → s'.state.Starts) :
    (s'.Balanced ↔ s.Balanced) ∧ s'.Wf cfg := by
  constructor
  · rw [Balanced, Balanced, hrules, expected, expected, hmap, funext hfirewall]
  · refine ⟨?_, ?_, fun key hkey => ?_, ?_, fun hno => ?_⟩
    · rw [hmap, hactors]
      exact h.running
    · rw [hdevices]
      exact h.noDevice
    · rw [hfirewall]
      exact h.idle key (hmap ▸ hkey)
    · rw [hrules]
      exact h.unsecured
    · rw [hmap]
      exact h.phase (mt hstate hno)

/-- The records of an actor are deleted, after a start that may have installed rules. -/
theorem Wf.forget (h : s.Wf cfg) (hb : s.Balanced) (key : Text) (added : List Rule)
    (s' : FirewalledManager) (hmap : s'.depm.launchMap = s.depm.launchMap) (hactors : s'.depm.actors = s.depm.actors)
    (hdevices : s'.depm.devices = s.depm.devices) (hrules : s'.rules = s.rules ++ added)
    (hfirewalls : s'.firewalls = s.firewalls.del key) (hstate : s.state.Starts → s'.state.Starts) :
    (s'.Balanced ↔ added = [] ∧ s.firewall key = []) ∧ (added = [] ∧ s.firewall key = [] → s'.Wf cfg) := by
  have hfirewall : ∀ k, s'.firewall k = if k = key then [] else s.firewall k := by
    intro k
    rw [firewall, lists, hfirewalls, lists_del, firewall]
    split_ifs <;> rfl
  have hframe : Frame key s s' := ⟨fun k _ => by rw [hmap], fun k hk => (hfirewall k).trans (if_neg hk)⟩
  have hgone : s'.firewall key = [] := (hfirewall key).trans (if_pos rfl)
  have hold := h.rules_perm hb key
  constructor
  · rw [hframe.balanced_congr fun _ => hgone, hgone, List.nil_append, hrules]
    constructor
    · intro hp
      have hlen := hp.length_eq
      have hlen' := hold.length_eq
      rw [List.length_append] at hlen hlen'
      exact ⟨List.length_eq_zero_iff.mp (by omega), List.length_eq_zero_iff.mp (by omega)⟩
    · rintro ⟨rfl, hnone⟩
      rwa [List.append_nil, ← List.nil_append (s.others key), ← hnone]
  · rintro ⟨rfl, hnone⟩
    rw [List.append_nil] at hrules
    refine (h.congr s' hmap hactors hdevices hrules (fun k => ?_) hstate).2
    rw [hfirewall]
    split_ifs with hk
    · rw [hk, hnone]
    · rfl

/-- An actor is started again, and if that fails its records are deleted. -/
theorem Wf.next_restart (h : s.Wf cfg) (hb : s.Balanced) {act : ActorCommand} {acts : List ActorCommand}
    {cmds : List (List ActorCommand)} (hstate : s.state = .restarting (act :: acts) true cmds) (ok : Bool)
    (l : Launch) :
    ((s.next cfg ok l).Balanced ↔ s.KeepsNext cfg ok l) ∧ (s.KeepsNext cfg ok l → (s.next cfg ok l).Wf cfg) := by
  have hstarts : s.state.Starts := by
    rw [hstate]
    trivial
  have hstate' : ∀ {t : FirewalledManager}, t.Wf cfg →
      (Balanced { t with state := .restarting acts true cmds } ↔ t.Balanced) ∧
        Wf cfg { t with state := .restarting acts true cmds } :=
    fun ht => ht.congr _ rfl rfl rfl rfl (fun _ => rfl) fun _ => trivial
  simp only [FirewalledManager.next, KeepsNext, hstate]
  by_cases hdevice : act.isdevice = true
  · rw [if_pos hdevice]
    obtain ⟨hbal, hwf⟩ := hstate' h
    exact ⟨iff_of_true (hbal.mpr hb) fun hno => absurd (hno.symm.trans hdevice) Bool.false_ne_true, fun _ => hwf⟩
  · rw [if_neg hdevice, imp_iff_right (Bool.not_eq_true _ ▸ hdevice)]
    obtain ⟨hiff, hwf⟩ := h.startActor hb hstarts l act.app act.model act.actor act.args
    rcases s.startActor_cases cfg l act.app act.model act.actor act.args with
      ⟨hresult, heq⟩ | ⟨pid, hresult, heq⟩
    · rw [heq, if_neg Bool.false_ne_true]
      obtain ⟨hbal, hwf⟩ := h.forget hb act.key (l.installed cfg)
        { ({ s with rules := s.rules ++ l.installed cfg } : FirewalledManager).fail act with
          state := .restarting acts true cmds } rfl rfl rfl rfl rfl fun _ => trivial
      rw [keepsStart_of_none hresult, imp_iff_right hresult]
      exact ⟨hbal, hwf⟩
    · rw [heq] at hiff hwf ⊢
      have hsome : l.result cfg ≠ none := hresult ▸ Option.some_ne_none pid
      rw [if_pos rfl, and_iff_left fun hnone => absurd hnone hsome]
      exact ⟨hiff, fun hkeeps => (hstate' (hwf hkeeps)).2⟩

theorem Wf.next (h : s.Wf cfg) (hb : s.Balanced) (ok : Bool) (l : Launch) :
    ((s.next cfg ok l).Balanced ↔ s.KeepsNext cfg ok l) ∧ (s.KeepsNext cfg ok l → (s.next cfg ok l).Wf cfg) := by
  have hmove : ∀ m : Recovery, m.depm.launchMap = s.depm.launchMap → m.depm.actors = s.depm.actors →
      m.depm.devices = s.depm.devices → (s.state.Starts → m.state.Starts) →
      (Balanced { s with toRecovery := m } ↔ True) ∧ (True → Wf cfg { s with toRecovery := m }) := by
    intro m hmap hactors hdevices hstate
    obtain ⟨hbal, hwf⟩ := h.congr { s with toRecovery := m } hmap hactors hdevices rfl (fun _ => rfl) hstate
    exact ⟨iff_true_intro (hbal.mpr hb), fun _ => hwf⟩
  obtain ⟨⟨depm, state, failed⟩, rules, firewalls⟩ := s
  cases state with
  | starting => exact hmove _ rfl rfl rfl id
  | stopping apps acts cmds =>
    cases acts with
    | nil => cases apps <;> exact hmove _ rfl rfl rfl id
    | cons act acts =>
      -- no actor runs, and the record has no rules
      have hempty : depm.launchMap = .empty := h.phase id
      have hnone := h.idle act.key (hempty ▸ Dict.not_mem_empty act.key)
      obtain ⟨hbal, hwf⟩ := h.forget hb act.key []
        ⟨⟨depm.stopOrphanActor act, .stopping apps acts cmds, failed⟩, rules, firewalls.del act.key⟩ rfl rfl rfl
        (List.append_nil rules).symm rfl id
      exact ⟨iff_true_intro (hbal.mpr ⟨rfl, hnone⟩), fun _ => hwf ⟨rfl, hnone⟩⟩
  | unregistering recs cmds =>
    cases recs with
    | nil => exact hmove _ rfl rfl rfl fun _ => trivial
    | cons record recs => exact hmove _ rfl rfl rfl id
  | restarting acts appSet cmds =>
    cases acts with
    | nil => cases cmds <;> exact hmove _ rfl rfl rfl id
    | cons act acts =>
      cases appSet with
      | false =>
        cases ok with
        | true =>
          obtain ⟨hbal, hwf⟩ := hmove ((⟨depm, .restarting (act :: acts) false cmds, failed⟩ : Recovery).next true none)
            rfl rfl rfl id
          exact ⟨hbal.trans (iff_true_intro fun hok => absurd hok.symm Bool.false_ne_true).symm, fun _ => hwf trivial⟩
        | false =>
          obtain ⟨hbal, hwf⟩ := h.forget hb act.key []
            { fail act ⟨⟨depm, .restarting (act :: acts) false cmds, failed⟩, rules, firewalls⟩ with
              state := .restarting acts false cmds } rfl rfl rfl (List.append_nil rules).symm rfl id
          refine ⟨hbal.trans ⟨fun hnone _ => hnone.2, fun hkeeps => ⟨rfl, hkeeps rfl⟩⟩, fun hkeeps => ?_⟩
          exact hwf ⟨rfl, hkeeps rfl⟩
      | true => exact h.next_restart hb rfl ok l
  | recovered => exact hmove _ rfl rfl rfl id

/-! ### Runs -/

/-- After a crash nothing runs, and the rules are still there. -/
theorem Wf.crash (h : s.Wf cfg) (hb : s.Balanced) :
    (Balanced { s with toRecovery := s.toRecovery.crash } ↔ ∀ key ∈ s.depm.launchMap, s.firewall key = []) ∧
      ((∀ key ∈ s.depm.launchMap, s.firewall key = []) → Wf cfg { s with toRecovery := s.toRecovery.crash }) := by
  constructor
  · show Perm s.rules [] ↔ _
    rw [hb.congr_left, List.perm_nil, expected, List.flatMap_eq_nil_iff]
    exact Iff.rfl
  · intro hnone
    refine ⟨fun key hkey => absurd hkey (Dict.not_mem_empty key), Dict.not_mem_empty, fun key _ => ?_, h.unsecured,
      fun _ => rfl⟩
    by_cases hrun : key ∈ s.depm.launchMap
    · exact hnone key hrun
    · exact h.idle key hrun

/-- **What a step does** to a state that is balanced. -/
theorem Wf.step (h : s.Wf cfg) (hb : s.Balanced) (e : Event) :
    ((step cfg s e).Balanced ↔ s.Keeps cfg e) ∧ (s.Keeps cfg e → (step cfg s e).Wf cfg) := by
  have hserve : ∀ (s' : FirewalledManager) (p : Prop),
      (s.state.Starts → (s'.Balanced ↔ p) ∧ (p → s'.Wf cfg)) →
      ((if s.state = .recovered then s' else s).Balanced ↔ (s.state = .recovered → p)) ∧
        ((s.state = .recovered → p) → (if s.state = .recovered then s' else s).Wf cfg) := by
    intro s' p hrec
    by_cases hstate : s.state = .recovered
    · rw [if_pos hstate, imp_iff_right hstate]
      refine hrec ?_
      rw [hstate]
      trivial
    · rw [if_neg hstate]
      exact ⟨iff_of_true hb fun hin => absurd hin hstate, fun _ => h⟩
  cases e with
  | setupApp appName ok =>
    obtain ⟨hbal, hwf⟩ := hserve { s with depm := (s.depm.setupApp appName ok).1 } True fun _ => by
      have hsame := h.congr { s with depm := (s.depm.setupApp appName ok).1 }
      cases ok <;>
        exact ⟨iff_true_intro ((hsame rfl rfl rfl rfl (fun _ => rfl) id).1.mpr hb),
          fun _ => (hsame rfl rfl rfl rfl (fun _ => rfl) id).2⟩
    exact ⟨hbal.trans (iff_true_intro fun _ => trivial), fun _ => hwf fun _ => trivial⟩
  | startActor appName appModel actorName actorArgs l =>
    exact hserve _ _ fun hstate => h.startActor hb hstate l appName appModel actorName actorArgs
  | stopActor ok appName actorName => exact hserve _ _ fun _ => h.stopActor hb ok appName actorName
  | handleProcmon ok key l => exact hserve _ _ fun hstate => h.handleProcmon hb hstate ok key l
  | next ok l => exact h.next hb ok l
  | crash => exact h.crash hb

theorem Wf.init (cfg : SecurityConfig) : init.Wf cfg where
  running key hkey := absurd hkey (Dict.not_mem_empty key)
  noDevice := Dict.not_mem_empty
  idle _ _ := rfl
  unsecured _ := rfl
  phase _ := rfl

/-- **Exactly the runs whose steps keep the balance** have, all along, the rules of the actors that run. -/
theorem balanced_iff (cfg : SecurityConfig) (events : List Event) :
    Always (FirewalledManager.step cfg) Balanced init events ↔
      AllSteps (FirewalledManager.step cfg) (Keeps cfg) init events :=
  always_iff_allSteps (I := fun s => s.Balanced → s.Wf cfg)
    (fun _ e hwf hb hb' => ((hwf hb).step hb e).2 (((hwf hb).step hb e).1.mp hb'))
    (fun _ e hwf hb => ((hwf hb).step hb e).1) (fun _ => Wf.init cfg) (.refl _) events

/-- When no actor runs, no rule is left. -/
theorem Balanced.rules_eq_nil (h : s.Balanced) (hempty : s.depm.launchMap = .empty) : s.rules = [] := by
  rw [Balanced, expected, hempty] at h
  exact List.perm_nil.mp h

/-- A start that fails with its network set up leaves the rules, and none is deleted when a manager crashes: after
`recover` they are there twice. -/
theorem unbalanced :
    let cfg : SecurityConfig := ⟨true, ['r'], ['h']⟩
    let app : AppName := ⟨['a'], by decide⟩
    let start : Option ℕ → Launch := fun pid => ⟨true, ['u'], some [], .empty, fun site => some site, some [], pid⟩
    let next : Event := .next true (start (some 8))
    let boot : List Event := [next, next, next, next, .setupApp app true]
    ¬Balanced (run (FirewalledManager.step cfg) init (boot ++ [.startActor app ['m'] ['x'] [] (start none)])) ∧
      ¬Balanced (run (FirewalledManager.step cfg) init
        (boot ++ [.startActor app ['m'] ['x'] [] (start (some 7)), .crash] ++ List.replicate 11 next)) := by
  constructor <;> decide +kernel

/-! ### The manager below -/

/-- An actor has a list if it has a record, and there is no device. -/
structure Aligned (s : FirewalledManager) : Prop where
  records : ∀ key, s.lists key = [] ↔ key ∉ s.depm.appDbase.records.map ActorCommand.key
  noDevice : ∀ key, key ∉ s.depm.devices

theorem Aligned.getAppActor (h : s.Aligned) (appName : AppName) (actorName : Text) :
    s.depm.appDbase.getAppActor appName actorName = none ↔ s.lists (qualName appName actorName) = [] := by
  rw [h.records, ← AppDbase.getAppActor_isSome, Option.not_isSome_iff_eq_none]

/-- A record and a list more, -/
theorem Aligned.add (h : s.Aligned) (act : ActorCommand) {firewall : List Rule}
    (hdbase : s'.depm.appDbase = s.depm.appDbase.addAppActor act)
    (hfirewalls : s'.firewalls = s.firewalls.set act.key (s.lists act.key ++ [firewall]))
    (hdevices : s'.depm.devices = s.depm.devices) : s'.Aligned := by
  refine ⟨fun key => ?_, fun key => hdevices ▸ h.noDevice key⟩
  rw [hdbase, ((AppDbase.records_addAppActor act s.depm.appDbase).map _).mem_iff, List.map_cons, List.mem_cons, not_or,
    ← h.records key, lists, hfirewalls, Dict.get?_set]
  split_ifs with hkey
  · simp [hkey]
  · simp [hkey, lists]

/-- and all of an actor less. -/
theorem Aligned.del (h : s.Aligned) (appName : AppName) (actorName : Text)
    (hdbase : s'.depm.appDbase = s.depm.appDbase.delAppActor appName actorName)
    (hfirewalls : s'.firewalls = s.firewalls.del (qualName appName actorName))
    (hdevices : s'.depm.devices = s.depm.devices) : s'.Aligned := by
  refine ⟨fun key => ?_, fun key => hdevices ▸ h.noDevice key⟩
  rw [hdbase, ((AppDbase.records_delAppActor ..).map _).mem_iff, lists, hfirewalls, lists_del]
  have hmem : key ∈ (s.depm.appDbase.records.filter fun r => r.key ≠ qualName appName actorName).map ActorCommand.key ↔
      key ∈ s.depm.appDbase.records.map ActorCommand.key ∧ key ≠ qualName appName actorName := by
    simp only [List.mem_map, List.mem_filter, decide_eq_true_eq]
    constructor
    · rintro ⟨r, ⟨hr, hne⟩, rfl⟩
      exact ⟨⟨r, hr, rfl⟩, hne⟩
    · rintro ⟨⟨r, hr, rfl⟩, hne⟩
      exact ⟨r, ⟨hr, hne⟩, rfl⟩
  rw [hmem]
  split_ifs with hkey
  · simp [hkey]
  · simp [hkey, h.records key]

theorem Aligned.congr (h : s.Aligned) (hdbase : s'.depm.appDbase.actors = s.depm.appDbase.actors)
    (hfirewalls : s'.firewalls = s.firewalls) (hdevices : s'.depm.devices = s.depm.devices) : s'.Aligned := by
  refine ⟨fun key => ?_, fun key => hdevices ▸ h.noDevice key⟩
  have hrecords : s'.depm.appDbase.records = s.depm.appDbase.records := by
    rw [AppDbase.records, hdbase]
    rfl
  rw [lists, hfirewalls, hrecords]
  exact h.records key

/-- A start, as it is without the firewall: it goes through if all of it does. -/
theorem startActor_depm (s : FirewalledManager) (cfg : SecurityConfig) (l : Launch) (appName : AppName)
    (appModel actorName : Text) (actorArgs : List Text) :
    (s.startActor cfg l appName appModel actorName actorArgs).1.depm =
        (s.depm.startActor appName appModel actorName actorArgs (l.result cfg)).1 ∧
      (s.startActor cfg l appName appModel actorName actorArgs).2 =
        (s.depm.startActor appName appModel actorName actorArgs (l.result cfg)).2 := by
  rcases s.startActor_cases cfg l appName appModel actorName actorArgs with
    ⟨hresult, heq⟩ | ⟨pid, hresult, heq⟩ <;> rw [heq, hresult]
  · exact ⟨rfl, rfl⟩
  · exact ⟨rfl, rfl⟩

theorem Aligned.startActor (h : s.Aligned) (cfg : SecurityConfig) (l : Launch) (appName : AppName)
    (appModel actorName : Text) (actorArgs : List Text) :
    (s.startActor cfg l appName appModel actorName actorArgs).1.Aligned := by
  rcases s.startActor_cases cfg l appName appModel actorName actorArgs with
    ⟨hresult, heq⟩ | ⟨pid, hresult, heq⟩ <;> rw [heq]
  · exact h.congr rfl rfl rfl
  · exact h.add ⟨appName, appModel, actorName, actorArgs, pid, false⟩ rfl rfl rfl

/-- The record of an actor that is stopped goes, if it has one. -/
theorem depm_stopActor_appDbase {d : DeploymentManager} {appName : AppName} {actorName : Text}
    (hrun : qualName appName actorName ∈ d.launchMap) (hactor : qualName appName actorName ∈ d.actors) :
    (d.stopActor .done appName actorName).2 = (d.appDbase.getAppActor appName actorName).isSome ∧
      (d.stopActor .done appName actorName).1.appDbase =
        if (d.appDbase.getAppActor appName actorName).isSome then d.appDbase.delAppActor appName actorName
        else d.appDbase := by
  obtain ⟨proc, hproc⟩ := Dict.mem_iff_exists_get?.mp hrun
  simp only [DeploymentManager.stopActor, hproc, hactor, not_true_eq_false, if_false]
  cases d.appDbase.getAppActor appName actorName <;> exact ⟨rfl, rfl⟩

/-- A stop, when the resource and the fault manager raise nothing. -/
theorem Aligned.stopActor_depm (h : s.Aligned) (cfg : SecurityConfig) (appName : AppName) (actorName : Text) :
    (s.stopActor cfg true appName actorName).1.depm = (s.depm.stopActor .done appName actorName).1 ∧
      (s.stopActor cfg true appName actorName).2 = (s.depm.stopActor .done appName actorName).2 := by
  rw [FirewalledManager.stopActor]
  by_cases hin : qualName appName actorName ∈ s.depm.launchMap ∧ qualName appName actorName ∈ s.depm.actors
  · rw [if_pos hin, if_pos rfl, (depm_stopActor_appDbase hin.1 hin.2).1]
    have hget := h.getAppActor appName actorName
    cases hlists : s.lists (qualName appName actorName) with
    | nil =>
      rw [hget.mpr hlists]
      exact ⟨rfl, rfl⟩
    | cons first rest =>
      obtain ⟨act, hact⟩ := Option.ne_none_iff_exists'.mp (hget.not.mpr (hlists ▸ List.cons_ne_nil first rest))
      rw [hact]
      exact ⟨rfl, rfl⟩
  · rw [if_neg hin]
    exact ⟨rfl, rfl⟩

theorem Aligned.stopActor (h : s.Aligned) (cfg : SecurityConfig) (ok : Bool) (appName : AppName) (actorName : Text) :
    (s.stopActor cfg ok appName actorName).1.Aligned := by
  rw [FirewalledManager.stopActor]
  by_cases hin : qualName appName actorName ∈ s.depm.launchMap ∧ qualName appName actorName ∈ s.depm.actors
  · rw [if_pos hin]
    have hdbase := (depm_stopActor_appDbase hin.1 hin.2).2
    have hget := h.getAppActor appName actorName
    cases ok with
    | false => exact h.congr rfl rfl rfl
    | true =>
      rw [if_pos rfl]
      cases hlists : s.lists (qualName appName actorName) with
      | nil =>
        rw [hget.mpr hlists, Option.isSome_none, if_neg Bool.false_ne_true] at hdbase
        exact h.congr (congrArg AppDbase.actors hdbase) rfl (depm_stopActor hin.1 hin.2).2
      | cons first rest =>
        obtain ⟨act, hact⟩ := Option.ne_none_iff_exists'.mp (hget.not.mpr (hlists ▸ List.cons_ne_nil first rest))
        rw [hact, Option.isSome_some, if_pos rfl] at hdbase
        exact h.del _ _ hdbase rfl (depm_stopActor hin.1 hin.2).2
  · rw [if_neg hin]
    by_cases hrun : qualName appName actorName ∈ s.depm.launchMap
    · obtain ⟨proc, hproc⟩ := Dict.mem_iff_exists_get?.mp hrun
      rw [DeploymentManager.stopActor_of_notMem_actors .done hproc fun hactor => hin ⟨hrun, hactor⟩]
      exact h.congr rfl rfl rfl
    · rw [DeploymentManager.stopActor_of_notMem .done hrun]
      exact h

/-- **Recovery goes through the steps of the model below**, with the processes of the starts that go through. -/
theorem next_toRecovery (s : FirewalledManager) (cfg : SecurityConfig) (ok : Bool) (l : Launch) :
    (s.next cfg ok l).toRecovery = s.toRecovery.next ok (l.result cfg) := by
  obtain ⟨⟨depm, state, failed⟩, rules, firewalls⟩ := s
  cases state with
  | starting => rfl
  | stopping apps acts cmds =>
    cases acts with
    | nil => cases apps <;> rfl
    | cons act acts => rfl
  | unregistering recs cmds => cases recs <;> rfl
  | restarting acts appSet cmds =>
    cases acts with
    | nil => cases cmds <;> rfl
    | cons act acts =>
      cases appSet with
      | false => cases ok <;> rfl
      | true =>
        cases hdevice : act.isdevice with
        | true => simp only [FirewalledManager.next, Recovery.next, hdevice, if_true]
        | false =>
          simp only [FirewalledManager.next, Recovery.next, hdevice, Bool.false_eq_true, if_false]
          rcases startActor_cases ⟨⟨depm, .restarting (act :: acts) true cmds, failed⟩, rules, firewalls⟩ cfg l act.app
            act.model act.actor act.args with ⟨hresult, heq⟩ | ⟨pid, hresult, heq⟩ <;> rw [heq, hresult] <;> rfl
  | recovered => rfl

theorem Aligned.next (h : s.Aligned) (cfg : SecurityConfig) (ok : Bool) (l : Launch) : (s.next cfg ok l).Aligned := by
  obtain ⟨⟨depm, state, failed⟩, rules, firewalls⟩ := s
  cases state with
  | starting => exact h.congr rfl rfl rfl
  | stopping apps acts cmds =>
    cases acts with
    | nil => cases apps <;> exact h.congr rfl rfl rfl
    | cons act acts => exact h.del act.app act.actor rfl rfl rfl
  | unregistering recs cmds => cases recs <;> exact h.congr rfl rfl rfl
  | restarting acts appSet cmds =>
    cases acts with
    | nil => cases cmds <;> exact h.congr rfl rfl rfl
    | cons act acts =>
      cases appSet with
      | false =>
        cases ok with
        | true => exact h.congr rfl rfl rfl
        | false => exact h.del act.app act.actor rfl rfl rfl
      | true =>
        rw [FirewalledManager.next]
        dsimp only
        have hstart := h.startActor cfg l act.app act.model act.actor act.args
        split_ifs
        · exact h.congr rfl rfl rfl
        · exact hstart.congr rfl rfl rfl
        · exact hstart.del act.app act.actor rfl rfl rfl
  | recovered => exact h.congr rfl rfl rfl

/-- A restart, when the resource and the fault manager raise nothing. -/
theorem Aligned.handleProcmon_depm (h : s.Aligned) (cfg : SecurityConfig) (key : Text) (l : Launch) :
    (s.handleProcmon cfg true key l).1.depm =
      (s.depm.handleProcmon .done key (if key = DeploymentManager.discoName then l.pid else l.result cfg)).1 := by
  by_cases hdisco : key = DeploymentManager.discoName
  · have hno : ∀ appName actorName record, ¬s.Restarts key appName actorName record := fun _ _ _ hin => hin.1 hdisco
    rw [if_pos hdisco, FirewalledManager.handleProcmon]
    split
    · rw [if_neg (hno _ _ _)]
    · rfl
  · rw [if_neg hdisco, FirewalledManager.handleProcmon]
    -- no process is started but that of the actor
    have hpid : ∀ pid, (splitName key = none ∨ s.depm.actors.get? key = none) →
        (s.depm.handleProcmon .done key pid).1 = s.depm := by
      intro pid hnone
      rw [DeploymentManager.handleProcmon, if_neg hdisco]
      rcases hnone with hsplit | hactor
      · rw [hsplit]
      · cases splitName key with
        | none => rfl
        | some named => simp [hactor, Dict.get?_eq_none_iff.mpr (h.noDevice key)]
    cases hsplit : splitName key with
    | none => rw [hpid _ (.inl hsplit), hpid _ (.inl hsplit)]
    | some named =>
      obtain ⟨appName, actorName⟩ := named
      cases hactor : s.depm.actors.get? key with
      | none => rw [hpid _ (.inr hactor), hpid _ (.inr hactor)]
      | some record =>
        obtain ⟨hdepm, hflag⟩ := h.stopActor_depm cfg appName actorName
        dsimp only
        by_cases hin : appName = record.app ∧ actorName = record.actor ∧ key ∈ s.depm.launchMap
        · rw [if_pos ⟨hdisco, hin⟩]
          simp only [DeploymentManager.handleProcmon, if_neg hdisco, hsplit, hactor, if_pos hin, hflag,
            DeploymentManager.andThen]
          split_ifs
          · rw [(startActor_depm ..).1, hdepm]
          · exact hdepm
        · rw [if_neg fun hrestarts => hin hrestarts.2]
          simp only [DeploymentManager.handleProcmon, if_neg hdisco, hsplit, hactor, if_neg hin]

theorem Aligned.handleProcmon (h : s.Aligned) (cfg : SecurityConfig) (ok : Bool) (key : Text) (l : Launch) :
    (s.handleProcmon cfg ok key l).1.Aligned := by
  have hother : (∀ named, splitName key = some named → ∀ record, s.depm.actors.get? key = some record →
      ¬s.Restarts key named.1 named.2 record) → Aligned { s with depm := (s.depm.handleProcmon .done key l.pid).1 } :=
    fun hno =>
      have hsame := depm_handleProcmon l.pid (h.noDevice key) hno
      h.congr (congrArg AppDbase.actors hsame.2.2.2) rfl hsame.2.2.1
  rw [FirewalledManager.handleProcmon]
  split
  next appName actorName record hsplit hactor =>
    by_cases hrestarts : s.Restarts key appName actorName record
    · rw [if_pos hrestarts]
      have hstop := h.stopActor cfg ok appName actorName
      dsimp only
      split_ifs
      exacts [hstop.startActor cfg l appName record.model actorName record.args, hstop]
    · rw [if_neg hrestarts]
      refine hother fun named hnamed r hr => ?_
      obtain rfl := Option.some.inj (hsplit.symm.trans hnamed)
      obtain rfl := Option.some.inj (hactor.symm.trans hr)
      exact hrestarts
  next hno => exact hother fun named hnamed record hrecord => absurd hrecord (hno named.1 named.2 record hnamed)

theorem Aligned.init : init.Aligned := ⟨fun _ => iff_of_true rfl List.not_mem_nil, Dict.not_mem_empty⟩

theorem Aligned.step (h : s.Aligned) (cfg : SecurityConfig) (e : Event) : (step cfg s e).Aligned := by
  have hserve : ∀ {s' : FirewalledManager}, s'.Aligned → (if s.state = .recovered then s' else s).Aligned := by
    intro s' h'
    split_ifs
    exacts [h', h]
  cases e with
  | setupApp appName ok =>
    refine hserve ?_
    cases ok <;> exact h.congr rfl rfl rfl
  | startActor appName appModel actorName actorArgs l => exact hserve (h.startActor ..)
  | stopActor ok appName actorName => exact hserve (h.stopActor ..)
  | handleProcmon ok key l => exact hserve (h.handleProcmon ..)
  | next ok l => exact h.next ..
  | crash => exact ⟨h.records, Dict.not_mem_empty⟩

/-- The event of the manager, when it serves and the resource and the fault manager raise nothing. -/
def Event.manager (cfg : SecurityConfig) : Event → Option DeploymentManager.Event
  | .startActor appName appModel actorName actorArgs l =>
    some (.call (.startActor appName appModel actorName actorArgs (l.result cfg)))
  | .stopActor true appName actorName => some (.call (.haltActor .done appName actorName))
  | .handleProcmon true key l =>
    some (.handleProcmon .done key (if key = DeploymentManager.discoName then l.pid else l.result cfg))
  | _ => none

/-- **A manager that serves goes through the steps of the model below**, in every run. -/
theorem step_depm (cfg : SecurityConfig) (events : List Event) {e : Event} {d : DeploymentManager.Event}
    (hstate : (run (FirewalledManager.step cfg) FirewalledManager.init events).state = .recovered)
    (h : e.manager cfg = some d) :
    (run (FirewalledManager.step cfg) FirewalledManager.init (events ++ [e])).depm =
      (run (FirewalledManager.step cfg) FirewalledManager.init events).depm.step d := by
  have haligned := inv_run (I := Aligned) (fun _ e ht => ht.step cfg e) Aligned.init events
  rw [run_append, run_cons, run_nil]
  generalize run (FirewalledManager.step cfg) FirewalledManager.init events = t at *
  have hserve : ∀ t' : FirewalledManager, t.step cfg e = (if t.state = .recovered then t' else t) → t.step cfg e = t' :=
    fun t' he => he.trans (if_pos hstate)
  cases e with
  | startActor appName appModel actorName actorArgs l =>
    obtain rfl := Option.some.inj h
    rw [hserve _ rfl]
    exact (startActor_depm ..).1
  | stopActor ok appName actorName =>
    cases ok with
    | false => exact absurd h.symm (Option.some_ne_none d)
    | true =>
      obtain rfl := Option.some.inj h
      rw [hserve _ rfl]
      exact (haligned.stopActor_depm ..).1
  | handleProcmon ok key l =>
    cases ok with
    | false => exact absurd h.symm (Option.some_ne_none d)
    | true =>
      obtain rfl := Option.some.inj h
      rw [hserve _ rfl]
      exact haligned.handleProcmon_depm ..
  | setupApp | next | crash => exact absurd h.symm (Option.some_ne_none d)

end FirewalledManager

end Riaps.Deployment
