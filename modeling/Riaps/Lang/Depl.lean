import Riaps.Deployment.FirewallPolicy
import Riaps.Lang.Model

/-!
# Deployment models

A deployment model lists the sites that hosts may access, and says which actors go to which
hosts. `DeploymentModel` makes a dictionary and a list of what the parser has built.

In the dictionary an empty list stands for any network. The grammar has host clauses without a
network, and on those the constructor raises an exception; and of two clauses for a host it
keeps the later one only. These apart, the tables are what the model says (`loads_iff`), and
no model gives access to any network without a clause that says so (`exists_any`).
-/

namespace Riaps.Lang.Depl

open Riaps.Foundation
open Riaps.Deployment (SecurityConfig Launch)

/-! ### The grammar -/

structure Host where
  name : Text
  nonempty : name ≠ []
  /-- `[\w\.-]+`. -/
  matches_regex : ∀ c ∈ name, isWord c = true ∨ c = '.' ∨ c = '-'

/-- `Host_DNS`. -/
inductive HostDNS where
  | dns
  | host (host : Host)

inductive HostNetwork where
  | any
  | access (sites : List HostDNS) (nonempty : sites ≠ [])

inductive HostDeployment where
  /-- For `all` if there is no host. There may be braces, and a network in them. -/
  | host (host : Option Host) (braces : Option (Option HostNetwork))
  /-- A `;` alone. -/
  | semicolon

inductive Location where
  | all
  | hosts (hosts : List Host) (nonempty : hosts ≠ [])

inductive ActualValue where
  | value (v : Value)
  | id (name : Text)

structure Actual where
  argName : Text
  argValue : ActualValue

structure Actor where
  name : Text
  actuals : List Actual

structure ActorDeployment where
  location : Location
  actors : List Actor
  nonempty : actors ≠ []

structure AppDeployment where
  name : Text
  hostDeployments : List HostDeployment
  actorDeployments : List ActorDeployment
  nonempty : actorDeployments ≠ []

/-! ### `DeploymentModel` -/

/-- The attribute `all` of a host clause. -/
def HostDeployment.isAll : HostDeployment → Bool
  | .host none _ => true
  | .host (some _) _ | .semicolon => false

/-- The attribute `host`. -/
def HostDeployment.target : HostDeployment → Option Host
  | .host target _ => target
  | .semicolon => none

/-- The attribute `hostNet`. -/
def HostDeployment.hostNet : HostDeployment → Option HostNetwork
  | .host _ braces => braces.join
  | .semicolon => none

/-- The text of a site. -/
def HostDNS.text : HostDNS → Text
  | .dns => ['d', 'n', 's']
  | .host h => h.name

/-- What is read of an actual value. -/
def ActualValue.text : ActualValue → Value
  | .value v => v
  | .id name => .str name

structure ActualObj where
  name : Text
  value : Value

structure ActorObj where
  name : Text
  actuals : List ActualObj

structure DeploymentObj where
  target : List Text
  actors : List ActorObj

structure DeploymentModel where
  appName : Text
  network : Dict Text (List Text)
  deployments : List DeploymentObj

/-- What the constructor raises. -/
inductive LoadError where
  | attributeError

/-- An attribute is read of an object, or of `None`. -/
def readAttr {α β : Type} (read : α → β) : Option α → Except LoadError β
  | some obj => pure (read obj)
  | none => throw .attributeError

namespace DeploymentModel

/-- `network`, for the sites of a clause. -/
def sites : HostNetwork → List Text
  | .any => []
  | .access access _ => access.foldl (fun network site => network ++ [site.text]) []

/-- `hostName`, for a host clause. -/
def hostName (d : HostDeployment) : Except LoadError Text :=
  if d.isAll then pure ['[', ']'] else readAttr Host.name d.target

/-- A round of the loop over the host clauses. -/
def addHost (network : Dict Text (List Text)) (d : HostDeployment) : Except LoadError (Dict Text (List Text)) := do
  let hostName ← hostName d
  let network' ← readAttr sites d.hostNet
  return network.set hostName network'

/-- `getActuals`. -/
def getActuals (actuals : List Actual) : List ActualObj :=
  actuals.foldl (fun res actual => res ++ [⟨actual.argName, actual.argValue.text⟩]) []

/-- `target`. -/
def target : Location → List Text
  | .all => []
  | .hosts hosts _ => hosts.foldl (fun target host => target ++ [host.name]) []

/-- The entry of an actor clause. -/
def deployment (dep : ActorDeployment) : DeploymentObj where
  target := target dep.location
  actors := dep.actors.foldl (fun actors act => actors ++ [⟨act.name, getActuals act.actuals⟩]) []

/-- `__init__`, for a model that the parser has built. -/
def init (model : AppDeployment) : Except LoadError DeploymentModel := do
  let network ← model.hostDeployments.foldlM addHost .empty
  return ⟨model.name, network, model.actorDeployments.foldl (fun deployments dep => deployments ++ [deployment dep]) []⟩

end DeploymentModel

/-! ### What the model says -/

/-- The key for the host of a clause. -/
def HostDeployment.key (d : HostDeployment) : Text := (d.target.map Host.name).getD ['[', ']']

/-- The sites of a network, none if it is any. -/
def HostNetwork.sites : HostNetwork → List Text
  | .any => []
  | .access sites _ => sites.map HostDNS.text

/-- The hosts of a location, none if it is all. -/
def Location.targets : Location → List Text
  | .all => []
  | .hosts targets _ => targets.map Host.name

def Actor.obj (act : Actor) : ActorObj := ⟨act.name, act.actuals.map fun a => ⟨a.argName, a.argValue.text⟩⟩

def ActorDeployment.obj (dep : ActorDeployment) : DeploymentObj := ⟨dep.location.targets, dep.actors.map Actor.obj⟩

/-- The tables are those of the model. -/
structure Describes (depl : DeploymentModel) (model : AppDeployment) : Prop where
  appName : depl.appName = model.name
  /-- A clause with a network has its entry, -/
  entry : ∀ d ∈ model.hostDeployments, ∀ net ∈ d.hostNet, depl.network.get? d.key = some net.sites
  /-- and there are no others. -/
  only : ∀ key sites, depl.network.get? key = some sites →
    ∃ d ∈ model.hostDeployments, d.key = key ∧ ∃ net ∈ d.hostNet, net.sites = sites
  deployments : depl.deployments = model.actorDeployments.map ActorDeployment.obj

/-- The model is loaded. -/
def Loads (model : AppDeployment) : Prop := ∃ depl, DeploymentModel.init model = .ok depl ∧ Describes depl model

/-! ### The constructor -/

theorem foldl_concat_map {α β : Type} (f : α → β) (l : List α) : l.foldl (fun r a => r ++ [f a]) [] = l.map f := by
  induction l using List.reverseRecOn with
  | nil => rfl
  | append_singleton l a ih => rw [List.foldl_concat, ih, List.map_append, List.map_singleton]

@[simp] theorem sites_eq (net : HostNetwork) : DeploymentModel.sites net = net.sites := by
  cases net with
  | any => rfl
  | access sites _ => exact foldl_concat_map HostDNS.text sites

theorem deployment_eq (dep : ActorDeployment) : DeploymentModel.deployment dep = dep.obj := by
  have htarget : DeploymentModel.target dep.location = dep.location.targets := by
    cases dep.location with
    | all => rfl
    | hosts hosts _ => exact foldl_concat_map Host.name hosts
  have hactual : ∀ actuals, DeploymentModel.getActuals actuals = actuals.map fun a => ⟨a.argName, a.argValue.text⟩ :=
    foldl_concat_map _
  rw [DeploymentModel.deployment, htarget, foldl_concat_map]
  simp only [hactual]
  rfl

theorem readAttr_eq_ok_iff {α β : Type} {read : α → β} {obj : Option α} {b : β} :
    readAttr read obj = .ok b ↔ ∃ a ∈ obj, read a = b := by
  obtain _ | a := obj
  · exact iff_of_false throw_ne_ok fun ⟨_, ha, _⟩ => nomatch ha
  · exact pure_eq_ok_iff.trans ⟨fun h => ⟨a, rfl, h⟩, fun ⟨_, ha, h⟩ => Option.mem_some.mp ha ▸ h⟩

/-- A clause with a network has its host. -/
theorem hostName_eq_ok {d : HostDeployment} (h : d.hostNet.isSome) : DeploymentModel.hostName d = .ok d.key := by
  obtain ⟨_ | target, braces⟩ | _ := d
  · rfl
  · rfl
  · cases h

/-- A round goes through if the clause has a network, and enters its sites. -/
theorem addHost_eq_ok_iff {network network' : Dict Text (List Text)} {d : HostDeployment} :
    DeploymentModel.addHost network d = .ok network' ↔ ∃ net ∈ d.hostNet, network.set d.key net.sites = network' := by
  rw [DeploymentModel.addHost, bind_eq_ok_iff]
  constructor
  · rintro ⟨hostName, hname, h⟩
    obtain ⟨sites, hsites, hset⟩ := bind_eq_ok_iff.mp h
    obtain ⟨net, hnet, rfl⟩ := readAttr_eq_ok_iff.mp hsites
    rw [hostName_eq_ok (Option.isSome_of_mem hnet)] at hname
    obtain rfl := Except.ok.inj hname
    exact ⟨net, hnet, sites_eq net ▸ pure_eq_ok_iff.mp hset⟩
  · rintro ⟨net, hnet, rfl⟩
    refine ⟨d.key, hostName_eq_ok (Option.isSome_of_mem hnet), bind_eq_ok_iff.mpr ⟨net.sites, ?_, rfl⟩⟩
    exact readAttr_eq_ok_iff.mpr ⟨net, hnet, sites_eq net⟩

/-- The loop goes through if each clause has a network. -/
theorem exists_foldlM_addHost {ds : List HostDeployment} (h : ∀ d ∈ ds, d.hostNet.isSome) :
    ∃ network, ds.foldlM DeploymentModel.addHost .empty = .ok network := by
  induction ds using List.reverseRecOn with
  | nil => exact ⟨_, rfl⟩
  | append_singleton ds d ih =>
    obtain ⟨network, hnetwork⟩ := ih fun d' hd' => h d' (List.mem_append_left _ hd')
    obtain ⟨net, hnet⟩ := Option.isSome_iff_exists.mp (h d (by simp))
    exact ⟨_, foldlM_concat_eq_ok_iff.mpr ⟨network, hnetwork, addHost_eq_ok_iff.mpr ⟨net, hnet, rfl⟩⟩⟩

/-- Each clause then has a network, -/
theorem isSome_hostNet {ds : List HostDeployment} {network : Dict Text (List Text)}
    (h : ds.foldlM DeploymentModel.addHost .empty = .ok network) {d : HostDeployment} (hd : d ∈ ds) :
    d.hostNet.isSome := by
  obtain ⟨_, _, hround⟩ := exists_of_foldlM_eq_ok h hd
  obtain ⟨net, hnet, -⟩ := addHost_eq_ok_iff.mp hround
  exact Option.isSome_of_mem hnet

/-- and there is an entry for its key; -/
theorem key_mem {ds : List HostDeployment} {network : Dict Text (List Text)}
    (h : ds.foldlM DeploymentModel.addHost .empty = .ok network) {d : HostDeployment} (hd : d ∈ ds) :
    d.key ∈ network := by
  induction ds using List.reverseRecOn generalizing network with
  | nil => exact absurd hd List.not_mem_nil
  | append_singleton ds d' ih =>
    obtain ⟨network', hrest, hround⟩ := foldlM_concat_eq_ok_iff.mp h
    obtain ⟨net, -, rfl⟩ := addHost_eq_ok_iff.mp hround
    rw [Dict.mem_set]
    obtain hd | hd := List.mem_append.mp hd
    · exact .inr (ih hrest hd)
    · exact .inl (List.mem_singleton.mp hd ▸ rfl)

/-- each entry is that of a clause. -/
theorem exists_of_get? {ds : List HostDeployment} {network : Dict Text (List Text)}
    (h : ds.foldlM DeploymentModel.addHost .empty = .ok network) {key : Text} {sites : List Text}
    (hget : network.get? key = some sites) : ∃ d ∈ ds, d.key = key ∧ ∃ net ∈ d.hostNet, net.sites = sites := by
  induction ds using List.reverseRecOn generalizing network with
  | nil =>
    obtain rfl := pure_eq_ok_iff.mp h
    exact absurd hget (by simp)
  | append_singleton ds d ih =>
    obtain ⟨network', hrest, hround⟩ := foldlM_concat_eq_ok_iff.mp h
    obtain ⟨net, hnet, rfl⟩ := addHost_eq_ok_iff.mp hround
    obtain ⟨rfl, rfl⟩ | ⟨-, hget⟩ := Dict.get?_set_eq_some.mp hget
    · exact ⟨d, by simp, rfl, net, hnet, rfl⟩
    · obtain ⟨d', hd', hrest⟩ := ih hrest hget
      exact ⟨d', List.mem_append_left _ hd', hrest⟩

theorem Host.name_ne (host : Host) : host.name ≠ ['[', ']'] := by
  intro h
  have hbracket := host.matches_regex '[' (by rw [h]; exact List.mem_cons_self)
  exact absurd hbracket (by decide)

/-- Hosts are told apart by their keys. -/
theorem key_inj {d d' : HostDeployment} : d.key = d'.key ↔ d.target = d'.target := by
  rw [HostDeployment.key, HostDeployment.key]
  obtain _ | host := d.target <;> obtain _ | host' := d'.target
  · exact iff_of_true rfl rfl
  · exact iff_of_false (host'.name_ne ∘ Eq.symm) nofun
  · exact iff_of_false host.name_ne nofun
  · cases host
    cases host'
    simp

/-! ### Loading -/

/-- What the constructor makes has the entries of clauses only. -/
theorem describes_of_init {model : AppDeployment} {depl : DeploymentModel} (h : DeploymentModel.init model = .ok depl) :
    Describes depl model ↔ ∀ d ∈ model.hostDeployments, ∀ d' ∈ model.hostDeployments, d.target = d'.target →
      ∀ net ∈ d.hostNet, ∀ net' ∈ d'.hostNet, net.sites = net'.sites := by
  obtain ⟨network, hnetwork, hpure⟩ := bind_eq_ok_iff.mp h
  obtain rfl := pure_eq_ok_iff.mp hpure
  constructor
  · intro hdescribes d hd d' hd' htarget net hnet net' hnet'
    have hentry := hdescribes.entry d hd net hnet
    rw [key_inj.mpr htarget, hdescribes.entry d' hd' net' hnet'] at hentry
    exact (Option.some.inj hentry).symm
  · intro hagree
    refine ⟨rfl, fun d hd net hnet => ?_, fun key sites => exists_of_get? hnetwork, ?_⟩
    · obtain ⟨sites, hsites⟩ := Dict.mem_iff_exists_get?.mp (key_mem hnetwork hd)
      obtain ⟨d', hd', hkey, net', hnet', rfl⟩ := exists_of_get? hnetwork hsites
      rw [hagree d hd d' hd' (key_inj.mp hkey.symm) net hnet net' hnet']
      exact hsites
    · exact (foldl_concat_map _ _).trans (List.map_congr_left fun dep _ => deployment_eq dep)

/-- A model is loaded exactly if each host clause has a network, and the clauses for one host have the same sites. -/
theorem loads_iff (model : AppDeployment) :
    Loads model ↔ (∀ d ∈ model.hostDeployments, d.hostNet.isSome) ∧
      ∀ d ∈ model.hostDeployments, ∀ d' ∈ model.hostDeployments, d.target = d'.target →
        ∀ net ∈ d.hostNet, ∀ net' ∈ d'.hostNet, net.sites = net'.sites := by
  constructor
  · rintro ⟨depl, hinit, hdescribes⟩
    obtain ⟨network, hnetwork, -⟩ := bind_eq_ok_iff.mp hinit
    exact ⟨fun d hd => isSome_hostNet hnetwork hd, (describes_of_init hinit).mp hdescribes⟩
  · rintro ⟨hsome, hagree⟩
    obtain ⟨network, hnetwork⟩ := exists_foldlM_addHost hsome
    have hinit : DeploymentModel.init model = .ok _ := bind_eq_ok_iff.mpr ⟨network, hnetwork, rfl⟩
    exact ⟨_, hinit, (describes_of_init hinit).mpr hagree⟩

/-- A clause for all hosts without a network is not loaded. -/
theorem not_loads : ¬Loads {
    name := ['A']
    hostDeployments := [.host none none]
    actorDeployments := [⟨.all, [⟨['B'], []⟩], List.cons_ne_nil _ _⟩]
    nonempty := List.cons_ne_nil _ _ } := by
  rintro ⟨depl, hinit, -⟩
  exact nomatch hinit

/-! ### The firewall -/

/-- Where the firewall has an empty list, and so no restriction, a clause of the model says so. -/
theorem exists_any {model : AppDeployment} {depl : DeploymentModel} (h : DeploymentModel.init model = .ok depl)
    {l : Launch} (hl : ∀ host, (l.network.get? host).join = depl.network.get? host) :
    (l.globalSites = some [] → ∃ d ∈ model.hostDeployments, d.target = none ∧ d.hostNet = some .any) ∧
      ∀ cfg : SecurityConfig, l.ownSites cfg = some [] →
        ∃ d ∈ model.hostDeployments, d.key = cfg.hostAddress ∧ d.hostNet = some .any := by
  obtain ⟨network, hnetwork, hpure⟩ := bind_eq_ok_iff.mp h
  obtain rfl := pure_eq_ok_iff.mp hpure
  have hany : ∀ key, network.get? key = some [] →
      ∃ d ∈ model.hostDeployments, d.key = key ∧ d.hostNet = some .any := by
    intro key hget
    obtain ⟨d, hd, hkey, net, hnet, hsites⟩ := exists_of_get? hnetwork hget
    cases net with
    | any => exact ⟨d, hd, hkey, hnet⟩
    | access sites hne => exact absurd (List.map_eq_nil_iff.mp hsites) hne
  constructor
  · intro hglobal
    obtain ⟨d, hd, hkey, hnet⟩ := hany _ ((hl _).symm.trans hglobal)
    obtain ⟨_ | host, _⟩ | _ := d
    · exact ⟨_, hd, rfl, hnet⟩
    · exact absurd hkey host.name_ne
    · cases hnet
  · exact fun cfg hown => hany _ ((hl _).symm.trans hown)

/-! ### The clause for a host -/

/-- The last clause for a key. -/
def AppDeployment.clauseFor (model : AppDeployment) (key : Text) : Option HostDeployment :=
  model.hostDeployments.reverse.find? fun d => d.key = key

/-- The entry for a key is of the last clause for it. -/
theorem get?_network {model : AppDeployment} {depl : DeploymentModel} (h : DeploymentModel.init model = .ok depl)
    (key : Text) :
    depl.network.get? key = ((model.clauseFor key).bind HostDeployment.hostNet).map HostNetwork.sites := by
  obtain ⟨network, hnetwork, hpure⟩ := bind_eq_ok_iff.mp h
  obtain rfl := pure_eq_ok_iff.mp hpure
  dsimp only
  rw [AppDeployment.clauseFor]
  clear h hpure
  generalize model.hostDeployments = ds at hnetwork ⊢
  induction ds using List.reverseRecOn generalizing network with
  | nil =>
    obtain rfl := pure_eq_ok_iff.mp hnetwork
    rfl
  | append_singleton ds d ih =>
    obtain ⟨network', hrest, hround⟩ := foldlM_concat_eq_ok_iff.mp hnetwork
    obtain ⟨net, hnet, rfl⟩ := addHost_eq_ok_iff.mp hround
    rw [List.reverse_concat, List.find?_cons, Dict.get?_set]
    by_cases hkey : key = d.key
    · rw [if_pos hkey, decide_eq_true hkey.symm, Option.bind_some, Option.mem_def.mp hnet, Option.map_some]
    · rw [if_neg hkey, decide_eq_false (Ne.symm hkey)]
      exact ih network' hrest

end Riaps.Lang.Depl
