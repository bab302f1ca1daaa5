import Mathlib.Logic.Equiv.List
import Mathlib.Tactic.DeriveEncodable
import Riaps.Deployment.AppModels
import Riaps.Foundation.Struct

/-!
# The policy of an app, from its model to the firewall

What an app may access is said in its deployment model. The controller puts it into the package, as
the descriptor; the node makes its record of that; and before an actor is started the rules of the
firewall are set up from the record.

So a packet of the app's user goes through exactly if the deployment model lets it, or it stays on the
node, or goes to a node with actors of the app: `enforced_run`. This is of the model that the
last package was built from, as long as the record is of its descriptor (see `current_iff`).
-/

namespace Riaps.Deployment

open Riaps.Foundation
open Riaps.Control
open Riaps.Lang.Depl (AppDeployment DeploymentModel HostDeployment HostNetwork ActorDeployment)

/-! ### What goes through -/

namespace Launch

variable {l : Launch} {cfg : SecurityConfig}

theorem anywhere_notMem_accepted (h : l.Resolver cfg) : anywhere ∉ l.accepted cfg := by
  rw [accepted]
  refine fun hmem => (List.mem_cons.mp hmem).elim (h.address _ _ h.localhost ∘ Eq.symm) fun hmem => ?_
  rcases List.mem_append.mp hmem with hmem | hmem
  · rcases List.mem_append.mp hmem with hmem | hmem
    · exact anywhere_notMem_listed h h.hosts hmem
    · exact anywhere_notMem_listed h h.globalSites hmem
  · split_ifs at hmem with hany
    · exact List.not_mem_nil hmem
    · exact anywhere_notMem_listed h (h.ownSites hany) hmem

/-- The rules go through with no exception, and let through what is accepted, or all if there is no last rule. -/
theorem verdict_setupAppNetwork (hsecurity : cfg.security = true) (huser : l.user ≠ cfg.targetUser)
    (h : l.Resolver cfg) :
    ∃ rules, l.setupAppNetwork cfg [] = .ok ⟨⟩ rules ∧ ∀ address,
      verdict rules l.user address = .accept ↔ address ∈ l.accepted cfg ∨ l.lastRule cfg = [] := by
  have hadds := adds_setupAppNetwork hsecurity huser h []
  rw [Ends] at hadds
  cases hrun : l.setupAppNetwork cfg [] with
  | error e t =>
    rw [hrun] at hadds
    exact hadds.elim
  | ok a t =>
    rw [hrun] at hadds
    refine ⟨t, rfl, fun address => ?_⟩
    rw [hadds.2, List.nil_append]
    refine verdict_eq_accept_iff (anywhere_notMem_accepted h) ?_
    rw [lastRule]
    split_ifs
    exacts [.inl rfl, .inr rfl]

/-- What is accepted, in terms of the lists. -/
theorem mem_accepted_or (address : Text) :
    address ∈ l.accepted cfg ∨ l.lastRule cfg = [] ↔ address = localhost ∨ l.IsListed l.hosts address ∨
      (l.globalSites = some [] ∨ l.IsListed l.globalSites address) ∨
        (l.ownSites cfg = some [] ∨ l.IsListed (l.ownSites cfg) address) := by
  rw [accepted, lastRule, List.mem_cons, List.mem_append, List.mem_append, mem_listed, mem_listed]
  by_cases hglobal : l.globalSites = some []
  · simp [hglobal]
  · by_cases hown : l.ownSites cfg = some []
    · simp [hglobal, hown]
    · simp [hglobal, hown, mem_listed, or_assoc]

end Launch

/-! ### Building -/

/-- A package of an app that a controller has built, from this deployment model. -/
structure Build (appName : AppName) where
  Client : Type
  Actor : Type
  [decidableEq : DecidableEq Client]
  controller : Controller Text Client AppName Actor
  gethostbyname : Text → Option Text
  name : Client → Text
  folder : AppFolder
  appModel : Option (Dict Text AppObj)
  model : AppDeployment
  depl : DeploymentModel
  init_eq : DeploymentModel.init model = .ok depl
  download : Download Client
  build_eq : controller.buildDownload gethostbyname name folder appName appModel (some depl) = .ok (some download)

namespace Build

variable {appName : AppName}

attribute [instance] decidableEq

section Formats

variable (F : Formats) (b : Build appName)

/-- The archive of the package, -/
def tgz : List UInt8 := (buildPackage F b.folder b.download).1

/-- and its signature. -/
def sig : List UInt8 := (buildPackage F b.folder b.download).2

/-- The contents of the files. -/
def contents : Text → List UInt8 := Function.update b.folder.contents appDescFile (F.dump b.download.descriptor)

/-- The files in the archive. -/
def files : List (Text × List UInt8) := b.download.download.map fun f => (f, b.contents F f)

theorem extract_tgz : F.extract (b.tgz F) = some (b.files F) := F.extract_tar _

theorem verify_sig : F.verify (b.tgz F) (b.sig F) = true := F.verify_sign _

/-- The descriptor is what is loaded from a folder that the archive is extracted into. -/
theorem descriptor_extractAll (before : Files) :
    AppNode.descriptor F (AppNode.extractAll (b.files F) before) = b.download.descriptor := by
  have hmem := (Controller.buildDownload_spec b.build_eq).2.1
  rw [AppNode.descriptor, files, AppNode.get?_extractAll hmem, contents, Function.update_self, Option.bind_some,
    F.load_dump, Option.getD_some]

end Formats

variable (b : Build appName)

/-- An actor of the app is deployed to a client with this address. -/
def Hosts (host : Text) : Prop :=
  ∃ dep ∈ b.model.actorDeployments, ∃ client, b.controller.DeployedTo b.gethostbyname dep.obj client ∧
    b.gethostbyname (b.name client) = some host

/-- The clause for a key lets the app access an address. -/
def Allows (l : Launch) (key address : Text) : Prop :=
  ∃ net, (b.model.clauseFor key).bind HostDeployment.hostNet = some net ∧
    (net.sites = [] ∨ ∃ site ∈ net.sites, address ∈ l.addresses site)

/-- The app may access an address: it is the node itself or one with actors of the app, or the clause for all hosts or
that for this one lets it. -/
def Permits (l : Launch) (cfg : SecurityConfig) (address : Text) : Prop :=
  address = Launch.localhost ∨ (∃ host, b.Hosts host ∧ address ∈ l.addresses host) ∨
    b.Allows l ['[', ']'] address ∨ b.Allows l cfg.hostAddress address

theorem mem_hosts (host : Text) : host ∈ b.download.descriptor.hosts ↔ b.Hosts host := by
  obtain ⟨network, -, hpure⟩ := bind_eq_ok_iff.mp b.init_eq
  have hdepls : b.depl.deployments = b.model.actorDeployments.map ActorDeployment.obj := by
    rw [← pure_eq_ok_iff.mp hpure, Lang.Depl.foldl_concat_map]
    exact List.map_congr_left fun dep _ => Lang.Depl.deployment_eq dep
  rw [(Controller.buildDownload_spec b.build_eq).2.2.2, hdepls, Hosts]
  simp only [List.mem_map, exists_exists_and_eq_and]

theorem network_eq : b.download.descriptor.network = b.depl.network :=
  (Controller.buildDownload_spec b.build_eq).2.2.1

/-- A clause lets the app access an address if its list does, or is empty. -/
theorem allows_iff (l : Launch) (key address : Text) :
    b.Allows l key address ↔
      b.depl.network.get? key = some [] ∨ l.IsListed (b.depl.network.get? key) address := by
  rw [Lang.Depl.get?_network b.init_eq, Allows, Launch.IsListed]
  cases (b.model.clauseFor key).bind HostDeployment.hostNet with
  | none => simp
  | some net => simp

end Build

/-! ### Starting -/

/-- What the start of an actor takes from the record of its app. -/
structure DeploAppRecord.StartedFrom (record : DeploAppRecord) (l : Launch) : Prop where
  hosts : l.hosts = some record.descriptor.hosts
  network : ∀ key, (l.network.get? key).join = record.descriptor.network.get? key

/-- The policy of the package that a record is of is enforced. -/
theorem DeploAppRecord.StartedFrom.verdict {appName : AppName} {b : Build appName} {record : DeploAppRecord}
    {l : Launch} (hl : record.StartedFrom l) (h : record.descriptor = b.download.descriptor) {cfg : SecurityConfig}
    (hsecurity : cfg.security = true) (huser : l.user ≠ cfg.targetUser) (hresolver : l.Resolver cfg) :
    ∃ rules, l.setupAppNetwork cfg [] = .ok ⟨⟩ rules ∧ ∀ address,
      verdict rules l.user address = .accept ↔ b.Permits l cfg address := by
  obtain ⟨rules, hrules, hverdict⟩ := Launch.verdict_setupAppNetwork hsecurity huser hresolver
  refine ⟨rules, hrules, fun address => (hverdict address).trans ?_⟩
  have hnetwork : ∀ key, (l.network.get? key).join = b.depl.network.get? key := by
    intro key
    rw [hl.network, h, b.network_eq]
  have hhosts : l.IsListed l.hosts address ↔ ∃ host, b.Hosts host ∧ address ∈ l.addresses host := by
    rw [hl.hosts, Launch.IsListed, h]
    simp only [Option.some.injEq, exists_eq_left', b.mem_hosts]
  rw [Launch.mem_accepted_or, hhosts, Build.Permits, b.allows_iff, b.allows_iff, Launch.globalSites, Launch.ownSites,
    hnetwork, hnetwork]

namespace AppNode

variable {F : Formats} {appName : AppName}

/-- The record of an app that was set up with the archive of a package in its folder has the descriptor of that
package. -/
theorem exists_record {s : AppNode} (hs : s.Current F) (harchived : s.Archived F) {b : Build appName}
    (hcurrent : appName ∈ s.current) (harchive : s.archives.get? appName = some (b.tgz F)) :
    ∃ record, s.appModels.get? appName = some record ∧ record.descriptor = b.download.descriptor := by
  obtain ⟨folder, record, hfolder, hrecord, hdescriptor⟩ := hs appName hcurrent
  obtain ⟨-, files, before, hextract, hfolder'⟩ := harchived appName _ harchive
  rw [b.extract_tgz] at hextract
  obtain rfl := Option.some.inj hextract
  obtain rfl := Option.some.inj (hfolder.symm.trans hfolder')
  exact ⟨record, hrecord, hdescriptor.trans (b.descriptor_extractAll F before)⟩

/-- What is installed and set up is a package as above, if its model can be loaded. -/
theorem run_install (s : AppNode) (b : Build appName) (removed : Bool)
    (hjson : F.json (b.contents F (appNameJSON appName)) = true) :
    appName ∈ (run (step F) s [.installApp appName (b.tgz F) (b.sig F) (.done removed), .setupApp appName]).current ∧
      (run (step F) s [.installApp appName (b.tgz F) (b.sig F) (.done removed), .setupApp appName]).archives.get?
        appName = some (b.tgz F) := by
  rw [run_cons, run_cons, run_nil, step, step, installPackage.eq_def, if_pos (b.verify_sig F),
    b.extract_tgz F]
  dsimp only
  generalize (if removed = true then _ else _ : Files) = before
  have hmodel : (extractAll (b.files F) before).get? (appNameJSON appName) =
      some (b.contents F (appNameJSON appName)) :=
    get?_extractAll (Controller.buildDownload_spec b.build_eq).1 before
  rw [setupApp]
  dsimp only [changed]
  rw [Option.elim_some, Dict.get?_set_self, Option.bind_some, loadModel, hmodel, Option.bind_eq_bind,
    Option.bind_some]
  dsimp only
  rw [if_pos hjson]
  split_ifs <;> exact ⟨List.mem_insert_self .., Dict.get?_set_self ..⟩

/-- **The policy of an app is enforced.** As long as no app is set up with the model of its record and another
descriptor: when an app was set up and the archive in its folder is of a package, there is a record of it, and
whenever an actor is started from that, by a user of the app's own and with names that resolve, the firewall lets
its packets through exactly to where the deployment model of the package permits. -/
theorem enforced_run (F : Formats) {events : List NodeEvent} (hcoherent : AllSteps (step F) (Coherent F) init events)
    {b : Build appName} (hcurrent : appName ∈ (run (step F) init events).current)
    (harchive : (run (step F) init events).archives.get? appName = some (b.tgz F)) :
    ∃ record, (run (step F) init events).appModels.get? appName = some record ∧
      ∀ (l : Launch) (cfg : SecurityConfig), record.StartedFrom l → cfg.security = true → l.user ≠ cfg.targetUser →
        l.Resolver cfg → ∃ rules, l.setupAppNetwork cfg [] = .ok ⟨⟩ rules ∧ ∀ address,
          verdict rules l.user address = .accept ↔ b.Permits l cfg address := by
  have hs : (run (step F) init events).Current F :=
    hcoherent.inv (I := Current F) (fun _ e hs he => (current_step_iff hs e).mpr he) (current_init F)
  obtain ⟨record, hrecord, hdescriptor⟩ := exists_record hs (archived_run F events) hcurrent harchive
  exact ⟨record, hrecord, fun l cfg hl hsecurity huser hresolver => hl.verdict hdescriptor hsecurity huser hresolver⟩

end AppNode

/-! ### A package -/

instance encodableNetwork : Encodable (Dict Text (List Text)) :=
  Encodable.ofLeftInjection Dict.items (fun items => if h : (items.map Prod.fst).Nodup then some ⟨items, h⟩ else none)
    fun d => dif_pos d.nodup

deriving instance Encodable for AppDescriptor

/-- What is written is so many bytes, and data are signed with themselves. -/
def unaryFormats : Formats where
  dump d := List.replicate (Encodable.encode d) 0
  load b := Encodable.decode b.length
  load_dump d := by rw [List.length_replicate, Encodable.encodek]
  tar files := List.replicate (Encodable.encode files) 0
  extract b := Encodable.decode b.length
  extract_tar files := by rw [List.length_replicate, Encodable.encodek]
  sign data := data
  verify data sig := data = sig
  verify_sign data := decide_eq_true rfl
  md5 data := data
  json _ := true

/-- An app with one actor, for all hosts, which may access one site. -/
def oneSite : Build ⟨['A'], by decide⟩ where
  Client := Unit
  Actor := Unit
  controller := ⟨Dict.empty.set ['h'] ⟨⟩, .empty, [], []⟩
  gethostbyname := some
  name _ := ['h']
  folder := ⟨[], fun _ => false, false, [], fun _ => [], id⟩
  appModel := some (Dict.empty.set ['A'] ⟨[['B']], [], [], []⟩)
  model := {
    name := ['A']
    hostDeployments := [.host none (some (some (.access [.host
      ⟨['b'], List.cons_ne_nil _ _, List.forall_mem_singleton.mpr (by decide)⟩] (List.cons_ne_nil _ _))))]
    actorDeployments := [⟨.all, [⟨['B'], []⟩], List.cons_ne_nil _ _⟩]
    nonempty := List.cons_ne_nil _ _ }
  depl := ⟨['A'], Dict.empty.set ['[', ']'] [['b']], [⟨[], [⟨['B'], []⟩]⟩]⟩
  init_eq := rfl
  download := {
    download := [appNameJSON ⟨['A'], by decide⟩, appDescFile, lit "riaps-app.cert"]
    libraries := []
    clients := [⟨⟩]
    depls := [⟨[], [⟨['B'], []⟩]⟩]
    descriptor := ⟨[], [['h']], Dict.empty.set ['[', ']'] [['b']]⟩ }
  build_eq := rfl

/-- The start of its actor. -/
def oneSiteLaunch : Launch where
  ready := true
  user := ['u']
  hosts := some [['h']]
  network := Dict.empty.set ['[', ']'] (some [['b']])
  gethostbyname name := if name = ['b'] then some ['2'] else if name = Launch.anywhere then none else some name
  dns := none
  pid := some 1

theorem resolver_oneSiteLaunch : oneSiteLaunch.Resolver ⟨true, ['t'], ['h']⟩ where
  localhost := by decide
  hosts := by
    intro site hsite
    obtain rfl := List.mem_singleton.mp hsite
    exact ⟨fun _ => rfl, fun he => absurd he (by decide)⟩
  globalSites := by
    intro site hsite
    change site ∈ [['b']] at hsite
    obtain rfl := List.mem_singleton.mp hsite
    exact ⟨fun _ => rfl, fun he => absurd he (by decide)⟩
  ownSites _ site hsite := absurd hsite (by simp [Launch.ownSites, oneSiteLaunch, Dict.get?_set])
  address := by
    intro site address hsite
    change (if site = ['b'] then some ['2'] else if site = Launch.anywhere then none else some site) = _ at hsite
    split_ifs at hsite with hb hany
    · obtain rfl := Option.some.inj hsite
      decide
    · obtain rfl := Option.some.inj hsite
      exact hany

/-- Its packets go to where they may. -/
theorem enforced_oneSite :
    ∃ rules, oneSiteLaunch.setupAppNetwork ⟨true, ['t'], ['h']⟩ [] = .ok ⟨⟩ rules ∧ ∀ address,
      verdict rules ['u'] address = .accept ↔ oneSite.Permits oneSiteLaunch ⟨true, ['t'], ['h']⟩ address := by
  obtain ⟨hcurrent, harchive⟩ := AppNode.run_install (F := unaryFormats) AppNode.init oneSite false rfl
  have hcoherent : AllSteps (AppNode.step unaryFormats) (AppNode.Coherent unaryFormats) AppNode.init
      [.installApp ⟨['A'], by decide⟩ (oneSite.tgz unaryFormats) (oneSite.sig unaryFormats) (.done false),
        .setupApp ⟨['A'], by decide⟩] := by
    refine allSteps_cons.mpr ⟨trivial, allSteps_cons.mpr ⟨?_, allSteps_nil⟩⟩
    intro folder fileData record _ _ hrecord
    rw [AppNode.step, AppNode.installPackage.eq_def, if_pos (oneSite.verify_sig _), oneSite.extract_tgz] at hrecord
    cases hrecord
  obtain ⟨record, hrecord, henforced⟩ := AppNode.enforced_run unaryFormats hcoherent hcurrent harchive
  obtain ⟨record', hrecord', hdescriptor⟩ := AppNode.exists_record
    (hcoherent.inv (I := AppNode.Current unaryFormats) (fun _ e hs he => (AppNode.current_step_iff hs e).mpr he)
      (AppNode.current_init _)) (AppNode.archived_run unaryFormats _) hcurrent harchive
  obtain rfl := Option.some.inj (hrecord.symm.trans hrecord')
  refine henforced oneSiteLaunch ⟨true, ['t'], ['h']⟩ ⟨?_, fun key => ?_⟩ rfl (by decide) resolver_oneSiteLaunch
  · rw [hdescriptor]
    rfl
  · rw [hdescriptor]
    show (Dict.get? (Dict.empty.set ['[', ']'] (some [['b']])) key).join =
      Dict.get? (Dict.empty.set ['[', ']'] [['b']]) key
    rw [Dict.get?_set, Dict.get?_set]
    split_ifs <;> rfl

end Riaps.Deployment
