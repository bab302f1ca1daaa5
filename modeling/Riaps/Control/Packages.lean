import Riaps.Control.Controller
import Riaps.Lang.Depl

/-!
# The packages of apps

To load an app the controller collects its files, the clients that it is deployed to and what the
deployment model says about the network. The last two go into a descriptor, which is one of the
files. They are put into an archive, and the archive is signed with the controller's key.

What YAML, `tar` and the signature are for is in `Formats`: what is dumped is loaded, what is
archived is extracted, and what is signed is verified.
-/

namespace Riaps.Control

open Riaps.Foundation
open Riaps.Deployment (AppName)
open Riaps.Lang.Depl (DeploymentModel DeploymentObj)

/-- `AppDescriptor`, with what is read of it. -/
structure AppDescriptor where
  home : Text
  hosts : List Text
  network : Dict Text (List Text)

/-- The formats of files. -/
structure Formats where
  /-- `yaml.dump` and `yaml.load`, of a descriptor; `none` is an exception. -/
  dump : AppDescriptor → List UInt8
  load : List UInt8 → Option AppDescriptor
  load_dump : ∀ d, load (dump d) = some d
  /-- `tarfile`, for the files in the folder of an app. -/
  tar : List (Text × List UInt8) → List UInt8
  extract : List UInt8 → Option (List (Text × List UInt8))
  extract_tar : ∀ files, extract (tar files) = some files
  /-- `signPackage`, with the controller's key, and `verifyPackage`. -/
  sign : List UInt8 → List UInt8
  verify : List UInt8 → List UInt8 → Bool
  verify_sign : ∀ data, verify data (sign data) = true
  /-- `hashlib.md5`. -/
  md5 : List UInt8 → List UInt8
  /-- Whether `json.load` goes through. -/
  json : List UInt8 → Bool

/-- What is read of the compiled model of an app. -/
structure AppObj where
  actors : List Text
  components : List Text
  devices : List Text
  libraries : List Text

/-- The folder of an app. -/
structure AppFolder where
  home : Text
  isfile : Text → Bool
  /-- The configuration of the log can be read. -/
  logConf : Bool
  /-- The files that `os.scandir` finds. -/
  entries : List Text
  contents : Text → List UInt8
  /-- `str.lower`. -/
  lower : Text → Text

/-- What `buildDownload` returns, with the descriptor that it has written. -/
structure Download (Client : Type) where
  download : List Text
  libraries : List Text
  clients : List Client
  depls : List DeploymentObj
  descriptor : AppDescriptor

/-- The exception of `gethostbyname`. -/
inductive GaiError where
  | gaierror

/-- `const.appDescFile`. -/
def appDescFile : Text := lit "riaps.yaml"

/-- `appNameJSON`. -/
def appNameJSON (appName : AppName) : Text := appName.name ++ lit ".json"

namespace AppFolder

variable (folder : AppFolder)

/-- The files of a component or of a device. -/
def implementation (name : Text) : List Text :=
  [name ++ lit ".py", lit "lib" ++ folder.lower name ++ lit ".so"].filter folder.isfile

/-- `os.path.splitext(name)[1] == '.capnp'`: a name that begins with a dot has no extension there. -/
def isCapnp (name : Text) : Bool :=
  lit ".capnp" <:+ name ∧ (name.take (name.length - (lit ".capnp").length)).any (· ≠ '.')

/-- The files of an app but for its descriptor and its certificate. -/
def files (appName : AppName) (appObj : AppObj) : List Text :=
  appNameJSON appName :: ((if folder.logConf then [lit "riaps-log.conf"] else []) ++
    appObj.components.flatMap folder.implementation ++ folder.entries.filter isCapnp ++
    appObj.devices.flatMap folder.implementation)

end AppFolder

namespace Controller

variable {Client Actor : Type} [DecidableEq Client] (gethostbyname : Text → Option Text)

/-- The clients of a deployment: those of its targets, or all. -/
def addClients (c : Controller Text Client AppName Actor) (clients : List Client) (depl : DeploymentObj) :
    List Client :=
  if depl.target = [] then
    c.clientMap.keys.foldl (fun clients name => (c.clientMap.get? name).elim clients clients.insert) clients
  else depl.target.foldl (fun clients target => (c.findClient gethostbyname target).elim clients clients.insert) clients

/-- `socket.gethostbyname(c.name)`, of a client. -/
def hostOf (f : Client → Option Text) (client : Client) : Except GaiError Text :=
  (f client).elim (throw .gaierror) pure

/-- `buildDownload`, for the model and the deployment model of the app. -/
def buildDownload (name : Client → Text) (folder : AppFolder) (appName : AppName) (model : Option (Dict Text AppObj))
    (depl : Option DeploymentModel) (c : Controller Text Client AppName Actor) :
    Except GaiError (Option (Download Client)) :=
  match model, depl with
  | some model, some depl =>
    match model.get? appName.name with
    | none => pure none
    | some appObj =>
      -- all actors are to be in the model
      if ∃ d ∈ depl.deployments, ∃ actor ∈ d.actors, actor.name ∉ appObj.actors then pure none
      else do
        let clients := depl.deployments.foldl (c.addClients gethostbyname) []
        let hosts ← clients.mapM (hostOf fun client => gethostbyname (name client))
        return some {
          download := folder.files appName appObj ++ [appDescFile, lit "riaps-app.cert"]
          libraries := appObj.libraries
          clients := clients
          depls := depl.deployments
          descriptor := ⟨folder.home, hosts, depl.network⟩ }
  | _, _ => pure none

/-- A deployment goes to the client. -/
def DeployedTo (c : Controller Text Client AppName Actor) (depl : DeploymentObj) (client : Client) : Prop :=
  if depl.target = [] then ∃ name, c.clientMap.get? name = some client
  else ∃ target ∈ depl.target, c.findClient gethostbyname target = some client

variable {gethostbyname} {c : Controller Text Client AppName Actor}

theorem mem_foldl_insert {α : Type} (f : α → Option Client) (as : List α) (clients : List Client) (client : Client) :
    client ∈ as.foldl (fun clients a => (f a).elim clients clients.insert) clients ↔
      client ∈ clients ∨ ∃ a ∈ as, f a = some client := by
  induction as generalizing clients with
  | nil => simp
  | cons a as ih =>
    rw [List.foldl_cons, ih, List.exists_mem_cons_iff]
    cases f a with
    | none => simp
    | some client' =>
      rw [Option.elim_some, List.mem_insert_iff, Option.some.injEq, eq_comm (a := client), or_comm (a := client' = _),
        or_assoc]

theorem mem_addClients (clients : List Client) (depl : DeploymentObj) (client : Client) :
    client ∈ c.addClients gethostbyname clients depl ↔ client ∈ clients ∨ c.DeployedTo gethostbyname depl client := by
  rw [addClients, DeployedTo]
  split_ifs
  · rw [mem_foldl_insert]
    refine or_congr_right ⟨fun ⟨name, _, h⟩ => ⟨name, h⟩, fun ⟨name, h⟩ => ⟨name, ?_, h⟩⟩
    exact Dict.mem_iff_mem_keys.mp (Dict.mem_iff_exists_get?.mpr ⟨client, h⟩)
  · exact mem_foldl_insert _ _ _ _

/-- The clients are those that a deployment goes to. -/
theorem mem_foldl_addClients (depls : List DeploymentObj) (clients : List Client) (client : Client) :
    client ∈ depls.foldl (c.addClients gethostbyname) clients ↔
      client ∈ clients ∨ ∃ depl ∈ depls, c.DeployedTo gethostbyname depl client := by
  induction depls generalizing clients with
  | nil => simp
  | cons depl depls ih => rw [List.foldl_cons, ih, mem_addClients, List.exists_mem_cons_iff, or_assoc]

omit [DecidableEq Client] in
theorem mem_of_mapM_eq_ok {f : Client → Option Text} {clients : List Client} {hosts : List Text}
    (h : clients.mapM (hostOf f) = .ok hosts) (host : Text) :
    host ∈ hosts ↔ ∃ client ∈ clients, f client = some host := by
  induction mapM_eq_ok_iff.mp h with
  | nil => simp
  | @cons client host' clients hosts hhead htail ih =>
    have hf : f client = some host' := by
      rw [hostOf] at hhead
      cases hclient : f client with
      | none =>
        rw [hclient] at hhead
        cases hhead
      | some address =>
        rw [hclient] at hhead
        rw [pure_eq_ok_iff.mp hhead]
    rw [List.mem_cons, ih (mapM_eq_ok_iff.mpr htail), List.exists_mem_cons_iff, hf, Option.some.injEq,
      eq_comm (a := host)]

/-- What is built has the descriptor of the app among its files, with the network of the deployment model and the
addresses of the clients that actors are deployed to. -/
theorem buildDownload_spec {name : Client → Text} {folder : AppFolder} {appName : AppName}
    {model : Option (Dict Text AppObj)} {depl : DeploymentModel} {d : Download Client}
    (h : c.buildDownload gethostbyname name folder appName model (some depl) = .ok (some d)) :
    appNameJSON appName ∈ d.download ∧ appDescFile ∈ d.download ∧ d.descriptor.network = depl.network ∧
      ∀ host, host ∈ d.descriptor.hosts ↔ ∃ dep ∈ depl.deployments, ∃ client, c.DeployedTo gethostbyname dep client ∧
        gethostbyname (name client) = some host := by
  cases model with
  | none => cases h
  | some model =>
    rw [buildDownload] at h
    cases hobj : model.get? appName.name with
    | none =>
      rw [hobj] at h
      cases h
    | some appObj =>
      rw [hobj] at h
      dsimp only at h
      split_ifs at h
      · cases h
      · obtain ⟨hosts, hhosts, hd⟩ := bind_eq_ok_iff.mp h
        obtain rfl := Option.some.inj (pure_eq_ok_iff.mp hd)
        refine ⟨?_, ?_, rfl, fun host => ?_⟩
        · exact List.mem_append_left _ List.mem_cons_self
        · exact List.mem_append_right _ List.mem_cons_self
        · rw [mem_of_mapM_eq_ok hhosts]
          simp only [mem_foldl_addClients, List.not_mem_nil, false_or]
          constructor
          · rintro ⟨client, ⟨dep, hdep, hto⟩, hhost⟩
            exact ⟨dep, hdep, client, hto, hhost⟩
          · rintro ⟨dep, hdep, client, hto, hhost⟩
            exact ⟨client, ⟨dep, hdep, hto⟩, hhost⟩

end Controller

/-- `buildPackage`, of the files but for the libraries: the archive and its signature. -/
def buildPackage {Client : Type} (F : Formats) (folder : AppFolder) (d : Download Client) :
    List UInt8 × List UInt8 :=
  let contents := Function.update folder.contents appDescFile (F.dump d.descriptor)
  let tgz := F.tar (d.download.map fun f => (f, contents f))
  (tgz, F.sign tgz)

end Riaps.Control
