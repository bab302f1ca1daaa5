import Riaps.Control.Packages
import Riaps.Foundation.Runs

/-!
# The models of apps on a node

A package of an app is verified and extracted into the folder of the app, and when the app is set up
the manager makes a record of its model and of its descriptor: `appModels`. It reads the descriptor
if it reads the model, and it does not read the model again that it has a record of, by its hash.

So the record may be of the descriptor of an earlier package. It is of the last one exactly as long
as no app is set up from a package with the model of its record and another descriptor
(`current_iff`).
-/

namespace Riaps.Deployment

open Riaps.Foundation
open Riaps.Control (AppDescriptor Formats appDescFile appNameJSON)

/-- The files in the folder of an app. -/
abbrev Files := Dict Text (List UInt8)

/-- `DeploAppRecord`, but for the model. -/
structure DeploAppRecord where
  hash : List UInt8
  file : Text
  descriptor : AppDescriptor

/-- The node: the folders of apps and the records; and, read by nobody, the archive that was last extracted for an app,
and the apps that were set up since. -/
structure AppNode where
  folders : Dict AppName Files
  appModels : Dict AppName DeploAppRecord
  archives : Dict AppName (List UInt8)
  current : List AppName

/-- How an extraction ends. -/
inductive Extraction where
  /-- Everything is extracted, into the folder that was there or, if that was removed, into a new one. -/
  | done (removed : Bool)
  /-- It fails, and so much is left of the folder. -/
  | failed (left : Option Files)

/-- What happens to a node. -/
inductive NodeEvent where
  /-- `installApp`, of an archive and its signature. -/
  | installApp (appName : AppName) (tgz sig : List UInt8) (extraction : Extraction)
  /-- `setupApp`. -/
  | setupApp (appName : AppName)
  /-- `cleanupApp`. -/
  | cleanupApp (appName : AppName)
  /-- `cleanupApps`. -/
  | cleanupApps
  /-- The controller removes files of an app. -/
  | remove (appName : AppName) (left : Option Files)

namespace AppNode

variable (F : Formats)

/-- No app is there. -/
def init : AppNode := ⟨.empty, .empty, .empty, []⟩

/-- The files of an archive are extracted. -/
def extractAll (files : List (Text × List UInt8)) (folder : Files) : Files :=
  files.foldl (fun folder f => folder.set f.1 f.2) folder

/-- The folder of an app has changed. -/
def changed (appName : AppName) (left : Option Files) (s : AppNode) : AppNode :=
  { s with
    folders := left.elim (s.folders.del appName) (s.folders.set appName)
    archives := s.archives.del appName
    current := s.current.filter (· ≠ appName) }

/-- `installPackage`. -/
def installPackage (appName : AppName) (tgz sig : List UInt8) (extraction : Extraction) (s : AppNode) : AppNode :=
  if F.verify tgz sig then
    match F.extract tgz, extraction with
    | some files, .done removed =>
      let folder := if removed then .empty else (s.folders.get? appName).getD .empty
      let s := s.changed appName (some (extractAll files folder))
      { s with archives := s.archives.set appName tgz }
    | _, .failed left => s.changed appName left
    | none, .done _ => s
  else s

/-- The descriptor that is loaded from a folder: one without hosts and networks if that fails. -/
def descriptor (folder : Files) : AppDescriptor := ((folder.get? appDescFile).bind F.load).getD ⟨[], [], .empty⟩

/-- `loadModel`; an exception is `none`. -/
def loadModel (appName : AppName) (modelFileName : Text) (folder : Files) (s : AppNode) : Option AppNode := do
  let fileData ← folder.get? modelFileName
  let fileHash := F.md5 fileData
  if (s.appModels.get? appName).map DeploAppRecord.hash = some fileHash then some s
  else if F.json fileData then
    some { s with appModels := s.appModels.set appName ⟨fileHash, modelFileName, descriptor F folder⟩ }
  else none

/-- `setupApp`, as far as it concerns the record. -/
def setupApp (appName : AppName) (s : AppNode) : AppNode :=
  match (s.folders.get? appName).bind fun folder => s.loadModel F appName (appNameJSON appName) folder with
  | some s => { s with current := s.current.insert appName }
  | none => s

/-- `cleanupApp`. -/
def cleanupApp (appName : AppName) (s : AppNode) : AppNode :=
  { s with appModels := s.appModels.del appName, current := s.current.filter (· ≠ appName) }

/-- `cleanupApps`: the loop over the keys is ended by an exception when it has deleted one. -/
def cleanupApps (s : AppNode) : AppNode :=
  match s.appModels.keys with
  | [] => s
  | appName :: _ => s.cleanupApp appName

/-- What an event does. -/
def step (s : AppNode) : NodeEvent → AppNode
  | .installApp appName tgz sig extraction => s.installPackage F appName tgz sig extraction
  | .setupApp appName => s.setupApp F appName
  | .cleanupApp appName => s.cleanupApp appName
  | .cleanupApps => s.cleanupApps
  | .remove appName left => s.changed appName left

/-! ### Records and packages -/

/-- The records of the apps that were set up since their folders have changed are of the descriptors there. -/
def Current (s : AppNode) : Prop :=
  ∀ appName ∈ s.current, ∃ folder record, s.folders.get? appName = some folder ∧
    s.appModels.get? appName = some record ∧ record.descriptor = descriptor F folder

/-- An app is set up that has a record of the same model, and then the descriptor is the same. -/
def Coherent (s : AppNode) : NodeEvent → Prop
  | .setupApp appName => ∀ folder fileData record, s.folders.get? appName = some folder →
      folder.get? (appNameJSON appName) = some fileData → s.appModels.get? appName = some record →
        record.hash = F.md5 fileData → record.descriptor = descriptor F folder
  | _ => True

variable {F} {s : AppNode} {appName : AppName}

theorem mem_changed_current {left : Option Files} {k : AppName} :
    k ∈ (s.changed appName left).current ↔ k ∈ s.current ∧ k ≠ appName := by
  simp [changed]

theorem get?_changed_folders {left : Option Files} {k : AppName} (h : k ≠ appName) :
    (s.changed appName left).folders.get? k = s.folders.get? k := by
  cases left with
  | none => simp [changed, Dict.get?_del, h]
  | some folder => exact Dict.get?_set_of_ne _ _ h

/-- What changes the folder of an app leaves the others. -/
theorem Current.changed (hs : s.Current F) (left : Option Files) : (s.changed appName left).Current F := by
  intro k hk
  obtain ⟨hk, hne⟩ := mem_changed_current.mp hk
  obtain ⟨folder, record, hfolder, hrecord, hdescriptor⟩ := hs k hk
  exact ⟨folder, record, (get?_changed_folders hne).trans hfolder, hrecord, hdescriptor⟩

theorem Current.installPackage (hs : s.Current F) (tgz sig : List UInt8) (extraction : Extraction) :
    (s.installPackage F appName tgz sig extraction).Current F := by
  rw [AppNode.installPackage.eq_def]
  split_ifs
  · cases F.extract tgz with
    | none =>
      cases extraction with
      | done removed => exact hs
      | failed left => exact hs.changed left
    | some files =>
      cases extraction with
      | done removed => exact hs.changed _
      | failed left => exact hs.changed left
  · exact hs

theorem Current.cleanupApp (hs : s.Current F) (appName : AppName) : (s.cleanupApp appName).Current F := by
  intro k hk
  have hk' : k ∈ s.current ∧ k ≠ appName := by simpa [AppNode.cleanupApp] using hk
  obtain ⟨folder, record, hfolder, hrecord, hdescriptor⟩ := hs k hk'.1
  refine ⟨folder, record, hfolder, ?_, hdescriptor⟩
  rw [AppNode.cleanupApp, Dict.get?_del, if_neg hk'.2]
  exact hrecord

theorem Current.cleanupApps (hs : s.Current F) : s.cleanupApps.Current F := by
  rw [AppNode.cleanupApps]
  split
  · exact hs
  · exact hs.cleanupApp _

/-- What loading the model does: the record stays if it has the hash of the model, and else it is made anew. -/
theorem loadModel_cases {modelFileName : Text} {folder : Files} {t : AppNode}
    (h : s.loadModel F appName modelFileName folder = some t) :
    ∃ fileData, folder.get? modelFileName = some fileData ∧
      (t = s ∧ (∃ record, s.appModels.get? appName = some record ∧ record.hash = F.md5 fileData) ∨
        (∀ record, s.appModels.get? appName = some record → record.hash ≠ F.md5 fileData) ∧ F.json fileData = true ∧
          t = { s with
            appModels := s.appModels.set appName ⟨F.md5 fileData, modelFileName, descriptor F folder⟩ }) := by
  obtain ⟨fileData, hfile, h⟩ := Option.bind_eq_some_iff.mp h
  refine ⟨fileData, hfile, ?_⟩
  dsimp only at h
  split_ifs at h with hhash hjson
  · obtain rfl := Option.some.inj h
    exact .inl ⟨rfl, Option.map_eq_some_iff.mp hhash⟩
  · obtain rfl := Option.some.inj h
    refine .inr ⟨fun record hrecord he => hhash ?_, hjson, rfl⟩
    rw [hrecord, Option.map_some, he]

/-- Setting up an app keeps the records current exactly if it is coherent. -/
theorem current_setupApp_iff (hs : s.Current F) (appName : AppName) :
    (s.setupApp F appName).Current F ↔ s.Coherent F (.setupApp appName) := by
  rw [setupApp]
  cases hload : (s.folders.get? appName).bind fun folder => s.loadModel F appName (appNameJSON appName) folder with
  | none =>
    refine iff_of_true hs fun folder fileData record hfolder hfile hrecord hhash => ?_
    rw [hfolder, Option.bind_some, loadModel, hfile, Option.bind_eq_bind, Option.bind_some] at hload
    dsimp only at hload
    rw [if_pos (by rw [hrecord, Option.map_some, hhash])] at hload
    cases hload
  | some t =>
    obtain ⟨folder, hfolder, hload⟩ := Option.bind_eq_some_iff.mp hload
    obtain ⟨fileData, hfile, h⟩ := loadModel_cases hload
    constructor
    · intro hcurrent folder' fileData' record hfolder' hfile' hrecord hhash
      obtain rfl := Option.some.inj (hfolder.symm.trans hfolder')
      obtain rfl := Option.some.inj (hfile.symm.trans hfile')
      rcases h with ⟨rfl, -⟩ | ⟨hne, -⟩
      · obtain ⟨folder', record', hfolder', hrecord', hdescriptor⟩ := hcurrent appName (List.mem_insert_self ..)
        obtain rfl := Option.some.inj (hfolder.symm.trans hfolder')
        obtain rfl := Option.some.inj (hrecord.symm.trans hrecord')
        exact hdescriptor
      · exact absurd hhash (hne record hrecord)
    · intro hcoherent k hk
      by_cases hkey : k = appName
      · subst hkey
        rcases h with ⟨rfl, record, hrecord, hhash⟩ | ⟨-, -, rfl⟩
        · exact ⟨folder, record, hfolder, hrecord, hcoherent folder fileData record hfolder hfile hrecord hhash⟩
        · exact ⟨folder, _, hfolder, Dict.get?_set_self .., rfl⟩
      · rcases h with ⟨rfl, -⟩ | ⟨-, -, rfl⟩
        · exact hs k ((List.mem_insert_iff.mp hk).resolve_left hkey)
        · obtain ⟨folder', record, hfolder', hrecord, hdescriptor⟩ :=
            hs k ((List.mem_insert_iff.mp hk).resolve_left hkey)
          exact ⟨folder', record, hfolder', (Dict.get?_set_of_ne _ _ hkey).trans hrecord, hdescriptor⟩

theorem current_step_iff (hs : s.Current F) (e : NodeEvent) : (s.step F e).Current F ↔ s.Coherent F e := by
  cases e with
  | installApp appName tgz sig extraction => exact iff_of_true (hs.installPackage tgz sig extraction) trivial
  | setupApp appName => exact current_setupApp_iff hs appName
  | cleanupApp appName => exact iff_of_true (hs.cleanupApp appName) trivial
  | cleanupApps => exact iff_of_true hs.cleanupApps trivial
  | remove appName left => exact iff_of_true (hs.changed left) trivial

theorem current_init (F : Formats) : Current F init := nofun

/-- **The records of apps.** The record of an app that was set up since its folder has changed has the descriptor that
is there, exactly as long as no app is set up with the model of its record and another descriptor. -/
theorem current_iff (F : Formats) (events : List NodeEvent) :
    Always (step F) (Current F) init events ↔ AllSteps (step F) (Coherent F) init events :=
  always_iff_allSteps (I := fun _ => True) (P := Current F) (fun _ _ _ _ => trivial)
    (fun _ e _ hs => current_step_iff hs e) trivial (current_init F) events

/-! ### Archives -/

/-- What is extracted of files whose contents are told by their names. -/
theorem get?_extractAll {contents : Text → List UInt8} {name : Text} {names : List Text} (h : name ∈ names)
    (folder : Files) : (extractAll (names.map fun f => (f, contents f)) folder).get? name = some (contents name) := by
  induction names using List.reverseRecOn with
  | nil => cases h
  | append_singleton names f ih =>
    rw [extractAll, List.map_append, List.foldl_append]
    show (Dict.set _ f (contents f)).get? name = _
    by_cases hf : name = f
    · rw [hf, Dict.get?_set_self]
    · rw [Dict.get?_set_of_ne _ _ hf]
      exact ih ((List.mem_append.mp h).resolve_right fun hmem => hf (List.mem_singleton.mp hmem))

/-- The archive of an app has been verified, and is in its folder. -/
def Archived (F : Formats) (s : AppNode) : Prop :=
  ∀ appName tgz, s.archives.get? appName = some tgz → (∃ sig, F.verify tgz sig = true) ∧
    ∃ files before, F.extract tgz = some files ∧ s.folders.get? appName = some (extractAll files before)

theorem Archived.changed (hs : s.Archived F) (left : Option Files) : (s.changed appName left).Archived F := by
  intro k tgz hk
  rw [AppNode.changed, Dict.get?_del] at hk
  split_ifs at hk with hne
  obtain ⟨hsig, files, before, hextract, hfolder⟩ := hs k tgz hk
  exact ⟨hsig, files, before, hextract, (get?_changed_folders hne).trans hfolder⟩

theorem Archived.installPackage (hs : s.Archived F) (tgz sig : List UInt8) (extraction : Extraction) :
    (s.installPackage F appName tgz sig extraction).Archived F := by
  rw [AppNode.installPackage.eq_def]
  split_ifs with hverify
  · cases hextract : F.extract tgz with
    | none =>
      cases extraction with
      | done removed => exact hs
      | failed left => exact hs.changed left
    | some files =>
      cases extraction with
      | done removed =>
        intro k tgz' hk
        rcases Dict.get?_set_eq_some.mp hk with ⟨rfl, rfl⟩ | ⟨hne, hk⟩
        · exact ⟨⟨sig, hverify⟩, files, _, hextract, Dict.get?_set_self ..⟩
        · exact hs.changed _ k tgz' hk
      | failed left => exact hs.changed left
  · exact hs

theorem Archived.setupApp (hs : s.Archived F) (appName : AppName) : (s.setupApp F appName).Archived F := by
  rw [AppNode.setupApp]
  split
  · next t hload =>
    obtain ⟨folder, -, hload⟩ := Option.bind_eq_some_iff.mp hload
    obtain ⟨fileData, -, ⟨rfl, -⟩ | ⟨-, -, rfl⟩⟩ := loadModel_cases hload <;> exact hs
  · exact hs

theorem Archived.step (hs : s.Archived F) (e : NodeEvent) : (s.step F e).Archived F := by
  cases e with
  | installApp appName tgz sig extraction => exact hs.installPackage tgz sig extraction
  | setupApp appName => exact hs.setupApp appName
  | cleanupApp appName => exact hs
  | cleanupApps =>
    rw [AppNode.step, cleanupApps]
    split <;> exact hs
  | remove appName left => exact hs.changed left

theorem archived_run (F : Formats) (events : List NodeEvent) : (run (AppNode.step F) init events).Archived F :=
  inv_run (I := Archived F) (fun _ e hs => hs.step e) (fun _ _ h => by cases h) events

end AppNode

end Riaps.Deployment
