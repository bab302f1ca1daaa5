import Riaps.Foundation.Runs
import Riaps.Deployment.AppStore
import Riaps.Deployment.ClientRequests

/-!
# Cleaning up apps

What the manager has of an app is in six tables, its model, its user, the record of that user, the
entries of the resource and the fault manager and what is in the database. `cleanupApp` takes an app
out of all of them; when the managers know the apps, it may be called for all of them in any order,
and nothing is left (`cleanupEach_eq`).

`cleanupApps` is for all apps at once. It deletes from the table of the models while it goes through
it, and the second round of that loop is not reached: `cleanupApps_raises`. The users are not
mentioned in it.
-/

namespace Riaps.Deployment

open Riaps.Foundation

/-- The exceptions that are met. -/
inductive CleanupExn where
  | runtimeError
  | buildError
  deriving DecidableEq

/-- The tables of the manager. -/
structure AppTables (L : AppStore.Stores) where
  appModels : Dict AppName AppModel
  /-- The user of each app. -/
  appUser : Dict AppName Text
  /-- Of each user with a record, the id. -/
  users : Dict Text ℕ
  resm : ResourceManager
  fm : FaultManager
  appDbase : AppStore.Store L

/-- `cleanupApp`. -/
def FaultManager.cleanupApp (appName : AppName) (s : FaultManager) : FaultManager × Bool :=
  if appName ∈ s.appMap then (⟨s.appMap.del appName⟩, true) else (s, false)

namespace AppTables

variable {L : AppStore.Stores}

/-- The tables at the start, with a record of the user `TARGET_USER`. -/
def init (targetUser : Text) (uid : ℕ) (resm : ResourceManager) (appDbase : AppStore.Store L) : AppTables L where
  appModels := .empty
  appUser := .empty
  users := Dict.empty.set targetUser uid
  resm := resm
  fm := ⟨.empty⟩
  appDbase := appDbase

/-- `setupApp`, when there is a model; the user is the one that the resource manager has for the app. -/
def setupApp (appName : AppName) (model : AppModel) (userName : Text) (uid : ℕ) (s : AppTables L) : AppTables L where
  appModels := s.appModels.set appName model
  appUser := s.appUser.set appName userName
  users := if userName ∈ s.users then s.users else s.users.set userName uid
  resm := s.resm.setupApp appName
  fm := if appName ∈ s.fm.appMap then s.fm else ⟨s.fm.appMap.set appName []⟩
  appDbase := AppStore.addApp appName.name s.appDbase

/-- What cleans up. -/
abbrev Cleanup (L : AppStore.Stores) := EStateM CleanupExn (AppTables L)

/-- `self.resm.cleanupApp`. -/
def cleanupResm (appName : AppName) : Cleanup L PUnit :=
  update (fun _ => .buildError) fun s =>
    ({ s with resm := (s.resm.cleanupApp appName).1 }, (s.resm.cleanupApp appName).2)

/-- `self.fm.cleanupApp`. -/
def cleanupFm (appName : AppName) : Cleanup L PUnit :=
  update (fun _ => .buildError) fun s => ({ s with fm := (s.fm.cleanupApp appName).1 }, (s.fm.cleanupApp appName).2)

/-- `self.appDbase.delApp`. -/
def delApp (appName : AppName) (s : AppTables L) : AppTables L :=
  { s with appDbase := AppStore.delApp appName.name s.appDbase }

/-- `delUser`; the user `TARGET_USER` stays. -/
def delUser (targetUser userName : Text) (s : AppTables L) : AppTables L :=
  if userName = targetUser then s
  else if userName ∉ s.users then s
  else { s with users := s.users.del userName }

/-- `cleanupApp`. -/
def cleanupApp (targetUser : Text) (appName : AppName) : Cleanup L PUnit := do
  let s ← get
  if appName ∈ s.appModels then
    modify fun s => { s with appModels := s.appModels.del appName }
    cleanupResm appName
    cleanupFm appName
    modify (delApp appName)
    let s ← get
    match s.appUser.get? appName with
    | none => pure ⟨⟩
    | some userName =>
      modify fun s => { s with appUser := s.appUser.del appName }
      modify (delUser targetUser userName)

/-- `self.resm.cleanupApps`, which goes through a copy of the items. -/
def cleanupAllResm : Cleanup L PUnit := do
  let s ← get
  s.resm.appMap.keys.forM cleanupResm

/-- `self.fm.cleanupApps`, likewise. -/
def cleanupAllFm : Cleanup L PUnit := do
  let s ← get
  s.fm.appMap.keys.forM cleanupFm

/-- `cleanupApps`. -/
def cleanupApps : Cleanup L PUnit := do
  let s ← get
  forKeys .runtimeError (fun s => s.appModels.len) s.appModels.len
    (fun k => modify fun s => delApp k { s with appModels := s.appModels.del k }) s.appModels.keys
  cleanupAllResm
  cleanupAllFm

/-- `cleanupApp` for one app after another, each in a command of its own. -/
def cleanupEach (targetUser : Text) (s : AppTables L) (apps : List AppName) : AppTables L :=
  run (fun s appName => stateAfter (cleanupApp targetUser appName) s) s apps

/-- `cleanupApps` raises nothing and does what `cleanupApp` does for the apps that have a model, in any order. -/
def CleansAll (targetUser : Text) (s : AppTables L) : Prop :=
  ∀ apps : List AppName, apps.Perm s.appModels.keys →
    Ends cleanupApps s (fun _ t => t = s.cleanupEach targetUser apps) fun _ _ => False

/-! ### All apps at once -/

variable {s : AppTables L} {targetUser : Text}

/-- After the first app is deleted, the loop ends in an exception. -/
theorem cleanupApps_raises {k : AppName} {ks : List AppName} (h : s.appModels.keys = k :: ks) :
    Ends cleanupApps s (fun _ _ => False) fun e t =>
      e = .runtimeError ∧ t = delApp k { s with appModels := s.appModels.del k } := by
  have hlen : (s.appModels.del k).len ≠ s.appModels.len := by
    obtain ⟨m, hm⟩ := Dict.mem_iff_exists_get?.mp (Dict.mem_iff_mem_keys.mpr (by rw [h]; exact List.mem_cons_self))
    have hperm := (Dict.items_perm_del hm).length_eq
    simp only [List.length_cons] at hperm
    simp only [Dict.len]
    omega
  rw [cleanupApps, ends_bind, ends_get, ends_bind, ends_forKeys_of_eq rfl, h]
  dsimp only
  rw [ends_modify, ends_forKeys_of_ne]
  · exact ⟨rfl, rfl⟩
  · exact hlen

/-- A loop over a copy of the keys of a table, which takes each of them out of it, leaves an empty table. -/
theorem ends_forM_keys {V : Type} (table : AppTables L → Dict AppName V)
    (setTable : Dict AppName V → AppTables L → AppTables L) {f : AppName → Cleanup L PUnit}
    (hget : ∀ d t, table (setTable d t) = d) (hset : ∀ d d' t, setTable d (setTable d' t) = setTable d t)
    (hself : ∀ t, setTable (table t) t = t)
    (hf : ∀ k t, k ∈ table t → Ends (f k) t (fun _ u => u = setTable ((table t).del k) t) fun _ _ => False)
    (s : AppTables L) :
    Ends ((table s).keys.forM f) s (fun _ t => t = setTable .empty s) fun _ _ => False := by
  -- the keys that are left are in the table, and without them it is the table without all of them
  have hrest : Ends ((table s).keys.forM f) s
      (fun _ t => ([] : List AppName).Nodup ∧ (∀ k ∈ ([] : List AppName), k ∈ table t) ∧
        setTable ((table t).delAll []) t = setTable .empty s) fun _ _ => False := by
    refine ends_forM_rest (P := fun l t => l.Nodup ∧ (∀ k ∈ l, k ∈ table t) ∧
      setTable ((table t).delAll l) t = setTable .empty s) (fun k l t ht => ?_) ?_
    · obtain ⟨hnodup, hmem, heq⟩ := ht
      obtain ⟨hk, hnodup⟩ := List.nodup_cons.mp hnodup
      obtain ⟨hkmem, hmem⟩ := List.forall_mem_cons.mp hmem
      refine (hf k t hkmem).mono (fun _ u hu => ?_) fun _ _ => id
      subst hu
      refine ⟨hnodup, fun k' hk' => ?_, ?_⟩
      · rw [hget]
        exact Dict.mem_del.mpr ⟨hmem k' hk', fun he => hk (he ▸ hk')⟩
      · rw [hget, hset, Dict.del_delAll, heq]
    · exact ⟨(table s).nodup, fun _ => id, by rw [Dict.delAll_keys]⟩
  refine hrest.mono (fun _ t ht => ?_) fun _ _ => id
  rw [← ht.2.2, Dict.delAll_nil, hself]

theorem ends_cleanupAllResm (s : AppTables L) :
    Ends cleanupAllResm s (fun _ t => t = { s with resm := { s.resm with appMap := .empty } }) fun _ _ => False := by
  rw [cleanupAllResm, ends_bind, ends_get]
  refine ends_forM_keys (fun t => t.resm.appMap) (fun d t => { t with resm := { t.resm with appMap := d } })
    (fun _ _ => rfl) (fun _ _ _ => rfl) (fun _ => rfl) (fun k t hk => ?_) s
  rw [cleanupResm, ends_update, ResourceManager.cleanupApp, if_pos hk]
  exact ⟨fun _ => rfl, fun h => absurd h Bool.noConfusion⟩

theorem ends_cleanupAllFm (s : AppTables L) :
    Ends cleanupAllFm s (fun _ t => t = { s with fm := ⟨.empty⟩ }) fun _ _ => False := by
  rw [cleanupAllFm, ends_bind, ends_get]
  refine ends_forM_keys (fun t => t.fm.appMap) (fun d t => { t with fm := ⟨d⟩ })
    (fun _ _ => rfl) (fun _ _ _ => rfl) (fun _ => rfl) (fun k t hk => ?_) s
  rw [cleanupFm, ends_update, FaultManager.cleanupApp, if_pos hk]
  exact ⟨fun _ => rfl, fun h => absurd h Bool.noConfusion⟩

/-- With no model loaded, the managers are cleaned. -/
theorem cleanupApps_of_empty (h : s.appModels = .empty) :
    Ends cleanupApps s
      (fun _ t => t = { s with resm := { s.resm with appMap := .empty }, fm := ⟨.empty⟩ }) fun _ _ => False := by
  have hkeys : s.appModels.keys = [] := Dict.eq_empty_iff.mp h
  rw [cleanupApps, ends_bind, ends_get, ends_bind, ends_forKeys_of_eq rfl, hkeys]
  dsimp only
  rw [ends_bind]
  refine (ends_cleanupAllResm s).mono (fun _ t ht => ?_) fun _ _ => id
  subst ht
  exact ends_cleanupAllFm _

/-! ### One app after another -/

/-- The managers know the apps that have a model. -/
structure Known (s : AppTables L) : Prop where
  resm : ∀ appName ∈ s.appModels, appName ∈ s.resm.appMap
  fm : ∀ appName ∈ s.appModels, appName ∈ s.fm.appMap

/-- The users of apps whose records are deleted with them. -/
def owners (targetUser : Text) (s : AppTables L) (apps : List AppName) : List Text :=
  (apps.filterMap s.appUser.get?).filter fun userName => userName ≠ targetUser

/-- The tables without some apps. -/
def without (targetUser : Text) (s : AppTables L) (apps : List AppName) : AppTables L where
  appModels := s.appModels.delAll apps
  appUser := s.appUser.delAll apps
  users := s.users.delAll (s.owners targetUser apps)
  resm := { s.resm with appMap := s.resm.appMap.delAll apps }
  fm := ⟨s.fm.appMap.delAll apps⟩
  appDbase := apps.foldl (fun d appName => AppStore.delApp appName.name d) s.appDbase

theorem delUser_eq (targetUser userName : Text) (s : AppTables L) :
    delUser targetUser userName s =
      { s with users := s.users.delAll ([userName].filter fun userName => userName ≠ targetUser) } := by
  rw [delUser]
  by_cases htarget : userName = targetUser
  · simp [htarget]
  · by_cases hmem : userName ∈ s.users
    · simp [htarget, hmem, Dict.del]
    · have hdel : s.users.delAll [userName] = s.users := Dict.del_of_notMem hmem
      simp [htarget, hmem, hdel]

/-- An app is taken out of all tables, -/
theorem cleanupApp_eq (h : s.Known) {appName : AppName} (hmem : appName ∈ s.appModels) :
    stateAfter (cleanupApp targetUser appName) s = s.without targetUser [appName] := by
  refine (ends_stateAfter _ (· = s.without targetUser [appName])).mpr ?_
  have hresm := h.resm appName hmem
  have hfm := h.fm appName hmem
  cases huser : s.appUser.get? appName with
  | none =>
    have hno : s.appUser.delAll [appName] = s.appUser := Dict.del_of_notMem (Dict.get?_eq_none_iff.mp huser)
    simp [cleanupApp, cleanupResm, cleanupFm, ResourceManager.cleanupApp, FaultManager.cleanupApp, hmem, hresm, hfm,
      huser, delApp, without, owners, Dict.del, hno]
  | some userName =>
    simp [cleanupApp, cleanupResm, cleanupFm, ResourceManager.cleanupApp, FaultManager.cleanupApp, hmem, hresm, hfm,
      huser, delApp, without, owners, Dict.del, delUser_eq]

/-- the others are still known, -/
theorem Known.without (h : s.Known) (targetUser : Text) (apps : List AppName) : (s.without targetUser apps).Known where
  resm appName hmem := by
    obtain ⟨hmem, hnot⟩ := Dict.mem_delAll.mp hmem
    exact Dict.mem_delAll.mpr ⟨h.resm appName hmem, hnot⟩
  fm appName hmem := by
    obtain ⟨hmem, hnot⟩ := Dict.mem_delAll.mp hmem
    exact Dict.mem_delAll.mpr ⟨h.fm appName hmem, hnot⟩

/-- An app is not touched that has no model, -/
theorem cleanupApp_of_notMem {appName : AppName} (h : appName ∉ s.appModels) :
    stateAfter (cleanupApp targetUser appName) s = s :=
  (ends_stateAfter _ (· = s)).mpr (by simp [cleanupApp, h])

/-- so the managers know the apps after it, -/
theorem Known.cleanupApp (h : s.Known) (targetUser : Text) (appName : AppName) :
    (stateAfter (AppTables.cleanupApp targetUser appName) s).Known := by
  by_cases hmem : appName ∈ s.appModels
  · rw [cleanupApp_eq h hmem]
    exact h.without targetUser [appName]
  · rw [cleanupApp_of_notMem hmem]
    exact h

/-- and after an app is set up. -/
theorem Known.setupApp (h : s.Known) (appName : AppName) (model : AppModel) (userName : Text) (uid : ℕ) :
    (s.setupApp appName model userName uid).Known where
  resm k hk := by
    simp only [AppTables.setupApp, ResourceManager.setupApp, Dict.mem_set] at hk ⊢
    split_ifs with hresm
    · exact hk.elim (fun he => he ▸ hresm) (h.resm k)
    · exact Dict.mem_set.mpr (hk.imp_right (h.resm k))
  fm k hk := by
    simp only [AppTables.setupApp, Dict.mem_set] at hk ⊢
    split_ifs with hfm
    · exact hk.elim (fun he => he ▸ hfm) (h.fm k)
    · exact Dict.mem_set.mpr (hk.imp_right (h.fm k))

/-- A command about an app. -/
inductive Command where
  | setupApp (appName : AppName) (model : AppModel) (userName : Text) (uid : ℕ)
  | cleanupApp (appName : AppName)

/-- The command. -/
def handle (targetUser : Text) (s : AppTables L) : Command → AppTables L
  | .setupApp appName model userName uid => s.setupApp appName model userName uid
  | .cleanupApp appName => stateAfter (cleanupApp targetUser appName) s

/-- The managers know the apps after all such commands. -/
theorem known_run (targetUser : Text) (uid : ℕ) (resm : ResourceManager) (appDbase : AppStore.Store L)
    (commands : List Command) : (run (handle targetUser) (init targetUser uid resm appDbase) commands).Known := by
  refine AllSteps.inv (C := fun _ _ => True) (I := Known) (fun s c h _ => ?_) ?_ (.of_forall (fun _ _ => trivial) _ _)
  · cases c with
    | setupApp appName model userName uid => exact h.setupApp ..
    | cleanupApp appName => exact h.cleanupApp ..
  · exact ⟨fun k hk => absurd hk (Dict.not_mem_empty k), fun k hk => absurd hk (Dict.not_mem_empty k)⟩

/-- What is taken out may be taken out after it. -/
theorem without_without {appName : AppName} {apps : List AppName} (hnot : appName ∉ apps) :
    (s.without targetUser [appName]).without targetUser apps = s.without targetUser (appName :: apps) := by
  have howners : (s.without targetUser [appName]).owners targetUser apps = s.owners targetUser apps := by
    rw [owners, owners]
    congr 1
    refine List.filterMap_congr fun k hk => ?_
    have hne : k ≠ appName := fun he => hnot (he ▸ hk)
    exact (Dict.get?_delAll ..).trans (if_neg (by simpa using hne))
  have hsplit : s.owners targetUser (appName :: apps) = s.owners targetUser [appName] ++ s.owners targetUser apps := by
    simp only [owners]
    rw [← List.filter_append, ← List.filterMap_append]
    rfl
  rw [without, howners]
  simp only [without, Dict.delAll_delAll, hsplit]
  rfl

/-- **One app after another is taken out of all tables**, in any order. -/
theorem cleanupEach_eq (h : s.Known) {apps : List AppName} (hnodup : apps.Nodup) (hmem : ∀ k ∈ apps, k ∈ s.appModels) :
    s.cleanupEach targetUser apps = s.without targetUser apps := by
  induction apps generalizing s with
  | nil => simp [cleanupEach, without, owners]
  | cons k apps ih =>
    obtain ⟨hk, hnodup⟩ := List.nodup_cons.mp hnodup
    obtain ⟨hkmem, hmem⟩ := List.forall_mem_cons.mp hmem
    have hrest : ∀ k' ∈ apps, k' ∈ (s.without targetUser [k]).appModels :=
      fun k' hk' => Dict.mem_delAll.mpr ⟨hmem k' hk', fun he => hk (List.mem_singleton.mp he ▸ hk')⟩
    have hone : s.cleanupEach targetUser (k :: apps) = (s.without targetUser [k]).cleanupEach targetUser apps := by
      rw [cleanupEach, run_cons, cleanupApp_eq h hkmem]
      rfl
    rw [hone, ih (h.without targetUser [k]) hnodup hrest, without_without hk]

/-- So nothing is left of the apps that had a model, whatever the order. -/
theorem cleanupEach_perm (h : s.Known) {apps : List AppName} (hperm : apps.Perm s.appModels.keys) :
    (s.cleanupEach targetUser apps).appModels = .empty ∧
      (s.cleanupEach targetUser apps).appUser = s.appUser.delAll s.appModels.keys ∧
      (s.cleanupEach targetUser apps).users = s.users.delAll (s.owners targetUser s.appModels.keys) ∧
      (s.cleanupEach targetUser apps).resm.appMap = s.resm.appMap.delAll s.appModels.keys ∧
      (s.cleanupEach targetUser apps).fm.appMap = s.fm.appMap.delAll s.appModels.keys := by
  have hmem : ∀ k, k ∈ apps ↔ k ∈ s.appModels.keys := fun k => hperm.mem_iff
  rw [cleanupEach_eq h (hperm.nodup_iff.mpr s.appModels.nodup) fun k => (hmem k).mp]
  refine ⟨?_, Dict.delAll_congr _ hmem, Dict.delAll_congr _ fun userName => ?_, Dict.delAll_congr _ hmem,
    Dict.delAll_congr _ hmem⟩
  · exact (Dict.delAll_congr _ hmem).trans s.appModels.delAll_keys
  · exact ((hperm.filterMap _).filter _).mem_iff

/-! ### The two ways -/

/-- **All apps are cleaned as each of them would be** exactly if there is nothing to clean. -/
theorem cleansAll_iff (targetUser : Text) (s : AppTables L) :
    s.CleansAll targetUser ↔ s.appModels = .empty ∧ s.resm.appMap = .empty ∧ s.fm.appMap = .empty := by
  cases hkeys : s.appModels.keys with
  | cons k ks =>
    refine iff_of_false (fun h => ?_) fun h => ?_
    · have hall := h s.appModels.keys (.refl _)
      have hraise := cleanupApps_raises hkeys
      rw [Ends] at hall hraise
      cases hends : cleanupApps s with
      | ok a t => simp [hends] at hraise
      | error e t => simp [hends] at hall
    · rw [Dict.eq_empty_iff.mp h.1] at hkeys
      exact List.cons_ne_nil k ks hkeys.symm
  | nil =>
    have hempty := Dict.eq_empty_iff.mpr hkeys
    have hclean := cleanupApps_of_empty hempty
    have hsame : s.CleansAll targetUser ↔ { s with resm := { s.resm with appMap := .empty }, fm := ⟨.empty⟩ } = s := by
      rw [Ends] at hclean
      rw [CleansAll]
      cases hends : cleanupApps s with
      | ok a t =>
        simp only [hends] at hclean
        rw [hkeys]
        simp only [List.perm_nil, forall_eq, Ends, hends, hclean, cleanupEach, run_nil]
      | error e t => simp [hends] at hclean
    rw [hsame]
    constructor
    · intro h
      exact ⟨hempty, (congrArg (fun t => t.resm.appMap) h).symm, (congrArg (fun t => t.fm.appMap) h).symm⟩
    · rintro ⟨-, hresm, hfm⟩
      rw [← hresm]
      exact congrArg (fun d => { s with fm := FaultManager.mk d }) hfm.symm

/-- The tables with an app that was set up. -/
def oneApp : AppTables (Lmdb.ofDict Text AppStore.Object) :=
  setupApp ⟨['p'], by decide⟩ ⟨.empty, .empty⟩ ['u'] 7
    (init ['t'] 1 (.init ⟨true, true, true⟩ false) (AppStore.reopen AppStore.newStore))

/-- One app is enough. -/
theorem not_cleansAll : ¬oneApp.CleansAll ['t'] := by
  intro h
  have hall := h oneApp.appModels.keys (.refl _)
  have hraise : ∃ t, cleanupApps oneApp = .error .runtimeError t := ⟨_, rfl⟩
  obtain ⟨t, ht⟩ := hraise
  simp [Ends, ht] at hall

end AppTables

end Riaps.Deployment
