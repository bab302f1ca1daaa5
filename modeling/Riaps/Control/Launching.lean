import Riaps.Foundation.Runs
import Riaps.Control.Controller

/-!
# Launching apps

To launch an app the controller looks up the clients of each target of its
deployment and gives each target, with all the actors that are meant for it, to a
thread of its own. The thread launches an actor once, however often it is listed;
but it knows of nothing else than its own target. Two targets can be one client,
by its address and by a DNS name, and an app that runs can be launched again: its
status does not change.

When the targets of an app that name one client have no actor in common, and none
of their actors is on the launch list (`Fresh`), every actor is on the list at
most once for each client and app (`once_run`).
-/

namespace Riaps.Control

open Riaps.Foundation

universe u

/-- What one thread of `launchApp` does: `launchAppClient` for one target. -/
structure Job (Client Actor : Type u) where
  client : Client
  /-- The actors that it has not come to yet. -/
  todo : List Actor
  clientActors : List Actor
  /-- The app has been set up on the client. -/
  ready : Bool
  success : Bool
  deriving DecidableEq

/-- What the operator's thread is at. -/
inductive Operation (Client App Actor : Type u) where
  /-- Nothing. -/
  | idle
  /-- `launchApp`, with its jobs under way. -/
  | launching (app : App) (jobs : List (Job Client Actor))
  /-- `haltApp`, of its own or for `removeAppByName`. -/
  | halting (run : HaltRun Client App Actor) (remove : Bool)

/-- The controller, and what its operator is at. -/
structure Operated (Name Client App Actor : Type u) where
  ctrl : Controller Name Client App Actor
  op : Operation Client App Actor

/-- What the operator does, how the calls of the clients end, and what the clients do. -/
inductive OperatorEvent (Name Client App Actor : Type u) where
  /-- `compileApplication`, which makes the app known. -/
  | compileApplication (app : App)
  /-- `compileDeployment`. -/
  | compileDeployment (app : App) (depl : List (Deployment Name Actor))
  /-- `loadByName`, and whether the package is built and downloaded. -/
  | loadByName (app : App) (ok : Bool)
  /-- `launchByName`. -/
  | launchByName (app : App)
  /-- The call `client.setupApp` of job `n` ends. -/
  | setupApp (n : ℕ) (ok : Bool)
  /-- Job `n` comes to its next actor; if it calls `client.launch`, the call ends so. -/
  | launch (n : ℕ) (ok : Bool)
  /-- `launchApp` returns, when all its jobs have ended. -/
  | launched
  /-- `haltByName`. -/
  | haltByName (app : App)
  /-- `removeAppByName`. -/
  | removeAppByName (app : App)
  /-- The halt calls the clients. -/
  | call
  /-- The halt ends. -/
  | assign
  /-- `addClient`, with the apps that the client runs. -/
  | addClient (name : Name) (client : Client) (apps : List App)
  /-- `delClient`. -/
  | delClient (name : Name)

variable {Name Client App Actor : Type u} [DecidableEq Name] [DecidableEq Client] [DecidableEq App] [DecidableEq Actor]

/-- What an entry says is running. -/
def Entry.key (elt : Entry Client App Actor) : Client × App × Actor := (elt.client, elt.app, elt.actor)

/-! ### Jobs -/

namespace Controller

variable (gethostbyname : Name → Option Name)

/-- The targets of a deployment: all clients if there are none. -/
def targets (depl : Deployment Name Actor) (c : Controller Name Client App Actor) : List Name :=
  if depl.target = [] then c.clientMap.keys else depl.target

/-- One target of a deployment, in the loop of `launchApp`: `t2CMap` and `t2AMap`, which have the same keys, as one
dictionary. -/
def collectTarget (actors : List Actor) (c : Controller Name Client App Actor) (t2 : Dict Name (Client × List Actor))
    (target : Name) : Dict Name (Client × List Actor) :=
  match c.findClient gethostbyname target with
  | some client =>
    match t2.get? target with
    | none => t2.set target (client, actors)
    | some (client, actors') => t2.set target (client, actors' ++ actors)
  | none => t2

/-- The deployments collected by target. -/
def collect (depls : List (Deployment Name Actor)) (c : Controller Name Client App Actor) :
    Dict Name (Client × List Actor) :=
  depls.foldl (fun t2 depl => (c.targets depl).foldl (c.collectTarget gethostbyname depl.actors) t2) Dict.empty

/-- The jobs of `launchApp`, one for each target. -/
def jobs (depls : List (Deployment Name Actor)) (c : Controller Name Client App Actor) : List (Job Client Actor) :=
  (c.collect gethostbyname depls).items.map fun i => ⟨i.2.1, i.2.2, [], false, true⟩

/-- The jobs that `launchByName` starts: none if the app is not loaded. -/
def launchJobs (app : App) (c : Controller Name Client App Actor) : Option (List (Job Client Actor)) :=
  match c.appInfo.get? app with
  | some info => if info.status = .loaded then info.depl.map fun depls => c.jobs gethostbyname depls else none
  | none => none

/-- `self.appInfo[appName].status = status`. -/
def setStatus (app : App) (status : AppStatus) (c : Controller Name Client App Actor) :
    Controller Name Client App Actor :=
  match c.appInfo.get? app with
  | some info => { c with appInfo := c.appInfo.set app { info with status := status } }
  | none => c

/-- `self.appInfo[appName].clients.add(client)`. -/
def addAppClient (app : App) (client : Client) (c : Controller Name Client App Actor) :
    Controller Name Client App Actor :=
  match c.appInfo.get? app with
  | some info => { c with appInfo := c.appInfo.set app { info with clients := info.clients.insert client } }
  | none => c

/-- `compileApplication`, of an app that is not loaded. -/
def compileApplication (app : App) (c : Controller Name Client App Actor) : Controller Name Client App Actor :=
  if app ∈ c.appInfo then c else { c with appInfo := c.appInfo.set app ⟨none, .notLoaded, []⟩ }

/-- `compileDeployment`, of an app that is known. -/
def compileDeployment (app : App) (depl : List (Deployment Name Actor)) (c : Controller Name Client App Actor) :
    Controller Name Client App Actor :=
  match c.appInfo.get? app with
  | some info => { c with appInfo := c.appInfo.set app { info with depl := some depl } }
  | none => c

/-- `loadByName`: the app is downloaded to its clients, if there are any. -/
def loadByName (app : App) (ok : Bool) (c : Controller Name Client App Actor) : Controller Name Client App Actor :=
  match c.appInfo.get? app with
  | some info =>
    match info.depl with
    | some depls =>
      let clients := depls.flatMap fun depl => (c.targets depl).filterMap (c.findClient gethostbyname)
      if info.status = .notLoaded ∧ clients ≠ [] ∧ ok then c.setStatus app .loaded else c
    | none => c
  | none => c

end Controller

/-! ### Steps -/

namespace Operated

variable (gethostbyname : Name → Option Name)

/-- With these nodes logged in, no app is known. -/
def start (clientMap : Dict Name Client) : Operated Name Client App Actor :=
  ⟨{ Controller.init with clientMap := clientMap }, .idle⟩

/-- The next actor of a job, in the loop of `launchAppClient`: one that is repeated is passed over. -/
def launchNext (app : App) (n : ℕ) (ok : Bool) (jobs : List (Job Client Actor)) (s : Operated Name Client App Actor) :
    Operated Name Client App Actor :=
  match jobs[n]? with
  | some job =>
    match job.todo with
    | actor :: todo =>
      if job.ready then
        if actor ∈ job.clientActors then { s with op := .launching app (jobs.set n { job with todo := todo }) }
        else if ok then
          let c := s.ctrl.append job.client app actor
          { ctrl := if job.success then c.addAppClient app job.client else c
            op := .launching app (jobs.set n { job with todo := todo, clientActors := actor :: job.clientActors }) }
        else { s with op := .launching app (jobs.set n { job with todo := todo, success := false }) }
      else s
    | [] => s
  | none => s

/-- The end of `client.setupApp` of a job; if it fails, the job ends. -/
def setupNext (app : App) (n : ℕ) (ok : Bool) (jobs : List (Job Client Actor)) (s : Operated Name Client App Actor) :
    Operated Name Client App Actor :=
  match jobs[n]? with
  | some job =>
    if job.ready then s
    else if ok then { s with op := .launching app (jobs.set n { job with ready := true }) }
    else { s with op := .launching app (jobs.set n { job with todo := [] }) }
  | none => s

/-- `del self.appInfo[appName]`, at the end of `removeAppByName`. -/
def delApp (app : App) (s : Operated Name Client App Actor) : Operated Name Client App Actor :=
  { ctrl := { s.ctrl with appInfo := s.ctrl.appInfo.del app }, op := .idle }

/-- One step; nothing happens when the operator is not at it. -/
def step (s : Operated Name Client App Actor) : OperatorEvent Name Client App Actor → Operated Name Client App Actor
  | .compileApplication app =>
    match s.op with
    | .idle => { s with ctrl := s.ctrl.compileApplication app }
    | _ => s
  | .compileDeployment app depl =>
    match s.op with
    | .idle => { s with ctrl := s.ctrl.compileDeployment app depl }
    | _ => s
  | .loadByName app ok =>
    match s.op with
    | .idle => { s with ctrl := s.ctrl.loadByName gethostbyname app ok }
    | _ => s
  | .launchByName app =>
    match s.op, s.ctrl.launchJobs gethostbyname app with
    | .idle, some jobs => { s with op := .launching app jobs }
    | _, _ => s
  | .setupApp n ok =>
    match s.op with
    | .launching app jobs => s.setupNext app n ok jobs
    | _ => s
  | .launch n ok =>
    match s.op with
    | .launching app jobs => s.launchNext app n ok jobs
    | _ => s
  | .launched =>
    match s.op with
    | .launching _ jobs => if ∀ job ∈ jobs, job.todo = [] then { s with op := .idle } else s
    | _ => s
  | .haltByName app =>
    match s.op, s.ctrl.scan app with
    | .idle, some run => { s with op := .halting run false }
    | _, _ => s
  | .removeAppByName app =>
    match s.op, s.ctrl.scan app with
    | .idle, some run => { s with op := .halting run true }
    | .idle, none => s.delApp app
    | _, _ => s
  | .call =>
    match s.op with
    | .halting run remove => { s with op := .halting { run with called := true } remove }
    | _ => s
  | .assign =>
    match s.op with
    | .halting run remove =>
      if run.called then
        let s := { ctrl := s.ctrl.assign run, op := .idle }
        if remove then s.delApp run.app else s
      else s
    | _ => s
  | .addClient name client apps =>
    { s with ctrl := (s.ctrl.enterClient name client).addRecoveredAppInfo apps client }
  | .delClient name => { s with ctrl := s.ctrl.delClient name }

/-! ### Launches of what does not run -/

/-- No actor is on the launch list twice for one client and app. -/
def Once (s : Operated Name Client App Actor) : Prop := (s.ctrl.launchList.map Entry.key).Nodup

/-- Two jobs with nothing in common: they have different clients, or different actors. -/
def Apart (j k : Job Client Actor) : Prop := j.client = k.client → ∀ actor ∈ j.todo, actor ∉ k.todo

instance (j k : Job Client Actor) : Decidable (Apart j k) := by
  unfold Apart
  infer_instance

/-- No actor of the job is on the launch list. -/
def Unlisted (s : Operated Name Client App Actor) (app : App) (job : Job Client Actor) : Prop :=
  ∀ actor ∈ job.todo, (job.client, app, actor) ∉ s.ctrl.launchList.map Entry.key

instance (s : Operated Name Client App Actor) (app : App) (job : Job Client Actor) : Decidable
    (s.Unlisted app job) := by
  unfold Unlisted
  infer_instance

/-- If an app is launched, the targets that are one client have no actor in common, and none of the actors is on the
launch list. -/
def Fresh (s : Operated Name Client App Actor) : OperatorEvent Name Client App Actor → Prop
  | .launchByName app =>
    ∀ jobs ∈ s.ctrl.launchJobs gethostbyname app, jobs.Pairwise Apart ∧ ∀ job ∈ jobs, s.Unlisted app job
  | _ => True

instance (s : Operated Name Client App Actor) (ev : OperatorEvent Name Client App Actor) :
    Decidable (s.Fresh gethostbyname ev) := by
  unfold Fresh
  split <;> infer_instance

/-! ### The invariant -/

/-- What the jobs of an app may still launch is not on the list, and no two of them would launch the same. -/
structure JobsInv (l : List (Entry Client App Actor)) (app : App) (jobs : List (Job Client Actor)) : Prop where
  apart : ∀ (m n : ℕ) (j k : Job Client Actor), m ≠ n → jobs[m]? = some j → jobs[n]? = some k → Apart j k
  unlisted : ∀ job ∈ jobs, ∀ actor ∈ job.todo, actor ∉ job.clientActors → (job.client, app, actor) ∉ l.map Entry.key

/-- What holds of the list while the operator is at this. -/
def OpInv (l : List (Entry Client App Actor)) : Operation Client App Actor → Prop
  | .idle => True
  | .launching app jobs => JobsInv l app jobs
  | .halting run _ => (run.kept.map Entry.key).Nodup

/-- Every actor is on the list once, and what the operator is at leaves it so. -/
structure OnceInv (s : Operated Name Client App Actor) : Prop where
  once : s.Once
  op : OpInv s.ctrl.launchList s.op

section Lists

omit [DecidableEq Name] [DecidableEq Client] [DecidableEq App] [DecidableEq Actor]

theorem JobsInv.of_sublist {l l' : List (Entry Client App Actor)} {app : App} {jobs : List (Job Client Actor)}
    (h : JobsInv l app jobs) (hsub : l'.Sublist l) : JobsInv l' app jobs :=
  ⟨h.apart, fun job hjob actor hactor hnew hmem => h.unlisted job hjob actor hactor hnew ((hsub.map _).subset hmem)⟩

/-- A shorter list, with the operator at the same. -/
theorem OnceInv.of_sublist {s t : Operated Name Client App Actor} (h : OnceInv s)
    (hsub : t.ctrl.launchList.Sublist s.ctrl.launchList) (hop : t.op = s.op) : OnceInv t := by
  refine ⟨(hsub.map _).nodup h.once, ?_⟩
  have hs := h.op
  rw [hop]
  cases hcase : s.op with
  | idle => trivial
  | launching app jobs =>
    rw [hcase] at hs
    exact hs.of_sublist hsub
  | halting run remove =>
    rw [hcase] at hs
    exact hs

/-- The job at position `n` goes on, with fewer actors. -/
theorem JobsInv.set {l : List (Entry Client App Actor)} {app : App} {jobs : List (Job Client Actor)}
    (h : JobsInv l app jobs) {n : ℕ} {job : Job Client Actor} (job' : Job Client Actor) (hjob : jobs[n]? = some job)
    (hclient : job'.client = job.client) (htodo : ∀ actor ∈ job'.todo, actor ∈ job.todo)
    (hnew : ∀ actor ∈ job'.todo, actor ∉ job'.clientActors → actor ∉ job.clientActors) :
    JobsInv l app (jobs.set n job') := by
  -- the jobs of the new list are those of the old, but for the one
  have hold (m : ℕ) (j : Job Client Actor) (hj : (jobs.set n job')[m]? = some j) :
      ∃ j', jobs[m]? = some j' ∧ j.client = j'.client ∧ ∀ actor ∈ j.todo, actor ∈ j'.todo := by
    by_cases hmn : n = m
    · subst hmn
      rw [List.getElem?_set_self (List.getElem?_eq_some_iff.mp hjob).1] at hj
      obtain rfl := Option.some.inj hj
      exact ⟨job, hjob, hclient, htodo⟩
    · rw [List.getElem?_set_ne hmn] at hj
      exact ⟨j, hj, rfl, fun _ => id⟩
  constructor
  · intro m k j j' hne hj hj' hsame actor hactor hactor'
    obtain ⟨i, hi, hci, hti⟩ := hold m j hj
    obtain ⟨i', hi', hci', hti'⟩ := hold k j' hj'
    exact h.apart m k i i' hne hi hi' (by rw [← hci, ← hci', hsame]) actor (hti actor hactor) (hti' actor hactor')
  · intro j hj actor hactor hfresh
    rcases List.mem_or_eq_of_mem_set hj with hj | rfl
    · exact h.unlisted j hj actor hactor hfresh
    · rw [hclient]
      exact h.unlisted job (List.mem_of_getElem? hjob) actor (htodo actor hactor) (hnew actor hactor hfresh)

/-- The job at position `n` has launched its next actor. -/
theorem JobsInv.launched {l : List (Entry Client App Actor)} {app : App} {jobs : List (Job Client Actor)}
    (h : JobsInv l app jobs) {n : ℕ} {job : Job Client Actor} (hjob : jobs[n]? = some job) {actor : Actor}
    {todo : List Actor} (htodo : job.todo = actor :: todo) (launch : ℕ) :
    JobsInv (l ++ [⟨job.client, app, actor, launch⟩]) app
      (jobs.set n { job with todo := todo, clientActors := actor :: job.clientActors }) := by
  have hset := h.set { job with todo := todo, clientActors := actor :: job.clientActors } hjob rfl
    (fun a ha => htodo ▸ List.mem_cons_of_mem _ ha) (fun a _ ha => fun hmem => ha (List.mem_cons_of_mem _ hmem))
  refine ⟨hset.apart, fun j hj a ha hnew hmem => ?_⟩
  rw [List.map_append, List.mem_append] at hmem
  rcases hmem with hmem | hmem
  · exact hset.unlisted j hj a ha hnew hmem
  · obtain ⟨hclient, -, rfl⟩ : j.client = job.client ∧ app = app ∧ a = actor := by
      simpa [Entry.key] using hmem
    obtain ⟨m, hm⟩ := List.mem_iff_getElem?.mp hj
    by_cases hmn : n = m
    · subst hmn
      rw [List.getElem?_set_self (List.getElem?_eq_some_iff.mp hjob).1] at hm
      obtain rfl := Option.some.inj hm
      exact hnew List.mem_cons_self
    · rw [List.getElem?_set_ne hmn] at hm
      exact h.apart n m job j hmn hjob hm hclient.symm a (htodo ▸ List.mem_cons_self) ha

end Lists

/-! ### Steps keep the invariant -/

omit [DecidableEq Name] [DecidableEq Actor] in
theorem launchList_addAppClient (app : App) (client : Client) (c : Controller Name Client App Actor) :
    (c.addAppClient app client).launchList = c.launchList := by
  unfold Controller.addAppClient
  cases c.appInfo.get? app <;> rfl

omit [DecidableEq Name] [DecidableEq Client] [DecidableEq Actor] in
theorem launchList_compileApplication (app : App) (c : Controller Name Client App Actor) :
    (c.compileApplication app).launchList = c.launchList := by
  unfold Controller.compileApplication
  split_ifs <;> rfl

omit [DecidableEq Name] [DecidableEq Client] [DecidableEq Actor] in
theorem launchList_compileDeployment (app : App) (depl : List (Deployment Name Actor))
    (c : Controller Name Client App Actor) : (c.compileDeployment app depl).launchList = c.launchList := by
  unfold Controller.compileDeployment
  cases c.appInfo.get? app <;> rfl

omit [DecidableEq Client] [DecidableEq Actor] in
theorem launchList_loadByName (app : App) (ok : Bool) (c : Controller Name Client App Actor) :
    (c.loadByName gethostbyname app ok).launchList = c.launchList := by
  have hset (status : AppStatus) : (c.setStatus app status).launchList = c.launchList := by
    unfold Controller.setStatus
    cases c.appInfo.get? app <;> rfl
  unfold Controller.loadByName
  cases c.appInfo.get? app with
  | none => rfl
  | some info =>
    cases hdepl : info.depl with
    | none => simp [hdepl]
    | some depls =>
      simp only [hdepl]
      split
      · exact hset _
      · rfl

variable {gethostbyname} {s : Operated Name Client App Actor}

/-- The jobs of an app start. -/
theorem OnceInv.launchByName (h : OnceInv s) {app : App} (hfresh : s.Fresh gethostbyname (.launchByName app)) :
    OnceInv (s.step gethostbyname (.launchByName app)) := by
  simp only [step]
  split
  · rename_i jobs hop hjobs
    obtain ⟨hapart, hunlisted⟩ := hfresh jobs hjobs
    refine ⟨h.once, fun m n j k hne hj hk hsame actor hactor hactor' => ?_, fun job hjob actor hactor _ =>
      hunlisted job hjob actor hactor⟩
    obtain ⟨hm, rfl⟩ := List.getElem?_eq_some_iff.mp hj
    obtain ⟨hn, rfl⟩ := List.getElem?_eq_some_iff.mp hk
    have hpair := List.pairwise_iff_getElem.mp hapart
    rcases Nat.lt_or_gt_of_ne hne with hlt | hgt
    · exact hpair m n hm hn hlt hsame actor hactor hactor'
    · exact hpair n m hn hm hgt hsame.symm actor hactor' hactor
  · exact h

omit [DecidableEq Name] [DecidableEq Client] [DecidableEq App] [DecidableEq Actor] in
/-- A job sets up its app. -/
theorem OnceInv.setupNext (h : OnceInv s) {app : App} {jobs : List (Job Client Actor)}
    (hop : s.op = .launching app jobs)
    (n : ℕ) (ok : Bool) : OnceInv (s.setupNext app n ok jobs) := by
  have hinv : JobsInv s.ctrl.launchList app jobs := by
    have := h.op
    rwa [hop] at this
  unfold Operated.setupNext
  cases hjob : jobs[n]? with
  | none => exact h
  | some job =>
    simp only
    split_ifs
    · exact h
    · exact ⟨h.once, hinv.set { job with ready := true } hjob rfl (fun _ => id) fun _ _ => id⟩
    · exact ⟨h.once, hinv.set { job with todo := [] } hjob rfl (fun _ ha => by cases ha) fun _ _ => id⟩

omit [DecidableEq Name] [DecidableEq Client] [DecidableEq App] [DecidableEq Actor] in
/-- A job has launched an actor, which goes on the list, where it was not. -/
theorem OnceInv.launched (h : OnceInv s) {app : App} {jobs : List (Job Client Actor)}
    (hinv : JobsInv s.ctrl.launchList app jobs) {n : ℕ} {job : Job Client Actor} (hjob : jobs[n]? = some job)
    {actor : Actor} {todo : List Actor} (htodo : job.todo = actor :: todo) (hdone : actor ∉ job.clientActors)
    {c : Controller Name Client App Actor} (launch : ℕ)
    (hc : c.launchList = s.ctrl.launchList ++ [⟨job.client, app, actor, launch⟩]) :
    OnceInv ⟨c, .launching app (jobs.set n { job with todo := todo, clientActors := actor :: job.clientActors })⟩ := by
  have hnew : (job.client, app, actor) ∉ s.ctrl.launchList.map Entry.key :=
    hinv.unlisted job (List.mem_of_getElem? hjob) actor (htodo ▸ List.mem_cons_self) hdone
  constructor
  · show (c.launchList.map Entry.key).Nodup
    rw [hc, List.map_append, List.nodup_append]
    refine ⟨h.once, by simp, fun key hkey key' hkey' heq => ?_⟩
    obtain rfl : key' = (job.client, app, actor) := by simpa [Entry.key] using hkey'
    exact hnew (heq ▸ hkey)
  · show JobsInv c.launchList app _
    rw [hc]
    exact hinv.launched hjob htodo launch

omit [DecidableEq Name] in
/-- A job comes to its next actor. -/
theorem OnceInv.launchNext (h : OnceInv s) {app : App} {jobs : List (Job Client Actor)}
    (hop : s.op = .launching app jobs)
    (n : ℕ) (ok : Bool) : OnceInv (s.launchNext app n ok jobs) := by
  have hinv : JobsInv s.ctrl.launchList app jobs := by
    have := h.op
    rwa [hop] at this
  unfold Operated.launchNext
  cases hjob : jobs[n]? with
  | none => exact h
  | some job =>
    simp only
    cases htodo : job.todo with
    | nil => exact h
    | cons actor todo =>
      have hrest (a : Actor) (ha : a ∈ todo) : a ∈ job.todo := htodo ▸ List.mem_cons_of_mem _ ha
      simp only
      split
      · split
        · exact ⟨h.once, hinv.set { job with todo := todo } hjob rfl hrest fun _ _ => id⟩
        · rename_i hdone
          split
          · refine h.launched hinv hjob htodo hdone s.ctrl.launched.length ?_
            split
            · exact launchList_addAppClient _ _ _
            · rfl
          · exact ⟨h.once, hinv.set { job with todo := todo, success := false } hjob rfl hrest fun _ _ => id⟩
      · exact h

/-- Each step keeps the invariant, if launches are fresh. -/
theorem OnceInv.step (h : OnceInv s) {ev : OperatorEvent Name Client App Actor} (hfresh : s.Fresh gethostbyname ev) :
    OnceInv (s.step gethostbyname ev) := by
  have hscan (app : App) (run : HaltRun Client App Actor) (hrun : s.ctrl.scan app = some run) :
      (run.kept.map Entry.key).Nodup := by
    simp only [Controller.scan] at hrun
    split at hrun
    · cases hrun
    · obtain rfl := Option.some.inj hrun
      exact (List.filter_sublist.map _).nodup h.once
  cases ev with
  | launchByName app => exact h.launchByName hfresh
  | compileApplication app =>
    simp only [Operated.step]
    split
    · exact h.of_sublist (launchList_compileApplication app s.ctrl ▸ List.Sublist.refl _) rfl
    · exact h
  | compileDeployment app depl =>
    simp only [Operated.step]
    split
    · exact h.of_sublist (launchList_compileDeployment app depl s.ctrl ▸ List.Sublist.refl _) rfl
    · exact h
  | loadByName app ok =>
    simp only [Operated.step]
    split
    · exact h.of_sublist (launchList_loadByName gethostbyname app ok s.ctrl ▸ List.Sublist.refl _) rfl
    · exact h
  | setupApp n ok =>
    simp only [Operated.step]
    split
    · rename_i app jobs hop
      exact h.setupNext hop n ok
    · exact h
  | launch n ok =>
    simp only [Operated.step]
    split
    · rename_i app jobs hop
      exact h.launchNext hop n ok
    · exact h
  | launched =>
    simp only [Operated.step]
    split
    · split_ifs
      · exact ⟨h.once, trivial⟩
      · exact h
    · exact h
  | haltByName app =>
    simp only [Operated.step]
    split
    · rename_i run hop hrun
      exact ⟨h.once, hscan app run hrun⟩
    · exact h
  | removeAppByName app =>
    simp only [Operated.step]
    split
    · rename_i run hop hrun
      exact ⟨h.once, hscan app run hrun⟩
    · exact ⟨h.once, trivial⟩
    · exact h
  | call =>
    simp only [Operated.step]
    split
    · rename_i run remove hop
      have hkept := h.op
      rw [hop] at hkept
      exact ⟨h.once, hkept⟩
    · exact h
  | assign =>
    simp only [Operated.step]
    split
    · rename_i run remove hop
      have hkept := h.op
      rw [hop] at hkept
      split_ifs
      · exact ⟨hkept, trivial⟩
      · exact ⟨hkept, trivial⟩
      · exact h
    · exact h
  | addClient name client apps => exact h.of_sublist (List.Sublist.refl _) rfl
  | delClient name =>
    refine h.of_sublist ?_ rfl
    show (s.ctrl.delClient name).launchList.Sublist _
    rw [Controller.launchList_delClient]
    split
    · exact List.filter_sublist
    · exact List.Sublist.refl _

omit [DecidableEq Name] [DecidableEq Client] [DecidableEq App] [DecidableEq Actor] in
theorem onceInv_start (clientMap : Dict Name Client) : OnceInv (start clientMap : Operated Name Client App Actor) :=
  ⟨by simp [Once, start, Controller.init], trivial⟩

variable (gethostbyname)

/-- **No duplicate launch**, in every run in which what is launched is fresh: the launch list has each client, app and
actor at most once. -/
theorem once_run (clientMap : Dict Name Client) (evs : List (OperatorEvent Name Client App Actor))
    (h : AllSteps (step gethostbyname) (Fresh gethostbyname) (start clientMap) evs) :
    Always (step gethostbyname) Once (start clientMap) evs :=
  fun pre hpre => (h.always (I := OnceInv) (fun _ _ hs hfresh => hs.step hfresh) (onceInv_start clientMap)
    pre hpre).once

/-! ### One client -/

/-- Name 100 stands for address 0. -/
def dns (name : ℕ) : Option ℕ := if name = 100 then some 0 else none

/-- Node 0 is logged in, as client 10. -/
def one : Dict ℕ ℕ := Dict.empty.set 0 10

/-- App 7 is deployed as given and loaded. -/
def loaded (depl : List (Deployment ℕ ℕ)) : List (OperatorEvent ℕ ℕ ℕ ℕ) :=
  [.compileApplication 7, .compileDeployment 7 depl, .loadByName 7 true]

/-- App 7 is launched, halted and launched again. -/
theorem once_relaunch :
    Always (step dns) Once (start one : Operated ℕ ℕ ℕ ℕ)
      (loaded [⟨[0], [1, 1]⟩, ⟨[100], [2]⟩] ++ [.launchByName 7, .setupApp 0 true, .launch 0 true, .setupApp 1 true,
        .launch 1 true, .launch 0 true, .launched, .haltByName 7, .call, .assign, .launchByName 7, .setupApp 0 true,
        .launch 0 true]) :=
  once_run dns one _ (by decide)

/-- Actor 1 goes to client 10 under its address and under its DNS name; or app 7 is launched twice. -/
theorem launched_twice :
    ¬ Always (step dns) Once (start one : Operated ℕ ℕ ℕ ℕ)
        (loaded [⟨[0, 100], [1]⟩] ++
          [.launchByName 7, .setupApp 0 true, .setupApp 1 true, .launch 0 true, .launch 1 true]) ∧
      ¬ Always (step dns) Once (start one : Operated ℕ ℕ ℕ ℕ)
        (loaded [⟨[], [1]⟩] ++ [.launchByName 7, .setupApp 0 true, .launch 0 true, .launched, .launchByName 7,
          .setupApp 0 true, .launch 0 true]) := by
  constructor
  · intro h
    have hlast := h.last
    revert hlast
    unfold Once
    decide
  · intro h
    have hlast := h.last
    revert hlast
    unfold Once
    decide

end Operated

end Riaps.Control
