import Riaps.Foundation.Runs
import Riaps.Control.Controller

/-!
# Updates of the launch list

Three things happen to the launch list. A launch appends to it, a client that
goes away takes its entries along, and the halt of an app copies what is to stay,
calls the clients, and puts the copy in place of the list. What happens to the
list between the copy and the end of the halt is lost: an append is forgotten,
and the entries of a client or of another app that have gone come back.

While nothing is appended during a halt, no client goes that the copy has entries
of, and no two apps are halted at once (`Apart`), the list is what was launched
less what was halted or has lost its client (`settled_run`).
-/

namespace Riaps.Control

open Riaps.Foundation

universe u

/-- The controller, the halts that are under way, and what has been halted and deleted so far. -/
structure Launches (Name Client App Actor : Type u) where
  ctrl : Controller Name Client App Actor
  /-- The halts that have gathered their entries. -/
  halts : List (HaltRun Client App Actor)
  /-- The entries whose actors were halted. -/
  halted : List (Entry Client App Actor)
  /-- The clients that were deleted. -/
  deleted : List Client

/-- What happens to the launch list. -/
inductive LaunchEvent (Name Client App Actor : Type u) where
  /-- `launchAppClient` has launched an actor. -/
  | append (client : Client) (app : App) (actor : Actor)
  /-- `haltApp` gathers the entries of the app. -/
  | scan (app : App)
  /-- The halt at position `n` calls the clients. -/
  | call (n : ℕ)
  /-- The halt at position `n`, which has called them, ends. -/
  | assign (n : ℕ)
  /-- `delClient`. -/
  | delClient (name : Name)

variable {Name Client App Actor : Type u} [DecidableEq Name] [DecidableEq Client] [DecidableEq App]

namespace Launches

/-- With these nodes logged in, nothing has been launched. -/
def start (clientMap : Dict Name Client) : Launches Name Client App Actor :=
  ⟨{ Controller.init with clientMap := clientMap }, [], [], []⟩

/-- One step; nothing happens if there is no such halt. -/
def step (s : Launches Name Client App Actor) : LaunchEvent Name Client App Actor → Launches Name Client App Actor
  | .append client app actor => { s with ctrl := s.ctrl.append client app actor }
  | .scan app => { s with halts := s.halts ++ (s.ctrl.scan app).toList }
  | .call n =>
    match s.halts[n]? with
    | some run =>
      if run.called then s
      else { s with halts := s.halts.set n { run with called := true }, halted := s.halted ++ run.toHalt }
    | none => s
  | .assign n =>
    match s.halts[n]? with
    | some run => if run.called then { s with ctrl := s.ctrl.assign run, halts := s.halts.eraseIdx n } else s
    | none => s
  | .delClient name =>
    { s with ctrl := s.ctrl.delClient name, deleted := s.deleted ++ (s.ctrl.clientMap.get? name).toList }

variable [DecidableEq Actor]

/-- The entries that were launched, not halted, and whose client has not been deleted. -/
def current (s : Launches Name Client App Actor) : List (Entry Client App Actor) :=
  s.ctrl.launched.filter fun elt => elt ∉ s.halted ∧ elt.client ∉ s.deleted

/-- When no halt is under way, the launch list has these entries. -/
def Settled (s : Launches Name Client App Actor) : Prop := s.halts = [] → s.ctrl.launchList = s.current

/-- No step falls into a halt that it does not go with: a launch is of a client that is still there, and waits until
no halt is under way; a client that is deleted has no entry among those that a halt keeps; and an app that has
entries is not halted while another one is. -/
def Apart (s : Launches Name Client App Actor) : LaunchEvent Name Client App Actor → Prop
  | .append client _ _ => s.halts = [] ∧ client ∉ s.deleted
  | .scan app => ∀ run ∈ s.halts, run.app = app ∨ s.ctrl.scan app = none
  | .delClient name => ∀ client ∈ s.ctrl.clientMap.get? name, ∀ run ∈ s.halts, ∀ elt ∈ run.kept, elt.client ≠ client
  | .call _ | .assign _ => True

instance (s : Launches Name Client App Actor) (ev : LaunchEvent Name Client App Actor) : Decidable (s.Apart ev) := by
  unfold Apart
  split <;> infer_instance

/-! ### The invariant -/

/-- The entries that were halted or are to be. -/
def doomed (s : Launches Name Client App Actor) : List (Entry Client App Actor) :=
  s.halted ++ s.halts.flatMap HaltRun.toHalt

/-- The entries that stay. -/
def staying (s : Launches Name Client App Actor) : List (Entry Client App Actor) :=
  s.ctrl.launched.filter fun elt => elt ∉ s.doomed ∧ elt.client ∉ s.deleted

/-- Between steps that are apart: without a halt the list has the entries that stay; with some, each keeps just
these, and the list has them and entries of its app. -/
structure LaunchInv (s : Launches Name Client App Actor) : Prop where
  number : ∀ elt ∈ s.ctrl.launched, elt.launch < s.ctrl.launched.length
  list : ∀ elt ∈ s.ctrl.launchList, elt ∈ s.ctrl.launched
  doomed : ∀ elt ∈ s.doomed, elt ∈ s.ctrl.launched
  called : ∀ run ∈ s.halts, run.called → ∀ elt ∈ run.toHalt, elt ∈ s.halted
  idle : s.halts = [] → s.ctrl.launchList = s.staying
  kept : ∀ run ∈ s.halts, run.kept = s.staying
  others : ∀ run ∈ s.halts, (s.ctrl.launchList.filter fun elt => elt.app ≠ run.app) = s.staying

variable {s : Launches Name Client App Actor}

omit [DecidableEq Name] [DecidableEq Client] [DecidableEq App] [DecidableEq Actor] in
theorem mem_doomed {elt : Entry Client App Actor} :
    elt ∈ s.doomed ↔ elt ∈ s.halted ∨ ∃ run ∈ s.halts, elt ∈ run.toHalt := by
  simp [doomed]

omit [DecidableEq Name] in
/-- What stays depends on who is doomed, in whatever order. -/
theorem staying_congr {t : Launches Name Client App Actor} (hl : t.ctrl.launched = s.ctrl.launched)
    (hd : ∀ elt, elt ∈ t.doomed ↔ elt ∈ s.doomed) (hc : t.deleted = s.deleted) : t.staying = s.staying := by
  simp only [staying, hl, hd, hc]

omit [DecidableEq Name] in
theorem launchInv_start (clientMap : Dict Name Client) :
    LaunchInv (start clientMap : Launches Name Client App Actor) := by
  constructor <;> simp [start, Controller.init, staying, Launches.doomed]

theorem LaunchInv.append (h : LaunchInv s) {client : Client} (app : App) (actor : Actor)
    (hapart : s.Apart (.append client app actor)) : LaunchInv (s.step (.append client app actor)) := by
  obtain ⟨hhalts, hclient⟩ := hapart
  let elt : Entry Client App Actor := ⟨client, app, actor, s.ctrl.launched.length⟩
  have hnew : elt ∉ s.doomed := fun hmem => Nat.lt_irrefl _ (h.number elt (h.doomed elt hmem))
  have hstaying : (s.step (.append client app actor)).staying = s.staying ++ [elt] := by
    show (s.ctrl.launched ++ [elt]).filter _ = _
    rw [List.filter_append]
    congr 1
    exact List.filter_cons_of_pos (by simpa [elt] using ⟨hnew, hclient⟩)
  refine ⟨fun e he => ?_, fun e he => ?_, fun e he => ?_, h.called, fun _ => ?_, fun run hrun => ?_, fun run hrun => ?_⟩
  · have hlen : (s.step (.append client app actor)).ctrl.launched.length = s.ctrl.launched.length + 1 := by
      simp [step, Controller.append]
    rw [hlen]
    rcases List.mem_append.mp he with he | he
    · exact Nat.lt_succ_of_lt (h.number e he)
    · obtain rfl := List.mem_singleton.mp he
      exact Nat.lt_succ_self _
  · rcases List.mem_append.mp he with he | he
    · exact List.mem_append_left _ (h.list e he)
    · exact List.mem_append_right _ he
  · exact List.mem_append_left _ (h.doomed e he)
  · rw [hstaying, ← h.idle hhalts]
    rfl
  · have hrun : run ∈ s.halts := hrun
    rw [hhalts] at hrun
    cases hrun
  · have hrun : run ∈ s.halts := hrun
    rw [hhalts] at hrun
    cases hrun

theorem LaunchInv.scan (h : LaunchInv s) {app : App} (hapart : s.Apart (.scan app)) : LaunchInv
    (s.step (.scan app)) := by
  cases hscan : s.ctrl.scan app with
  | none =>
    have hsame : s.step (.scan app) = s := by simp [step, hscan]
    rwa [hsame]
  | some run =>
    have hrun : run = ⟨app, s.ctrl.launchList.filter fun elt => elt.app ≠ app,
        s.ctrl.launchList.filter fun elt => elt.app = app, false⟩ := by
      simp only [Controller.scan] at hscan
      split at hscan
      · cases hscan
      · exact (Option.some.inj hscan).symm
    have hstep : s.step (.scan app) = { s with halts := s.halts ++ [run] } := by simp [step, hscan]
    have happ : ∀ r ∈ s.halts, r.app = app := fun r hr => (hapart r hr).resolve_right (by simp [hscan])
    -- what the new halt keeps is what stays from now on
    have hkept : (s.ctrl.launchList.filter fun elt => elt.app ≠ app) = (s.step (.scan app)).staying := by
      have hcut : (s.step (.scan app)).staying = s.staying.filter fun elt => elt ∉ run.toHalt := by
        rw [hstep]
        simp only [staying, Launches.doomed, List.flatMap_append, List.filter_filter]
        refine List.filter_congr fun e _ => Bool.eq_iff_iff.mpr ?_
        simp
        tauto
      rw [hcut]
      cases hhalts : s.halts with
      | nil =>
        rw [← h.idle hhalts]
        refine List.filter_congr fun e he => ?_
        simp [hrun, he]
      | cons r rs =>
        have hr : r ∈ s.halts := hhalts ▸ List.mem_cons_self
        rw [← h.others r hr, happ r hr, List.filter_filter]
        refine List.filter_congr fun e he => ?_
        simp [hrun, he]
    have hstay : s.halts ≠ [] → (s.step (.scan app)).staying = s.staying := by
      intro hne
      obtain ⟨r, hr⟩ := List.exists_mem_of_ne_nil _ hne
      rw [← hkept, ← h.others r hr, happ r hr]
    rw [hstep] at hkept hstay ⊢
    refine ⟨h.number, h.list, fun e he => ?_, fun r hr => ?_, fun hnil => ?_, fun r hr => ?_, fun r hr => ?_⟩
    · simp only [Launches.doomed, List.flatMap_append, List.flatMap_singleton, ← List.append_assoc] at he
      rcases List.mem_append.mp he with he | he
      · exact h.doomed e he
      · rw [hrun] at he
        exact h.list e (List.mem_of_mem_filter he)
    · rcases List.mem_append.mp hr with hr | hr
      · exact h.called r hr
      · obtain rfl := List.mem_singleton.mp hr
        simp [hrun]
    · simp at hnil
    · rcases List.mem_append.mp hr with hr | hr
      · exact (h.kept r hr).trans (hstay (List.ne_nil_of_mem hr)).symm
      · obtain rfl := List.mem_singleton.mp hr
        rw [← hkept, hrun]
    · rcases List.mem_append.mp hr with hr | hr
      · exact (h.others r hr).trans (hstay (List.ne_nil_of_mem hr)).symm
      · obtain rfl := List.mem_singleton.mp hr
        rw [← hkept, hrun]

theorem LaunchInv.call (h : LaunchInv s) (n : ℕ) : LaunchInv (s.step (.call n)) := by
  simp only [step]
  cases hrun : s.halts[n]? with
  | none => exact h
  | some run =>
    simp only
    split_ifs with hcalled
    · exact h
    · have hmem : run ∈ s.halts := List.mem_of_getElem? hrun
      -- but for the flag the halts are the same
      have hold : ∀ r ∈ s.halts.set n { run with called := true }, r ∈ s.halts ∨ r = { run with called := true } :=
        fun r hr => List.mem_or_eq_of_mem_set hr
      have hdoomed : ∀ elt, elt ∈ s.halted ++ run.toHalt ++
          (s.halts.set n { run with called := true }).flatMap HaltRun.toHalt ↔ elt ∈ s.doomed := by
        intro elt
        simp only [mem_doomed, List.mem_append, List.mem_flatMap]
        constructor
        · rintro ((he | he) | ⟨r, hr, he⟩)
          · exact .inl he
          · exact .inr ⟨run, hmem, he⟩
          · rcases hold r hr with hr | rfl
            · exact .inr ⟨r, hr, he⟩
            · exact .inr ⟨run, hmem, he⟩
        · rintro (he | ⟨r, hr, he⟩)
          · exact .inl (.inl he)
          · obtain ⟨m, hm⟩ := List.mem_iff_getElem?.mp hr
            by_cases hmn : n = m
            · subst hmn
              obtain rfl := Option.some.inj (hrun.symm.trans hm)
              exact .inl (.inr he)
            · exact .inr ⟨r, List.mem_of_getElem? ((List.getElem?_set_ne hmn).trans hm), he⟩
      have hstay := staying_congr (s := s) (t := { s with
        halts := s.halts.set n { run with called := true }, halted := s.halted ++ run.toHalt }) rfl hdoomed rfl
      refine ⟨h.number, h.list, fun e he => h.doomed e ((hdoomed e).mp he), fun r hr hcalled' e he => ?_,
        fun hnil => ?_, fun r hr => ?_, fun r hr => ?_⟩
      · rcases hold r hr with hr | rfl
        · exact List.mem_append_left _ (h.called r hr hcalled' e he)
        · exact List.mem_append_right _ he
      · rw [hstay]
        exact h.idle (by simpa using hnil)
      · rw [hstay]
        rcases hold r hr with hr | rfl
        · exact h.kept r hr
        · exact h.kept run hmem
      · rw [hstay]
        rcases hold r hr with hr | rfl
        · exact h.others r hr
        · exact h.others run hmem

theorem LaunchInv.assign (h : LaunchInv s) (n : ℕ) : LaunchInv (s.step (.assign n)) := by
  simp only [step]
  cases hrun : s.halts[n]? with
  | none => exact h
  | some run =>
    simp only
    split_ifs with hcalled
    · have hmem : run ∈ s.halts := List.mem_of_getElem? hrun
      have hrest : ∀ r ∈ s.halts.eraseIdx n, r ∈ s.halts := fun r hr => List.mem_of_mem_eraseIdx hr
      have hdoomed : ∀ elt, elt ∈ s.halted ++ (s.halts.eraseIdx n).flatMap HaltRun.toHalt ↔ elt ∈ s.doomed := by
        intro elt
        simp only [mem_doomed, List.mem_append, List.mem_flatMap]
        constructor
        · rintro (he | ⟨r, hr, he⟩)
          · exact .inl he
          · exact .inr ⟨r, hrest r hr, he⟩
        · rintro (he | ⟨r, hr, he⟩)
          · exact .inl he
          · by_cases hr' : r ∈ s.halts.eraseIdx n
            · exact .inr ⟨r, hr', he⟩
            · have hreq : r = run := by
                obtain ⟨m, hm⟩ := List.mem_iff_getElem?.mp hr
                by_cases hmn : m = n
                · subst hmn
                  exact (Option.some.inj (hrun.symm.trans hm)).symm
                · exact absurd (List.mem_eraseIdx_iff_getElem?.mpr ⟨m, hmn, hm⟩) hr'
              exact .inl (h.called run hmem hcalled elt (hreq ▸ he))
      have hstay := staying_congr (s := s) (t := { s with
        ctrl := s.ctrl.assign run, halts := s.halts.eraseIdx n }) rfl hdoomed rfl
      have hlist : run.kept = s.staying := h.kept run hmem
      refine ⟨h.number, fun e he => ?_, fun e he => h.doomed e ((hdoomed e).mp he), fun r hr => h.called r (hrest r hr),
        fun _ => ?_, fun r hr => ?_, fun r hr => ?_⟩
      · have he' : e ∈ s.staying := hlist ▸ he
        exact List.mem_of_mem_filter he'
      · rw [hstay]
        exact hlist
      · rw [hstay]
        exact h.kept r (hrest r hr)
      · rw [hstay]
        show (run.kept.filter fun elt => elt.app ≠ r.app) = _
        rw [hlist, ← h.others r (hrest r hr), List.filter_filter]
        simp
    · exact h

theorem LaunchInv.delClient (h : LaunchInv s) {name : Name} (hapart : s.Apart (.delClient name)) :
    LaunchInv (s.step (.delClient name)) := by
  cases hname : s.ctrl.clientMap.get? name with
  | none =>
    have hsame : s.step (.delClient name) = s := by simp [step, Controller.delClient, hname]
    rwa [hsame]
  | some client =>
    have hlist : (s.step (.delClient name)).ctrl.launchList =
        s.ctrl.launchList.filter fun elt => elt.client ≠ client := by
      show (s.ctrl.delClient name).launchList = _
      rw [Controller.launchList_delClient, hname]
    have hlaunched : (s.step (.delClient name)).ctrl.launched = s.ctrl.launched :=
      Controller.launched_delClient name s.ctrl
    have hstay : (s.step (.delClient name)).staying = s.staying.filter fun elt => elt.client ≠ client := by
      simp only [staying, hlaunched, List.filter_filter]
      refine List.filter_congr fun e _ => Bool.eq_iff_iff.mpr ?_
      simp [step, hname, Launches.doomed]
      tauto
    have hsame : s.halts ≠ [] → (s.step (.delClient name)).staying = s.staying := by
      intro hne
      obtain ⟨run, hrun⟩ := List.exists_mem_of_ne_nil _ hne
      rw [hstay, List.filter_eq_self, ← h.kept run hrun]
      intro elt helt
      simpa using hapart client hname run hrun elt helt
    refine ⟨?_, fun e he => ?_, fun e he => ?_, h.called, fun hnil => ?_, fun run hrun => ?_, fun run hrun => ?_⟩
    · rw [hlaunched]
      exact h.number
    · rw [hlist] at he
      rw [hlaunched]
      exact h.list e (List.mem_of_mem_filter he)
    · rw [hlaunched]
      exact h.doomed e he
    · rw [hlist, hstay, h.idle hnil]
    · exact (h.kept run hrun).trans (hsame (List.ne_nil_of_mem hrun)).symm
    · rw [hlist, hstay, ← h.others run hrun, List.filter_filter, List.filter_filter]
      exact List.filter_congr fun e _ => Bool.and_comm _ _

theorem LaunchInv.step (h : LaunchInv s) {ev : LaunchEvent Name Client App Actor} (hapart : s.Apart ev) :
    LaunchInv (s.step ev) := by
  cases ev with
  | append client app actor => exact h.append app actor hapart
  | scan app => exact h.scan hapart
  | call n => exact h.call n
  | assign n => exact h.assign n
  | delClient name => exact h.delClient hapart

omit [DecidableEq Name] in
theorem LaunchInv.settled (h : LaunchInv s) : s.Settled := by
  intro hnil
  rw [h.idle hnil]
  simp [staying, current, Launches.doomed, hnil]

/-- **The launch list**, in every run whose steps are apart: when no halt is under way it has exactly the entries that
were launched, not halted, and whose client has not been deleted. -/
theorem settled_run (clientMap : Dict Name Client) (evs : List (LaunchEvent Name Client App Actor))
    (h : AllSteps step Apart (start clientMap) evs) : Always step Settled (start clientMap) evs :=
  fun pre hpre => (h.always (I := LaunchInv) (fun _ _ hs hapart => hs.step hapart) (launchInv_start clientMap)
    pre hpre).settled

/-! ### Two clients -/

/-- Nodes 0 and 1 are logged in, as clients 10 and 11. -/
def pair : Dict ℕ ℕ := (Dict.empty.set 0 10).set 1 11

/-- App 0 is launched on both clients and app 1 on client 11; app 0 is halted, and then node 1 goes away. -/
theorem settled_halt :
    Always step Settled (start pair : Launches ℕ ℕ ℕ ℕ)
      [.append 10 0 0, .append 11 0 0, .append 11 1 0, .scan 0, .call 0, .assign 0, .delClient 1] :=
  settled_run pair _ (by decide)

/-- While app 0 is halted, app 1 is launched, and its launch is forgotten; or client 11 goes away, and its entry comes
back; or app 1 is halted too, and what the first halt keeps comes back. -/
theorem update_lost :
    ¬ Always step Settled (start pair : Launches ℕ ℕ ℕ ℕ)
        [.append 10 0 0, .scan 0, .append 11 1 0, .call 0, .assign 0] ∧
      ¬ Always step Settled (start pair : Launches ℕ ℕ ℕ ℕ)
        [.append 10 0 0, .append 11 1 0, .scan 0, .delClient 1, .call 0, .assign 0] ∧
      ¬ Always step Settled (start pair : Launches ℕ ℕ ℕ ℕ)
        [.append 10 0 0, .append 11 1 0, .scan 0, .scan 1, .call 1, .assign 1, .call 0, .assign 0] := by
  refine ⟨fun h => ?_, fun h => ?_, fun h => ?_⟩
  · have hlast := h.last rfl
    revert hlast
    decide
  · have hlast := h.last rfl
    revert hlast
    decide
  · have hlast := h.last rfl
    revert hlast
    decide

end Launches

end Riaps.Control
