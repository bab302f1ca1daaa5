import Riaps.Discovery.Registrations

/-!
# The tables of one actor

What the server keeps of an actor, its registrations, its enrollments and
whether it is a device, depends on the requests of that actor only, whatever
the others do in between. `viewStep` is what a request of the actor changes, and
`ownView_run` says that a run changes what the actor's own requests change.
-/

namespace Riaps.Discovery

open Riaps.Foundation

/-- The key of the actor that a request is of. -/
def DiscoReq.actorKey : DiscoReq → Text
  | .actorReg appName _ actorName _ | .actorUnreg appName _ actorName => DiscoService.appActorName appName actorName
  | .serviceReg path _ | .serviceUnreg path _ => DiscoService.appActorName path.appName path.actorName
  | .serviceLookup path client | .serviceUnlookup path client =>
    DiscoService.appActorName path.appName client.actorName

namespace DiscoService

/-- The request of an event, if it is of the actor with the key. -/
def ownReq (actorKey : Text) : Event → Option DiscoReq
  | .request req _ => if req.actorKey = actorKey then some req else none
  | .timeout | .dhtValueCallback .. | .dhtRepublish _ => none

/-- What the server keeps of an actor. -/
@[ext] structure View where
  registered : Option (List (Text × Text))
  enrolled : Option (List (Text × Text))
  isDevice : Bool
  deriving DecidableEq

/-- That of the actor with the key. -/
def view (actorKey : Text) (s : DiscoService) : View where
  registered := s.registrations.get? actorKey
  enrolled := s.enrollments.get? actorKey
  isDevice := '/' :: (actorKey ++ ['/']) ∈ s.devices

/-- A server that knows of one actor whether it is a device, and nothing else. -/
def solo (appName actorName : Text) (isDevice : Bool) : DiscoService :=
  { init with devices := if isDevice then [clientKeyBase appName actorName] else [] }

variable (host : Host)

/-- What a request of the actor changes; `none` if it cannot be served. The removal of the actor is left
out. -/
def viewStep (v : View) : DiscoReq → Option View
  | .actorReg _ _ _ isDevice => some ⟨some [], some [], v.isDevice || isDevice⟩
  | .actorUnreg .. => none
  | .serviceReg path socket =>
    match (solo path.appName path.actorName v.isDevice).buildInsertKeyValuePair host path socket, v.registered with
    | .ok p, some registered => some { v with registered := some (registered.insert p) }
    | _, _ => none
  | .serviceUnreg path socket =>
    match (solo path.appName path.actorName v.isDevice).buildInsertKeyValuePair host path socket, v.registered with
    | .ok p, some registered => some { v with registered := some (registered.filter (· ≠ p)) }
    | _, _ => none
  | .serviceLookup path client =>
    match (solo path.appName client.actorName v.isDevice).buildLookupKey host path client, v.enrolled with
    | .ok p, some enrolled => some { v with enrolled := some (enrolled.insert p) }
    | _, _ => none
  | .serviceUnlookup path client =>
    match (solo path.appName client.actorName v.isDevice).buildLookupKey host path client, v.enrolled with
    | .ok p, some enrolled => some { v with enrolled := some (enrolled.filter (· ≠ p)) }
    | _, _ => none

variable {host} {s : DiscoService}

/-! ### Keys -/

@[simp] theorem isDeviceName_solo (appName actorName : Text) (isDevice : Bool) :
    (solo appName actorName isDevice).isDeviceName appName actorName = isDevice := by
  cases isDevice <;> simp [solo, isDeviceName, init]

theorem isDeviceName_eq_view (appName actorName : Text) (s : DiscoService) :
    s.isDeviceName appName actorName = (s.view (appActorName appName actorName)).isDevice := by
  rw [isDeviceName, view, clientKeyBase_eq]

/-- A key depends on the state as far as it says whether the actor is a device. -/
theorem buildKey_congr {s' : DiscoService} {appName actorName : Text}
    (h : s.isDeviceName appName actorName = s'.isDeviceName appName actorName) (msgType : Text) (kind : Kind)
    (scope : Scope) :
    s.buildKey host appName actorName msgType kind scope = s'.buildKey host appName actorName msgType kind scope := by
  unfold buildKey ownerName
  rw [h]

theorem buildInsertKeyValuePair_solo (path : Path) (socket : Socket) :
    (solo path.appName path.actorName
      (s.view (appActorName path.appName path.actorName)).isDevice).buildInsertKeyValuePair
      host path socket = s.buildInsertKeyValuePair host path socket := by
  unfold buildInsertKeyValuePair
  rw [buildKey_congr]
  rw [isDeviceName_solo, isDeviceName_eq_view]

theorem buildLookupKey_solo (path : Path) (client : Client) :
    (solo path.appName client.actorName (s.view (appActorName path.appName client.actorName)).isDevice).buildLookupKey
      host path client = s.buildLookupKey host path client := by
  unfold buildLookupKey
  split
  · rfl
  · rw [buildKey_congr]
    rw [isDeviceName_solo, isDeviceName_eq_view]

/-! ### Updates -/

theorem devices_foldl {α : Type*} {f : DiscoService → α → DiscoService} (hf : ∀ s a, (f s a).devices = s.devices)
    (l : List α) (s : DiscoService) : (l.foldl f s).devices = s.devices := by
  induction l generalizing s with
  | nil => rfl
  | cons a l ih => exact (ih _).trans (hf s a)

theorem devices_handleUpdate (host : Host) (s : DiscoService) (u : Text × Text × List Text) :
    (handleUpdate host s u).devices = s.devices := by
  unfold handleUpdate
  split_ifs
  · split
    · refine devices_foldl (fun t c => ?_) _ s
      unfold updateClient
      split_ifs
      · split
        · rfl
        · split
          · rfl
          · split_ifs
            · rfl
            · split <;> rfl
      · rfl
    · rfl
  · rfl

/-- Updates leave what is kept of the actors. -/
theorem view_handleUpdates (actorKey : Text) (us : List (Text × Text × List Text)) (s : DiscoService) :
    (us.foldl (handleUpdate host) s).view actorKey = s.view actorKey := by
  have hupd : Updates s (us.foldl (handleUpdate host) s) := .foldl (updates_handleUpdate host) us s
  have hdevices := devices_foldl (devices_handleUpdate host) us s
  simp only [view, hupd.registrations, hupd.enrollments, hdevices]

/-! ### Requests -/

theorem view_setupClient (actorKey appName actorName : Text) (isDevice : Bool) (port : ℕ) (s : DiscoService) :
    (s.setupClient host appName actorName isDevice port).view actorKey =
      if actorKey = appActorName appName actorName then
        ⟨some [], some [], (s.view actorKey).isDevice || isDevice⟩
      else s.view actorKey := by
  unfold view setupClient
  simp only [Dict.get?_set]
  by_cases hkey : actorKey = appActorName appName actorName
  · subst hkey
    simp only [if_true, ← clientKeyBase_eq]
    cases isDevice <;> simp
  · have hbase : '/' :: (actorKey ++ ['/']) ≠ clientKeyBase appName actorName := by
      rw [clientKeyBase_eq]
      simpa using hkey
    simp only [if_neg hkey]
    cases isDevice <;> simp [hbase]

/-- A request of another actor. -/
theorem view_handle_of_ne {dht : Dht} {req : DiscoReq} {port : ℕ} {actorKey : Text} (hkey : actorKey ≠ req.actorKey)
    (hexc : (handle host dht req port s).exc = none) :
    (handle host dht req port s).view actorKey = s.view actorKey := by
  cases req with
  | actorReg appName version actorName isDevice =>
    exact (@view_setupClient host actorKey appName actorName isDevice port s).trans (if_neg hkey)
  | actorUnreg appName version actorName =>
    replace hexc : (s.handleActorUnreg host dht appName actorName).exc = none := hexc
    change (s.handleActorUnreg host dht appName actorName).view actorKey = _
    unfold handleActorUnreg at hexc ⊢
    dsimp only at hexc ⊢
    have hs : (s.unsetupClient host dht appName actorName).1.exc = none := by
      by_contra hne
      rw [if_neg hne] at hexc
      exact hne hexc
    rw [if_pos hs]
    change (s.unsetupClient host dht appName actorName).1.view actorKey = _
    rcases unsetupClient_cases hs with ⟨-, heq⟩ | ⟨-, heq⟩
    · rw [heq]
    · have hbase : '/' :: (actorKey ++ ['/']) ≠ clientKeyBase appName actorName := by
        rw [clientKeyBase_eq]
        simpa [DiscoReq.actorKey] using hkey
      replace hkey : actorKey ≠ appActorName appName actorName := hkey
      rw [heq]
      unfold view
      simp only [Dict.get?_del, if_neg hkey, List.mem_filter, hbase, ne_eq, not_false_eq_true, decide_true, and_true]
  | serviceReg path socket =>
    obtain ⟨key, registered, -, -, heq⟩ := handleServiceReg_cases hexc
    replace hkey : actorKey ≠ appActorName path.appName path.actorName := hkey
    rw [handle, heq]
    simp only [view, Dict.get?_set_of_ne _ _ hkey]
  | serviceLookup path client =>
    obtain ⟨key, values, enrolled, sockets, -, -, -, -, heq⟩ := handleServiceLookup_cases hexc
    replace hkey : actorKey ≠ appActorName path.appName client.actorName := hkey
    rw [handle, heq]
    simp only [view, Dict.get?_set_of_ne _ _ hkey]
  | serviceUnreg path socket =>
    obtain ⟨key, registered, -, -, heq⟩ := handleServiceUnreg_cases hexc
    replace hkey : actorKey ≠ appActorName path.appName path.actorName := hkey
    rw [handle, heq]
    simp only [view, Dict.get?_set_of_ne _ _ hkey]
  | serviceUnlookup path client =>
    obtain ⟨key, enrolled, -, -, heq⟩ := handleServiceUnlookup_cases hexc
    replace hkey : actorKey ≠ appActorName path.appName client.actorName := hkey
    rw [handle, heq]
    simp only [view, Dict.get?_set_of_ne _ _ hkey]

/-- A request that does not remove its actor. -/
def DiscoReq.Keeps : DiscoReq → Prop
  | .actorUnreg .. => False
  | _ => True

/-- A request of the actor itself. -/
theorem viewStep_handle {dht : Dht} {req : DiscoReq} {port : ℕ} (hkeeps : DiscoReq.Keeps req)
    (hexc : (handle host dht req port s).exc = none) :
    viewStep host (s.view req.actorKey) req = some ((handle host dht req port s).view req.actorKey) := by
  cases req with
  | actorReg appName version actorName isDevice =>
    have hview := @view_setupClient host (appActorName appName actorName) appName actorName isDevice port s
    rw [if_pos rfl] at hview
    exact congrArg some hview.symm
  | actorUnreg appName version actorName => exact hkeeps.elim
  | serviceReg path socket =>
    obtain ⟨key, registered, hbuild, hreg, heq⟩ := handleServiceReg_cases hexc
    rw [handle, heq]
    simp only [viewStep, DiscoReq.actorKey, buildInsertKeyValuePair_solo, hbuild]
    simp only [view, hreg, Dict.get?_set_self]
  | serviceLookup path client =>
    obtain ⟨key, values, enrolled, sockets, hbuild, -, henr, -, heq⟩ := handleServiceLookup_cases hexc
    rw [handle, heq]
    simp only [viewStep, DiscoReq.actorKey, buildLookupKey_solo, hbuild]
    simp only [view, henr, Dict.get?_set_self]
  | serviceUnreg path socket =>
    obtain ⟨key, registered, hbuild, hreg, heq⟩ := handleServiceUnreg_cases hexc
    rw [handle, heq]
    simp only [viewStep, DiscoReq.actorKey, buildInsertKeyValuePair_solo, hbuild]
    simp only [view, hreg, Dict.get?_set_self]
  | serviceUnlookup path client =>
    obtain ⟨key, enrolled, hbuild, henr, heq⟩ := handleServiceUnlookup_cases hexc
    rw [handle, heq]
    simp only [viewStep, DiscoReq.actorKey, buildLookupKey_solo, hbuild]
    simp only [view, henr, Dict.get?_set_self]

/-! ### Runs -/

theorem exc_of_run {dht : Dht} {events : List Event} (hexc : (run (step host dht) s events).exc = none) :
    s.exc = none := by
  induction events generalizing s with
  | nil => exact hexc
  | cons e events ih => exact exc_of_step (ih hexc)

/-- **What is kept of an actor** after a run without an exception is what its own requests make of it. -/
theorem view_run (host : Host) (dht : Dht) (actorKey : Text) {s : DiscoService} {events : List Event}
    (hexc : (run (step host dht) s events).exc = none)
    (hkeeps : ∀ req ∈ events.filterMap (ownReq actorKey), DiscoReq.Keeps req) :
    (events.filterMap (ownReq actorKey)).foldlM (viewStep host) (s.view actorKey) =
      some ((run (step host dht) s events).view actorKey) := by
  have hall : AllSteps (step host dht)
      (fun t e => (step host dht t e).exc = none ∧ ∀ req, ownReq actorKey e = some req → DiscoReq.Keeps req)
      s events := by
    intro pre e hpre
    obtain ⟨post, rfl⟩ := hpre
    refine ⟨?_, fun req hreq => hkeeps req ?_⟩
    · rw [run_append] at hexc
      have hbefore := exc_of_run hexc
      rwa [run_append, run_cons, run_nil] at hbefore
    · exact List.mem_filterMap.mpr ⟨e, by simp, hreq⟩
  refine hall.view (fun t e req hc hown => ?_) fun t e hc hown => ?_
  · obtain ⟨hexc, hkeeps⟩ := hc
    have hrun := exc_of_step hexc
    cases e with
    | request r port =>
      obtain ⟨rfl, rfl⟩ : r.actorKey = actorKey ∧ r = req := by simpa [ownReq] using hown
      simp only [step, if_pos hrun] at hexc ⊢
      rw [view_handleUpdates]
      have hhandled := (Updates.foldl (updates_handleUpdate host) _ _).exc hexc
      exact viewStep_handle (s := { t with clientUpdates := [] }) (hkeeps r hown) hhandled
    | timeout => simp [ownReq] at hown
    | dhtValueCallback key value expired => simp [ownReq] at hown
    | dhtRepublish event => simp [ownReq] at hown
  · obtain ⟨hexc, -⟩ := hc
    have hrun := exc_of_step hexc
    cases e with
    | request r port =>
      have hkey : actorKey ≠ r.actorKey := by
        rintro rfl
        simp [ownReq] at hown
      simp only [step, if_pos hrun] at hexc ⊢
      rw [view_handleUpdates]
      have hhandled := (Updates.foldl (updates_handleUpdate host) _ _).exc hexc
      exact view_handle_of_ne (s := { t with clientUpdates := [] }) hkey hhandled
    | timeout =>
      simp only [step, if_pos hrun]
      rw [view_handleUpdates]
      rfl
    | dhtValueCallback key value expired =>
      simp only [step]
      split_ifs <;> rfl
    | dhtRepublish event => rfl

end DiscoService

end Riaps.Discovery
