import Riaps.Foundation.Histories
import Riaps.Discovery.Providers

/-!
# What an actor leaves behind

An actor that is removed should leave nothing in the database: each service that
it registered is removed, by its own request or with the actor, and each of its
clients detached. The calls of the database that the requests of a run make are
its history, and `Clean` says of a history that nothing of the actor is left.

The server keeps two tables of what each actor has. They are complete as long as
no actor registers anew with something in them: `setupClient` empties them
(`StartsEmpty`). Then nothing is left behind: `clean_run`.
-/

namespace Riaps.Discovery

open Riaps.Foundation

namespace DiscoService

/-! ### Calls of the database -/

/-- A call of the database by a request; where it is made for an actor, with the actor's key. -/
inductive Call where
  | insert (actorKey key value : Text)
  | fetch (actorKey key client : Text)
  | remove (key value : Text)
  | detach (key client : Text)
  deriving DecidableEq

/-- The call. -/
def Call.apply (dht : Dht) (d : DhtDbase) : Call → DhtDbase
  | .insert _ key value => (d.insert dht key value).1
  | .fetch _ key client => (d.fetch dht key client).1
  | .remove key value => (d.remove dht key value).1
  | .detach key client => d.detach key client

variable (host : Host)

/-- The calls that `unsetupClient` makes. -/
def unsetupCalls (appName actorName : Text) (s : DiscoService) : List Call :=
  match s.clients.get? (clientKeyBase appName actorName),
    s.clients.get? (clientKeyBase appName actorName ++ host.macAddress),
    s.clients.get? (clientKeyBase appName actorName ++ host.hostAddress) with
  | some (.sock _), some (.port _), some _ =>
    (((s.registrations.get? (appActorName appName actorName)).getD []).map fun p => .remove p.1 p.2) ++
      ((s.enrollments.get? (appActorName appName actorName)).getD []).map fun p => .detach p.1 p.2
  | _, _, _ => []

/-- The calls that a request makes. -/
def calls (s : DiscoService) : DiscoReq → List Call
  | .actorReg .. => []
  | .actorUnreg appName _ actorName => s.unsetupCalls host appName actorName
  | .serviceReg path socket =>
    match s.buildInsertKeyValuePair host path socket with
    | .ok (key, value) => [.insert (appActorName path.appName path.actorName) key value]
    | .error _ => []
  | .serviceUnreg path socket =>
    match s.buildInsertKeyValuePair host path socket with
    | .ok (key, value) => [.remove key value]
    | .error _ => []
  | .serviceLookup path client =>
    match s.buildLookupKey host path client with
    | .ok (key, c) => [.fetch (appActorName path.appName client.actorName) key c]
    | .error _ => []
  | .serviceUnlookup path client =>
    match s.buildLookupKey host path client with
    | .ok (key, c) => [.detach key c]
    | .error _ => []

/-- The calls of an event, for a request. -/
def eventCalls (s : DiscoService) : Event → List Call
  | .request req _ => if s.exc = none then s.calls host req else []
  | .timeout | .dhtValueCallback .. | .dhtRepublish _ => []

/-- The calls of a run, in order. -/
def history (dht : Dht) (events : List Event) : List Call :=
  collect (step host dht) (eventCalls host) init events

theorem foldl_removeCalls (dht : Dht) (pairs : List (Text × Text)) (d : DhtDbase) :
    (pairs.map fun p => Call.remove p.1 p.2).foldl (Call.apply dht) d = removeAll dht pairs d := by
  rw [List.foldl_map]
  rfl

theorem foldl_detachCalls (dht : Dht) (pairs : List (Text × Text)) (d : DhtDbase) :
    (pairs.map fun p => Call.detach p.1 p.2).foldl (Call.apply dht) d = detachAll pairs d := by
  rw [List.foldl_map]
  rfl

theorem unsetupClient_dbase (dht : Dht) (appName actorName : Text) (s : DiscoService) :
    (s.unsetupClient host dht appName actorName).1.dbase =
      (s.unsetupCalls host appName actorName).foldl (Call.apply dht) s.dbase := by
  unfold unsetupClient unsetupCalls
  dsimp only
  split
  · simp [*]
  · simp [*, fail]
  · simp [*, fail]
  · simp only [*, List.foldl_append, foldl_removeCalls, foldl_detachCalls]
    split_ifs <;> rfl
  · split
    · rename_i hkind hbase hmac hhost _ _ _ sock port _ hbase' hmac' hhost'
      exact (hkind sock port (Option.some.inj (hbase.symm.trans hbase')) (Option.some.inj (hmac.symm.trans hmac'))).elim
    · rfl

/-- **The calls are what a request does to the database.** -/
theorem handle_dbase (dht : Dht) (req : DiscoReq) (port : ℕ) (s : DiscoService) :
    (handle host dht req port s).dbase = (s.calls host req).foldl (Call.apply dht) s.dbase := by
  cases req with
  | actorReg appName version actorName isDevice => rfl
  | actorUnreg appName version actorName =>
    rw [calls, ← unsetupClient_dbase]
    simp only [handle, handleActorUnreg]
    split_ifs <;> rfl
  | serviceReg path socket =>
    simp only [handle, handleServiceReg, calls]
    cases s.buildInsertKeyValuePair host path socket with
    | error e => rfl
    | ok p =>
      dsimp only
      split
      · rfl
      · split_ifs <;> rfl
  | serviceLookup path client =>
    simp only [handle, handleServiceLookup, calls]
    cases s.buildLookupKey host path client with
    | error e => rfl
    | ok p =>
      dsimp only
      split
      · rfl
      · split
        · rfl
        · split <;> rfl
  | serviceUnreg path socket =>
    simp only [handle, handleServiceUnreg, calls]
    cases s.buildInsertKeyValuePair host path socket with
    | error e => rfl
    | ok p =>
      dsimp only
      split <;> rfl
  | serviceUnlookup path client =>
    simp only [handle, handleServiceUnlookup, calls]
    cases s.buildLookupKey host path client with
    | error e => rfl
    | ok p =>
      dsimp only
      split <;> rfl

/-! ### What is left -/

/-- The call registers the pair for the actor. -/
def Inserts (actorKey : Text) (p : Text × Text) (c : Call) : Prop := c = .insert actorKey p.1 p.2

/-- The call removes the pair. -/
def Removes (p : Text × Text) (c : Call) : Prop := c = .remove p.1 p.2

/-- The call enrols the client for the actor. -/
def Enrols (actorKey : Text) (p : Text × Text) (c : Call) : Prop := c = .fetch actorKey p.1 p.2

/-- The call detaches the client. -/
def Detaches (p : Text × Text) (c : Call) : Prop := c = .detach p.1 p.2

/-- Nothing is left of an actor: each pair that it registered was removed after that, and each client that
it enrolled was detached. -/
def Clean (actorKey : Text) (history : List Call) : Prop :=
  ∀ p, ¬ IsOpen (Inserts actorKey p) (Removes p) history ∧ ¬ IsOpen (Enrols actorKey p) (Detaches p) history

/-- An actor that registers has nothing in its tables. -/
def StartsEmpty (s : DiscoService) : Event → Prop
  | .request (.actorReg appName _ actorName _) _ =>
    (s.registrations.get? (appActorName appName actorName)).getD [] = [] ∧
      (s.enrollments.get? (appActorName appName actorName)).getD [] = []
  | _ => True

instance (s : DiscoService) : ∀ e : Event, Decidable (StartsEmpty s e)
  | .request (.actorReg ..) _ => inferInstanceAs (Decidable (_ ∧ _))
  | .request (.actorUnreg ..) _ | .request (.serviceReg ..) _ | .request (.serviceLookup ..) _
  | .request (.serviceUnreg ..) _ | .request (.serviceUnlookup ..) _ | .timeout | .dhtValueCallback ..
  | .dhtRepublish _ => isTrue trivial

/-- The tables have what the actors left, and an actor that has tables is a client. -/
structure Recorded (s : DiscoService) (history : List Call) : Prop where
  registered : Tracks Inserts Removes s.registrations history
  enrolled : Tracks Enrols Detaches s.enrollments history
  client : ∀ actorKey, actorKey ∈ s.registrations ∨ actorKey ∈ s.enrollments →
    '/' :: (actorKey ++ ['/']) ∈ s.clients

variable {host} {s : DiscoService} {l : List Call}

theorem recorded_init : Recorded init [] :=
  ⟨tracks_nil _, tracks_nil _, fun actorKey h => by simp [init] at h⟩

/-- A step that leaves the tables. -/
theorem Recorded.of_eq {s' : DiscoService} (h : Recorded s l) (hreg : s'.registrations = s.registrations)
    (henr : s'.enrollments = s.enrollments) (hclients : s'.clients = s.clients) : Recorded s' l := by
  refine ⟨?_, ?_, ?_⟩
  · rw [hreg]
    exact h.registered
  · rw [henr]
    exact h.enrolled
  · rw [hreg, henr, hclients]
    exact h.client

theorem Recorded.handleActorReg (h : Recorded s l) {appName actorName : Text} (isDevice : Bool) (port : ℕ)
    (hreg : (s.registrations.get? (appActorName appName actorName)).getD [] = [])
    (henr : (s.enrollments.get? (appActorName appName actorName)).getD [] = []) :
    Recorded (s.handleActorReg host appName actorName isDevice port) (l ++ []) where
  registered := h.registered.append (by simp) fun k p hp _ => by
    change p ∈ ((s.registrations.set _ _).get? k).getD []
    rw [Dict.get?_set]
    split_ifs with hk
    · rw [hk, hreg] at hp
      exact hp
    · exact hp
  enrolled := h.enrolled.append (by simp) fun k p hp _ => by
    change p ∈ ((s.enrollments.set _ _).get? k).getD []
    rw [Dict.get?_set]
    split_ifs with hk
    · rw [hk, henr] at hp
      exact hp
    · exact hp
  client actorKey hkey := by
    change actorKey ∈ s.registrations.set _ _ ∨ actorKey ∈ s.enrollments.set _ _ at hkey
    change _ ∈ ((((s.clients.set _ _).set _ _).set _ _).set _ _ : Dict Text Entry)
    simp only [Dict.mem_set] at hkey ⊢
    have hold := h.client actorKey
    rcases hkey with (rfl | hkey) | rfl | hkey
    · simp [clientKeyBase_eq]
    · exact Or.inr (Or.inr (Or.inr (Or.inr (hold (Or.inl hkey)))))
    · simp [clientKeyBase_eq]
    · exact Or.inr (Or.inr (Or.inr (Or.inr (hold (Or.inr hkey)))))

theorem Recorded.handleServiceReg (h : Recorded s l) (dht : Dht) {path : Path} {socket : Socket}
    (hexc : (s.handleServiceReg host dht path socket).exc = none) :
    Recorded (s.handleServiceReg host dht path socket) (l ++ s.calls host (.serviceReg path socket)) := by
  obtain ⟨key, registered, hbuild, hreg, heq⟩ := handleServiceReg_cases hexc
  rw [heq]
  simp only [calls, hbuild]
  refine ⟨h.registered.concat hreg ?_, h.enrolled.append ?_ fun k p hp _ => hp, ?_⟩
  · intro k p hp
    obtain ⟨rfl, hkey, hvalue⟩ := Call.insert.inj hp
    exact ⟨rfl, Prod.ext hkey.symm hvalue.symm⟩
  · simp [Enrols]
  · intro actorKey hkey
    exact h.client actorKey (hkey.imp_left (Dict.mem_of_mem_set (Dict.mem_of_get? hreg)))

theorem Recorded.handleServiceUnreg (h : Recorded s l) (dht : Dht) {path : Path} {socket : Socket}
    (hexc : (s.handleServiceUnreg host dht path socket).exc = none) :
    Recorded (s.handleServiceUnreg host dht path socket) (l ++ s.calls host (.serviceUnreg path socket)) := by
  obtain ⟨key, registered, hbuild, hreg, heq⟩ := handleServiceUnreg_cases hexc
  rw [heq]
  simp only [calls, hbuild]
  refine ⟨h.registered.append ?_ fun k p hp hclose => ?_, h.enrolled.append ?_ fun k p hp _ => hp, ?_⟩
  · simp [Inserts]
  · dsimp only
    rw [Dict.get?_set]
    split_ifs with hk
    · rw [hk, hreg] at hp
      refine List.mem_filter.mpr ⟨hp, decide_eq_true fun he => ?_⟩
      exact hclose _ (List.mem_singleton_self _) (by rw [Removes, he])
    · exact hp
  · simp [Enrols]
  · intro actorKey hkey
    exact h.client actorKey (hkey.imp_left (Dict.mem_of_mem_set (Dict.mem_of_get? hreg)))

theorem Recorded.handleServiceLookup (h : Recorded s l) (dht : Dht) {path : Path} {client : Client}
    (hexc : (s.handleServiceLookup host dht path client).exc = none) :
    Recorded (s.handleServiceLookup host dht path client) (l ++ s.calls host (.serviceLookup path client)) := by
  obtain ⟨key, values, enrolled, sockets, hbuild, -, henr, -, heq⟩ := handleServiceLookup_cases hexc
  rw [heq]
  simp only [calls, hbuild]
  refine ⟨h.registered.append ?_ fun k p hp _ => hp, h.enrolled.concat henr ?_, ?_⟩
  · simp [Inserts]
  · intro k p hp
    obtain ⟨rfl, hkey, hclient⟩ := Call.fetch.inj hp
    exact ⟨rfl, Prod.ext hkey.symm hclient.symm⟩
  · intro actorKey hkey
    exact h.client actorKey (hkey.imp_right (Dict.mem_of_mem_set (Dict.mem_of_get? henr)))

theorem Recorded.handleServiceUnlookup (h : Recorded s l) {path : Path} {client : Client}
    (hexc : (s.handleServiceUnlookup host path client).exc = none) :
    Recorded (s.handleServiceUnlookup host path client) (l ++ s.calls host (.serviceUnlookup path client)) := by
  obtain ⟨key, enrolled, hbuild, henr, heq⟩ := handleServiceUnlookup_cases hexc
  rw [heq]
  simp only [calls, hbuild]
  refine ⟨h.registered.append ?_ fun k p hp _ => hp, h.enrolled.append ?_ fun k p hp hclose => ?_, ?_⟩
  · simp [Inserts]
  · simp [Enrols]
  · dsimp only
    rw [Dict.get?_set]
    split_ifs with hk
    · rw [hk, henr] at hp
      refine List.mem_filter.mpr ⟨hp, decide_eq_true fun he => ?_⟩
      exact hclose _ (List.mem_singleton_self _) (by rw [Detaches, he])
    · exact hp
  · intro actorKey hkey
    exact h.client actorKey (hkey.imp_right (Dict.mem_of_mem_set (Dict.mem_of_get? henr)))

/-- What is removed with an actor. -/
theorem Recorded.unsetupClient (h : Recorded s l) (dht : Dht) {appName actorName : Text}
    (hexc : (s.unsetupClient host dht appName actorName).1.exc = none) :
    Recorded (s.unsetupClient host dht appName actorName).1 (l ++ s.unsetupCalls host appName actorName) ∧
      appActorName appName actorName ∉ (s.unsetupClient host dht appName actorName).1.registrations ∧
      appActorName appName actorName ∉ (s.unsetupClient host dht appName actorName).1.enrollments := by
  rcases unsetupClient_cases hexc with ⟨hbase, heq⟩ | ⟨⟨sock, port, entry, hbase, hmac, hhost⟩, heq⟩
  · have hno : '/' :: (appActorName appName actorName ++ ['/']) ∉ s.clients := by
      rw [← clientKeyBase_eq]
      exact Dict.get?_eq_none_iff.mp hbase
    have hcalls : s.unsetupCalls host appName actorName = [] := by simp [unsetupCalls, hbase]
    rw [heq, hcalls, List.append_nil]
    exact ⟨h, fun hreg => hno (h.client _ (Or.inl hreg)), fun henr => hno (h.client _ (Or.inr henr))⟩
  · have hcalls : s.unsetupCalls host appName actorName =
        (((s.registrations.get? (appActorName appName actorName)).getD []).map fun p => Call.remove p.1 p.2) ++
          ((s.enrollments.get? (appActorName appName actorName)).getD []).map fun p => Call.detach p.1 p.2 := by
      simp [unsetupCalls, hbase, hmac, hhost]
    have hopens : ∀ b ∈ s.unsetupCalls host appName actorName, ∀ k p, ¬ Inserts k p b ∧ ¬ Enrols k p b := by
      rw [hcalls]
      intro b hb k p
      rcases List.mem_append.mp hb with hb | hb
      · obtain ⟨q, -, rfl⟩ := List.mem_map.mp hb
        simp [Inserts, Enrols]
      · obtain ⟨q, -, rfl⟩ := List.mem_map.mp hb
        simp [Inserts, Enrols]
    rw [heq]
    refine ⟨⟨h.registered.append (fun b hb k p => (hopens b hb k p).1) fun k p hp hclose => ?_,
      h.enrolled.append (fun b hb k p => (hopens b hb k p).2) fun k p hp hclose => ?_, fun actorKey hkey => ?_⟩, ?_, ?_⟩
    · rw [hcalls] at hclose
      dsimp only
      rw [Dict.get?_del]
      split_ifs with hk
      · refine absurd rfl (hclose (.remove p.1 p.2) (List.mem_append_left _ (List.mem_map.mpr ⟨p, ?_, rfl⟩)))
        exact hk ▸ hp
      · exact hp
    · rw [hcalls] at hclose
      dsimp only
      rw [Dict.get?_del]
      split_ifs with hk
      · refine absurd rfl (hclose (.detach p.1 p.2) (List.mem_append_right _ (List.mem_map.mpr ⟨p, ?_, rfl⟩)))
        exact hk ▸ hp
      · exact hp
    · dsimp only at hkey ⊢
      simp only [Dict.mem_del] at hkey
      rw [Dict.mem_delAll]
      have hne : actorKey ≠ appActorName appName actorName := hkey.elim And.right And.right
      refine ⟨h.client actorKey (hkey.imp And.left And.left), ?_⟩
      simp only [List.mem_cons, List.not_mem_nil, or_false, not_or]
      refine ⟨?_, ne_append_of_notMem host.macAddress_ne host.slash_macAddress,
        ne_append_of_notMem host.hostAddress_ne host.slash_hostAddress⟩
      rw [clientKeyBase_eq]
      simpa using hne
    · simp [Dict.mem_del]
    · simp [Dict.mem_del]

theorem Recorded.handleActorUnreg (h : Recorded s l) (dht : Dht) {appName actorName : Text}
    (hexc : (s.handleActorUnreg host dht appName actorName).exc = none) :
    Recorded (s.handleActorUnreg host dht appName actorName) (l ++ s.unsetupCalls host appName actorName) ∧
      appActorName appName actorName ∉ (s.handleActorUnreg host dht appName actorName).registrations ∧
      appActorName appName actorName ∉ (s.handleActorUnreg host dht appName actorName).enrollments := by
  unfold DiscoService.handleActorUnreg at hexc ⊢
  dsimp only at hexc ⊢
  have hs : (s.unsetupClient host dht appName actorName).1.exc = none := by
    by_contra hne
    rw [if_neg hne] at hexc
    exact hne hexc
  rw [if_pos hs]
  obtain ⟨hrec, hreg, henr⟩ := h.unsetupClient dht hs
  exact ⟨hrec.of_eq rfl rfl rfl, hreg, henr⟩

theorem Recorded.handle (h : Recorded s l) (dht : Dht) {req : DiscoReq} {port : ℕ}
    (hempty : StartsEmpty s (.request req port)) (hexc : (handle host dht req port s).exc = none) :
    Recorded (handle host dht req port s) (l ++ s.calls host req) := by
  cases req with
  | actorReg appName version actorName isDevice => exact h.handleActorReg isDevice port hempty.1 hempty.2
  | actorUnreg appName version actorName => exact (h.handleActorUnreg dht hexc).1
  | serviceReg path socket => exact h.handleServiceReg dht hexc
  | serviceLookup path client => exact h.handleServiceLookup dht hexc
  | serviceUnreg path socket => exact h.handleServiceUnreg dht hexc
  | serviceUnlookup path client => exact h.handleServiceUnlookup hexc

/-! ### Runs -/

/-- The updates after a request leave the tables. -/
theorem Recorded.of_updates {s' : DiscoService} (h : Recorded s l) (hupd : Updates s s') : Recorded s' l :=
  h.of_eq hupd.registrations hupd.enrollments hupd.clients

theorem Recorded.step (h : Recorded s l) (dht : Dht) {e : Event} (hempty : StartsEmpty s e)
    (hexc : (step host dht s e).exc = none) : Recorded (step host dht s e) (l ++ s.eventCalls host e) := by
  have hrun : s.exc = none := exc_of_step hexc
  cases e with
  | request req port =>
    simp only [DiscoService.step, eventCalls, if_pos hrun] at hexc ⊢
    have hhandled := (Updates.foldl (updates_handleUpdate host) _ _).exc hexc
    have hstart : Recorded { s with clientUpdates := [] } l := h.of_eq rfl rfl rfl
    have hreq := hstart.handle dht (by cases req <;> exact hempty) hhandled
    exact Recorded.of_updates (by cases req <;> exact hreq) (.foldl (updates_handleUpdate host) _ _)
  | timeout =>
    simp only [DiscoService.step, eventCalls, if_pos hrun, List.append_nil]
    have hstart : Recorded { s with dbase := s.dbase.fetchUpdates.1, clientUpdates := s.dbase.fetchUpdates.2 } l :=
      h.of_eq rfl rfl rfl
    exact hstart.of_updates (.foldl (updates_handleUpdate host) _ _)
  | dhtValueCallback key value expired =>
    simp only [DiscoService.step, eventCalls, List.append_nil]
    split_ifs
    · exact h.of_eq rfl rfl rfl
    · exact h
  | dhtRepublish event =>
    simp only [DiscoService.step, eventCalls, List.append_nil]
    exact h.of_eq rfl rfl rfl

/-- The tables have no entry for an actor that was removed. -/
theorem Recorded.notMem_of_actorUnreg (h : Recorded s l) (dht : Dht) {appName version actorName : Text} {port : ℕ}
    (hexc : (DiscoService.step host dht s (.request (.actorUnreg appName version actorName) port)).exc = none) :
    appActorName appName actorName ∉
        (DiscoService.step host dht s (.request (.actorUnreg appName version actorName) port)).registrations ∧
      appActorName appName actorName ∉
        (DiscoService.step host dht s (.request (.actorUnreg appName version actorName) port)).enrollments := by
  have hrun := exc_of_step hexc
  simp only [DiscoService.step, if_pos hrun, DiscoService.handle] at hexc ⊢
  have hstart : Recorded { s with clientUpdates := [] } l := h.of_eq rfl rfl rfl
  have hupd := Updates.foldl (updates_handleUpdate host)
    (DiscoService.handleActorUnreg host dht appName actorName { s with clientUpdates := [] }).clientUpdates
    (DiscoService.handleActorUnreg host dht appName actorName { s with clientUpdates := [] })
  obtain ⟨-, hreg, henr⟩ := hstart.handleActorUnreg dht (hupd.exc hexc)
  rw [hupd.registrations, hupd.enrollments]
  exact ⟨hreg, henr⟩

theorem recorded_run (dht : Dht) {events : List Event} (hempty : AllSteps (step host dht) StartsEmpty init events)
    (hexc : (run (step host dht) init events).exc = none) :
    Recorded (run (step host dht) init events) (history host dht events) :=
  hempty.inv_collect (step host dht) (eventCalls host) (I := fun s l => s.exc = none → Recorded s l) (l := [])
    (fun _ _ _ hs ho hexc => (hs (exc_of_step hexc)).step dht ho hexc) (fun _ => recorded_init) hexc

/-- **Nothing is left of an actor that is removed**, if no actor registered anew with something in its
tables. -/
theorem clean_run (host : Host) (dht : Dht) (events : List Event) (appName version actorName : Text) (port : ℕ)
    (hempty : AllSteps (step host dht) StartsEmpty init events)
    (hexc : (run (step host dht) init (events ++ [.request (.actorUnreg appName version actorName) port])).exc = none) :
    Clean (appActorName appName actorName)
      (history host dht (events ++ [.request (.actorUnreg appName version actorName) port])) := by
  have hall : AllSteps (step host dht) StartsEmpty init
      (events ++ [.request (.actorUnreg appName version actorName) port]) :=
    allSteps_append.mpr ⟨hempty, allSteps_cons.mpr ⟨trivial, allSteps_nil⟩⟩
  have hrec := recorded_run dht hall hexc
  obtain ⟨hreg, henr⟩ : appActorName appName actorName ∉
        (run (step host dht) init (events ++ [.request (.actorUnreg appName version actorName) port])).registrations ∧
      appActorName appName actorName ∉
        (run (step host dht) init (events ++ [.request (.actorUnreg appName version actorName) port])).enrollments := by
    rw [run_append, run_cons, run_nil] at hexc ⊢
    exact (recorded_run dht hempty (exc_of_step hexc)).notMem_of_actorUnreg dht hexc
  intro p
  constructor
  · intro hopen
    have hmem := hrec.registered _ p hopen
    rw [Dict.get?_eq_none_iff.mpr hreg] at hmem
    simp at hmem
  · intro hopen
    have hmem := hrec.enrolled _ p hopen
    rw [Dict.get?_eq_none_iff.mpr henr] at hmem
    simp at hmem

theorem clean_lateProvider :
    Clean (appActorName ['a'] ['y'])
      (history host₁ .inOrder (lateProvider ++ [.request (.actorUnreg ['a'] [] ['y']) 0])) :=
  clean_run host₁ .inOrder lateProvider ['a'] [] ['y'] 0 (by decide +kernel) (by decide +kernel)

/-- An actor registers a service, starts again and is removed: its service stays. -/
theorem not_clean_restart :
    let events : List Event := [.request (.actorReg ['a'] [] ['y'] false) 1, .request (.serviceReg path₁ socket₁) 0,
      .request (.actorReg ['a'] [] ['y'] false) 2, .request (.actorUnreg ['a'] [] ['y']) 0]
    (run (step host₁ .inOrder) init events).exc = none ∧
      (run (step host₁ .inOrder) init events).dbase.Live ['/', 'a', '/', 't', '/', 'p', 'u', 'b']
        (socketValue socket₁) ∧
      ¬ Clean (appActorName ['a'] ['y']) (history host₁ .inOrder events) := by
  refine ⟨by decide +kernel, ⟨by decide +kernel, by decide +kernel, by decide +kernel⟩, fun h => ?_⟩
  refine (h (['/', 'a', '/', 't', '/', 'p', 'u', 'b'], socketValue socket₁)).1 ⟨[], _, [], ?_, rfl, by simp⟩
  decide +kernel

end DiscoService

end Riaps.Discovery
