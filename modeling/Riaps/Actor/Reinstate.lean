import Riaps.Discovery.Tables
import Riaps.Actor.DiscoClient

/-!
# Reinstating an actor

An actor registers with the discovery server, registers its provider ports there
and looks up the providers of its client ports, and it does both for each group
that it joins. A server that was restarted has none of this. On the reinstate
command an actor registers anew, and its parts register their provider ports:
client ports and groups are left out.

`reinstated_iff` says when nothing is missing after that: when there are no
client ports and no groups.
-/

namespace Riaps.Run

open Riaps.Foundation Riaps.Discovery
open Riaps.Discovery.DiscoService (solo View view viewStep ownReq Event)

namespace Actor

/-! ### Set-up and reinstatement -/

variable (a : Actor)

/-- `setup` of a component: the ports that its thread reports, all but timers and inside ports. -/
def setupComponent : Component → List DiscoReq
  | .part name ports =>
    (ports.filter fun info => info.portKind ≠ .tim ∧ info.portKind ≠ .ins).filterMap (a.registerEndpoint name)
  | .peripheral => []

/-- `handleReinstate` of a component. -/
def reinstateComponent : Component → List DiscoReq
  | .part name ports => (ports.filter fun info => info.portKind.isProvider).filterMap (a.registerEndpoint name)
  | .peripheral => []

/-- `setup`, as far as it goes to the discovery server. -/
def setup : List DiscoReq := a.registerActor :: a.components.flatMap a.setupComponent

/-- `handleReinstate`, with the `reconnect` of its discovery client. -/
def handleReinstate : List DiscoReq := a.registerActor :: a.components.flatMap a.reinstateComponent

/-- What it has asked the discovery server for, once it is set up and its parts have joined their groups. -/
def asked : List DiscoReq := a.setup ++ a.groups.flatMap a.registerGroup

/-- A request that it makes for a service of its own. -/
inductive IsService : DiscoReq → Prop
  | reg (info : PortInfo) : IsService (a.handleRegReq info)
  | lookup (partName : Text) (info : PortInfo) : IsService (a.handleLookupReq partName info)

variable {a} {host : Host}

/-! ### Tables -/

/-- What the services of an actor put into its tables, beside what there was. Each request is for a key
that can be built. -/
theorem viewStep_services {reqs : List DiscoReq} (hreqs : ∀ req ∈ reqs, a.IsService req) {v v' : View}
    (h : reqs.foldlM (viewStep host) v = some v') {registered enrolled : List (Text × Text)}
    (hreg : v.registered = some registered) (henr : v.enrolled = some enrolled) :
    (∃ l, v'.registered = some l ∧ ∀ p, p ∈ l ↔ p ∈ registered ∨ ∃ path socket, .serviceReg path socket ∈ reqs ∧
        (solo a.appName a.name v.isDevice).buildInsertKeyValuePair host path socket = .ok p) ∧
      (∃ l, v'.enrolled = some l ∧ (∀ p, p ∈ l ↔ p ∈ enrolled ∨ ∃ path client, .serviceLookup path client ∈ reqs ∧
        (solo a.appName a.name v.isDevice).buildLookupKey host path client = .ok p)) ∧
      ∀ path client, .serviceLookup path client ∈ reqs →
        ∃ p, (solo a.appName a.name v.isDevice).buildLookupKey host path client = .ok p := by
  induction reqs generalizing v registered enrolled with
  | nil =>
    obtain rfl := Option.some.inj h
    exact ⟨⟨registered, hreg, by simp⟩, ⟨enrolled, henr, by simp⟩, by simp⟩
  | cons req reqs ih =>
    obtain ⟨hreq, hrest⟩ := List.forall_mem_cons.mp hreqs
    rw [List.foldlM_cons] at h
    obtain ⟨w, hw, h⟩ := Option.bind_eq_some_iff.mp h
    cases hreq with
    | reg info =>
      obtain ⟨path, socket, hpath, hname, hbody⟩ : ∃ path socket, path.appName = a.appName ∧ path.actorName = a.name ∧
          a.handleRegReq info = .serviceReg path socket := ⟨_, _, rfl, rfl, rfl⟩
      rw [hbody] at hw ⊢
      cases hbuild : (solo a.appName a.name v.isDevice).buildInsertKeyValuePair host path socket with
      | error e => simp [viewStep, hpath, hname, hbuild] at hw
      | ok q =>
        obtain rfl : { v with registered := some (registered.insert q) } = w := by
          simpa [viewStep, hpath, hname, hbuild, hreg] using hw
        obtain ⟨⟨l, hl, hmem⟩, henr', hlookup⟩ := ih hrest h rfl henr
        refine ⟨⟨l, hl, fun p => ?_⟩, ?_, ?_⟩
        · rw [hmem, List.mem_insert_iff]
          constructor
          · rintro ((rfl | hp) | ⟨path', socket', hmem', hp⟩)
            · exact Or.inr ⟨path, socket, List.mem_cons_self, hbuild⟩
            · exact Or.inl hp
            · exact Or.inr ⟨path', socket', List.mem_cons_of_mem _ hmem', hp⟩
          · rintro (hp | ⟨path', socket', hmem', hp⟩)
            · exact Or.inl (Or.inr hp)
            · rcases List.mem_cons.mp hmem' with heq | hmem'
              · obtain ⟨rfl, rfl⟩ := DiscoReq.serviceReg.inj heq
                exact Or.inl (Or.inl (Except.ok.inj (hp.symm.trans hbuild)))
              · exact Or.inr ⟨path', socket', hmem', hp⟩
        · simpa using henr'
        · simpa using hlookup
    | lookup partName info =>
      obtain ⟨path, client, hpath, hname, hbody⟩ : ∃ path client, path.appName = a.appName ∧ client.actorName = a.name ∧
          a.handleLookupReq partName info = .serviceLookup path client := ⟨_, _, rfl, rfl, rfl⟩
      rw [hbody] at hw ⊢
      cases hbuild : (solo a.appName a.name v.isDevice).buildLookupKey host path client with
      | error e => simp [viewStep, hpath, hname, hbuild] at hw
      | ok q =>
        obtain rfl : { v with enrolled := some (enrolled.insert q) } = w := by
          simpa [viewStep, hpath, hname, hbuild, henr] using hw
        obtain ⟨hreg', ⟨l, hl, hmem⟩, hlookup⟩ := ih hrest h hreg rfl
        refine ⟨by simpa using hreg', ⟨l, hl, fun p => ?_⟩, fun path' client' hmem' => ?_⟩
        · rw [hmem, List.mem_insert_iff]
          constructor
          · rintro ((rfl | hp) | ⟨path', client', hmem', hp⟩)
            · exact Or.inr ⟨path, client, List.mem_cons_self, hbuild⟩
            · exact Or.inl hp
            · exact Or.inr ⟨path', client', List.mem_cons_of_mem _ hmem', hp⟩
          · rintro (hp | ⟨path', client', hmem', hp⟩)
            · exact Or.inl (Or.inr hp)
            · rcases List.mem_cons.mp hmem' with heq | hmem'
              · obtain ⟨rfl, rfl⟩ := DiscoReq.serviceLookup.inj heq
                exact Or.inl (Or.inl (Except.ok.inj (hp.symm.trans hbuild)))
              · exact Or.inr ⟨path', client', hmem', hp⟩
        · rcases List.mem_cons.mp hmem' with heq | hmem'
          · obtain ⟨rfl, rfl⟩ := DiscoReq.serviceLookup.inj heq
            exact ⟨q, hbuild⟩
          · exact hlookup path' client' hmem'

/-- The tables of an actor after a run in which it registered and then made requests for its services. -/
theorem tables_run (dht : Dht) {s : DiscoService} {events : List Event} {reqs : List DiscoReq}
    (hreqs : ∀ req ∈ reqs, a.IsService req) (hown : events.filterMap (ownReq a.key) = a.registerActor :: reqs)
    (hdevice : (s.view a.key).isDevice = false) (hexc : (run (DiscoService.step host dht) s events).exc = none) :
    (∃ l, (run (DiscoService.step host dht) s events).registrations.get? a.key = some l ∧
        ∀ p, p ∈ l ↔ ∃ path socket, .serviceReg path socket ∈ reqs ∧
          (solo a.appName a.name a.isDevice).buildInsertKeyValuePair host path socket = .ok p) ∧
      (∃ l, (run (DiscoService.step host dht) s events).enrollments.get? a.key = some l ∧
        ∀ p, p ∈ l ↔ ∃ path client, .serviceLookup path client ∈ reqs ∧
          (solo a.appName a.name a.isDevice).buildLookupKey host path client = .ok p) ∧
      ∀ path client, .serviceLookup path client ∈ reqs →
        ∃ p, (solo a.appName a.name a.isDevice).buildLookupKey host path client = .ok p := by
  have hview := DiscoService.view_run host dht a.key hexc (by
    rw [hown]
    intro req hreq
    rcases List.mem_cons.mp hreq with rfl | hreq
    · trivial
    · cases hreqs req hreq <;> trivial)
  rw [hown, List.foldlM_cons] at hview
  replace hview : reqs.foldlM (viewStep host) ⟨some [], some [], (s.view a.key).isDevice || a.isDevice⟩ =
      some ((run (DiscoService.step host dht) s events).view a.key) := hview
  rw [hdevice, Bool.false_or] at hview
  simpa [view] using viewStep_services hreqs hview rfl rfl

/-! ### What is asked for -/

variable (a) in
/-- The services of an actor, but for the group's, in one list. -/
theorem isService_of_mem_registerEndpoint {partName : Text} {ports : List PortInfo} {req : DiscoReq}
    (h : req ∈ ports.filterMap (a.registerEndpoint partName)) : a.IsService req := by
  obtain ⟨info, -, hreq⟩ := List.mem_filterMap.mp h
  unfold registerEndpoint at hreq
  split_ifs at hreq
  · exact Option.some.inj hreq ▸ .reg info
  · exact Option.some.inj hreq ▸ .lookup partName info

theorem isService_setup {req : DiscoReq}
    (h : req ∈ a.components.flatMap a.setupComponent ++ a.groups.flatMap a.registerGroup) : a.IsService req := by
  rcases List.mem_append.mp h with h | h
  · obtain ⟨component, -, hreq⟩ := List.mem_flatMap.mp h
    cases component with
    | part name ports => exact a.isService_of_mem_registerEndpoint hreq
    | peripheral => simp [setupComponent] at hreq
  · obtain ⟨g, -, hreq⟩ := List.mem_flatMap.mp h
    rcases List.mem_cons.mp hreq with rfl | hreq
    · exact .lookup _ _
    · obtain rfl := List.mem_singleton.mp hreq
      exact .reg _

theorem isService_reinstate {req : DiscoReq} (h : req ∈ a.components.flatMap a.reinstateComponent) :
    a.IsService req := by
  obtain ⟨component, -, hreq⟩ := List.mem_flatMap.mp h
  cases component with
  | part name ports => exact a.isService_of_mem_registerEndpoint hreq
  | peripheral => simp [reinstateComponent] at hreq

/-- The reinstate command looks nothing up. -/
theorem lookup_notMem_reinstate {path : Path} {client : Client} :
    .serviceLookup path client ∉ a.components.flatMap a.reinstateComponent := by
  intro h
  obtain ⟨component, -, hreq⟩ := List.mem_flatMap.mp h
  cases component with
  | part name ports =>
    obtain ⟨info, hinfo, hreq⟩ := List.mem_filterMap.mp hreq
    have hprovider : info.portKind.isProvider = true := by simpa using (List.mem_filter.mp hinfo).2
    rw [registerEndpoint, if_pos hprovider] at hreq
    cases hreq
  | peripheral => simp [reinstateComponent] at hreq

/-- A part without client ports is reinstated as it was set up. -/
theorem setupComponent_eq {name : Text} {ports : List PortInfo} (h : ∀ info ∈ ports, info.portKind.isClient = false) :
    a.setupComponent (.part name ports) = a.reinstateComponent (.part name ports) := by
  simp only [setupComponent, reinstateComponent]
  rw [List.filterMap_filter, List.filterMap_filter]
  refine List.filterMap_congr fun info hinfo => ?_
  have hclient := h info hinfo
  unfold registerEndpoint
  cases hkind : info.portKind <;> simp_all [PortKind.isProvider, PortKind.isClient]

variable (a) in
/-- The actor has no client port and has joined no group. -/
def OnlyProvides : Prop :=
  a.groups = [] ∧
    ∀ name ports, Component.part name ports ∈ a.components → ∀ info ∈ ports, info.portKind.isClient = false

/-- It has asked for no service then. -/
theorem OnlyProvides.of_notMem_lookup
    (h : ∀ partName info,
      a.handleLookupReq partName info ∉ a.components.flatMap a.setupComponent ++ a.groups.flatMap a.registerGroup) :
    a.OnlyProvides := by
  constructor
  · refine List.eq_nil_iff_forall_not_mem.mpr fun g hg => ?_
    refine h g.partName (gsubInfo g) (List.mem_append_right _ ?_)
    exact List.mem_flatMap.mpr ⟨g, hg, List.mem_cons_self⟩
  · intro name ports hpart info hinfo
    by_contra hclient
    rw [Bool.not_eq_false] at hclient
    refine h name info (List.mem_append_left _ (List.mem_flatMap.mpr ⟨_, hpart, ?_⟩))
    refine List.mem_filterMap.mpr ⟨info, List.mem_filter.mpr ⟨hinfo, ?_⟩, ?_⟩
    · cases hkind : info.portKind <;> simp_all [PortKind.isClient]
    · have hprovider : info.portKind.isProvider = false := by
        cases hkind : info.portKind <;> simp_all [PortKind.isProvider, PortKind.isClient]
      rw [registerEndpoint, hprovider, hclient]
      rfl

/-- Its reinstatement is then its set-up. -/
theorem OnlyProvides.setup_eq (h : a.OnlyProvides) :
    a.components.flatMap a.setupComponent ++ a.groups.flatMap a.registerGroup =
      a.components.flatMap a.reinstateComponent := by
  rw [h.1, List.flatMap_nil, List.append_nil]
  refine List.flatMap_congr fun component hcomponent => ?_
  cases component with
  | part name ports => exact setupComponent_eq (h.2 name ports hcomponent)
  | peripheral => rfl

/-! ### Reinstatement -/

/-- What the tables of the actor have in one state they have in the other. -/
def Contains (s s' : DiscoService) (actorKey : Text) : Prop :=
  (∀ p ∈ (s.registrations.get? actorKey).getD [], p ∈ (s'.registrations.get? actorKey).getD []) ∧
    ∀ p ∈ (s.enrollments.get? actorKey).getD [], p ∈ (s'.enrollments.get? actorKey).getD []

/-- A server that is started, over a database. -/
def started (d : DhtDbase) : DiscoService := { DiscoService.init with dbase := d }

/-- **After a restart of the server** and the reinstatement of the actors nothing is missing, exactly if the
actors have no client ports and are in no groups. -/
theorem reinstated_iff (host : Host) (dht : Dht) (actors : List Actor) (d d' : DhtDbase) (before after : List Event)
    (hbefore : ∀ a ∈ actors, before.filterMap (ownReq a.key) = a.asked)
    (hafter : ∀ a ∈ actors, after.filterMap (ownReq a.key) = a.handleReinstate)
    (hexc : (run (DiscoService.step host dht) (started d) before).exc = none)
    (hexc' : (run (DiscoService.step host dht) (started d') after).exc = none) :
    (∀ a ∈ actors, Contains (run (DiscoService.step host dht) (started d) before)
        (run (DiscoService.step host dht) (started d') after) a.key) ↔
      ∀ a ∈ actors, a.OnlyProvides := by
  refine forall₂_congr fun a ha => ?_
  obtain ⟨⟨l, hl, hreg⟩, ⟨m, hm, henr⟩, hbuild⟩ :=
    tables_run dht (fun _ => isService_setup) (hbefore a ha) (by rfl) hexc
  obtain ⟨⟨l', hl', hreg'⟩, ⟨m', hm', henr'⟩, -⟩ :=
    tables_run dht (fun _ => isService_reinstate) (hafter a ha) (by rfl) hexc'
  rw [Contains, hl, hm, hl', hm']
  constructor
  · rintro ⟨-, hkept⟩
    refine .of_notMem_lookup fun partName info hmem => ?_
    obtain ⟨p, hp⟩ := hbuild _ _ hmem
    obtain ⟨path', client', hmem', -⟩ := (henr' p).mp (hkept p ((henr p).mpr ⟨_, _, hmem, hp⟩))
    exact lookup_notMem_reinstate hmem'
  · intro hprovides
    rw [hprovides.setup_eq] at hreg henr
    exact ⟨fun p hp => (hreg' p).mpr ((hreg p).mp hp), fun p hp => (henr' p).mpr ((henr p).mp hp)⟩

/-- An actor of one part with one port. -/
def actor₁ (kind : PortKind) : Actor :=
  ⟨['a'], ['x'], false, ['h'], ['l'], [.part ['i'] [⟨kind, .global, ['p'], ['t'], 5⟩]], []⟩

/-- Each request of a list, with ports for the sockets. -/
def requests (reqs : List DiscoReq) : List Event := reqs.map fun req => .request req 1

theorem reinstated_publisher :
    Contains (run (DiscoService.step DiscoService.host₁ .inOrder) (started .init) (requests (actor₁ .pub).asked))
      (run (DiscoService.step DiscoService.host₁ .inOrder) (started .init) (requests (actor₁ .pub).handleReinstate))
      (actor₁ .pub).key :=
  (reinstated_iff DiscoService.host₁ .inOrder [actor₁ .pub] .init .init (requests (actor₁ .pub).asked)
    (requests (actor₁ .pub).handleReinstate) (by decide +kernel) (by decide +kernel) (by decide +kernel)
    (by decide +kernel)).mpr (by
      rintro a ha
      obtain rfl := List.mem_singleton.mp ha
      refine ⟨rfl, fun name ports hpart info hinfo => ?_⟩
      obtain ⟨-, rfl⟩ := Component.part.inj (List.mem_singleton.mp hpart)
      obtain rfl := List.mem_singleton.mp hinfo
      rfl) (actor₁ .pub) (List.mem_singleton_self _)

/-- A subscriber is not enrolled again, and a member of a group is neither enrolled nor registered. -/
theorem not_reinstated_subscriber :
    ¬ Contains (run (DiscoService.step DiscoService.host₁ .inOrder) (started .init) (requests (actor₁ .sub).asked))
        (run (DiscoService.step DiscoService.host₁ .inOrder) (started .init) (requests (actor₁ .sub).handleReinstate))
        (actor₁ .sub).key ∧
      let member : Actor := { actor₁ .pub with groups := [⟨['g'], ['n'], ['m'], 6, ['i'], ['n']⟩] }
      ¬ Contains (run (DiscoService.step DiscoService.host₁ .inOrder) (started .init) (requests member.asked))
        (run (DiscoService.step DiscoService.host₁ .inOrder) (started .init) (requests member.handleReinstate))
        member.key := by
  unfold Contains
  decide +kernel

end Actor

end Riaps.Run
