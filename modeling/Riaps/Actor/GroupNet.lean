import Riaps.Actor.DiscoClient
import Riaps.Discovery.Requests
import Mathlib.Data.List.FinRange

/-!
# The hosts of a group

The members of a group are parts on any number of hosts. A part that joins looks
the publishers of the group up, and then registers its own; a part that leaves
takes both back. On each host there is one discovery server, and the servers
share one table: each listener is called for each value that is put.

The second half of the module is about one of the servers: what a request of a
part, or a pass without one, does to it.
-/

namespace Riaps.Run

open Riaps.Foundation Riaps.Discovery
open Riaps.Discovery.DiscoService

/-! ### Hosts and members -/

/-- A group instance of an application, and hosts with actors of it. -/
structure GroupInstance (n : ℕ) where
  hosts : Fin n → Host
  appName : Text
  /-- The actors of a host, with the ports that their sockets are bound to. -/
  actors : Fin n → List (Text × ℕ)
  groupType : Text
  groupName : Text
  messageType : Text
  /-- The port of each member for the group. -/
  portName : Text
  hosts_inj : ∀ i j, (hosts i).hostAddress = (hosts j).hostAddress → i = j
  colon_hosts : ∀ i, ':' ∉ (hosts i).hostAddress
  dash_hosts : ∀ i, (hosts i).hostAddress.head? ≠ some '-'
  slash_appName : '/' ∉ appName
  slash_actors : ∀ i, ∀ a ∈ actors i, '/' ∉ a.1
  slash_portName : '/' ∉ portName
  colon_portName : ':' ∉ portName

/-- A part of an actor that can be a member. -/
structure Member {n : ℕ} (g : GroupInstance n) where
  host : Fin n
  actorName : Text
  partName : Text
  mem_actors : actorName ∈ (g.actors host).map Prod.fst
  slash_partName : '/' ∉ partName
  deriving DecidableEq

namespace GroupInstance

variable {n : ℕ} (g : GroupInstance n)

/-- An actor of a host, as far as requests need it. -/
def actor (i : Fin n) (actorName : Text) : Actor :=
  ⟨g.appName, actorName, false, (g.hosts i).hostAddress, [], [], []⟩

/-- The group of a part, with a port for its publisher. -/
def group (partName : Text) (pubPort : Int32) : Group :=
  ⟨g.groupType, g.groupName, g.messageType, pubPort, partName, g.portName⟩

/-- The key of the group's publishers. -/
def key : Text :=
  '/' :: g.appName ++ '/' :: Actor.groupMsgType (g.group [] 0) ++ '/' :: Kind.gpub.str

/-- The address of a publisher. -/
def address (i : Fin n) (port : Int32) : Socket := ⟨(g.hosts i).hostAddress, port⟩

/-- A server to start with: the actors of its host are registered. -/
def server (dht : Dht) (i : Fin n) : DiscoService :=
  run (DiscoService.step (g.hosts i) dht) .init
    ((g.actors i).map fun a => .request (g.actor i a.1).registerActor a.2)

end GroupInstance

namespace Member

variable {n : ℕ} {g : GroupInstance n} (m : Member g)

/-- The requests of a part that joins: first the lookup, -/
def lookupReq : DiscoReq :=
  (g.actor m.host m.actorName).handleLookupReq m.partName (Actor.gsubInfo (g.group m.partName 0))

/-- and then the registration, -/
def regReq (port : Int32) : DiscoReq :=
  (g.actor m.host m.actorName).handleRegReq (Actor.gpubInfo (g.group m.partName port))

/-- and of one that leaves. -/
def unlookupReq : DiscoReq :=
  (g.actor m.host m.actorName).handleUnlookupReq m.partName (Actor.gsubInfo (g.group m.partName 0))

def unregReq (port : Int32) : DiscoReq :=
  (g.actor m.host m.actorName).handleUnregReq (Actor.gpubInfo (g.group m.partName port))

/-- The member as a client. -/
def client : Client := ⟨(g.hosts m.host).hostAddress, m.actorName, m.partName, g.portName⟩

/-- The string that identifies it. -/
def clientString : Text := DiscoService.clientString (g.hosts m.host) g.appName .global m.client

end Member

/-- What a member is about. -/
inductive Membership where
  /-- It has looked the group up. -/
  | looking
  /-- It has registered its publisher, too. -/
  | joined (port : Int32)
  /-- It has taken the lookup back. -/
  | leaving (port : Int32)
  deriving DecidableEq

/-- It is a member. -/
def Membership.isJoined : Membership → Bool
  | .joined _ => true
  | .looking | .leaving _ => false

/-- It needs the listener of its host. -/
def Membership.listens : Membership → Bool
  | .looking | .joined _ => true
  | .leaving _ => false

/-! ### The hosts together -/

/-- The servers of all hosts, and the parts that are members or become so. -/
structure GroupNet {n : ℕ} (g : GroupInstance n) where
  servers : Fin n → DiscoService
  /-- The table that the servers share. -/
  puts : List (Text × Text)
  /-- The calls that listeners are due, each with its host. -/
  calls : List (Fin n × Text × Text)
  members : Dict (Member g) Membership

namespace GroupNet

variable {n : ℕ} {g : GroupInstance n}

/-- What happens. -/
inductive Event (g : GroupInstance n) where
  | lookup (m : Member g)
  | register (m : Member g) (port : Int32)
  | unlookup (m : Member g)
  | unregister (m : Member g)
  /-- The listener of a host is called, for a value that was put, perhaps not the first time. -/
  | dhtValueCallback (i : Fin n) (value : Text)
  | timeout (i : Fin n)
  | dhtRepublish (i : Fin n) (event : ℕ)
  deriving DecidableEq

section Step

variable (dht : Dht)

/-- To start with there is no member. -/
def init (g : GroupInstance n) : GroupNet g := ⟨g.server dht, [], [], .empty⟩

/-- The server of a host, over the table. -/
def server (i : Fin n) (s : GroupNet g) : DiscoService :=
  { s.servers i with dbase := { (s.servers i).dbase with puts := s.puts } }

/-- The calls that the listeners are due for a value. -/
def callsFor (s : GroupNet g) (p : Text × Text) : List (Fin n × Text × Text) :=
  ((List.finRange n).filter fun i => p.1 ∈ (s.servers i).dbase.listeners).map fun i => (i, p)

/-- An event at the server of a host. -/
def serve (i : Fin n) (e : DiscoService.Event) (s : GroupNet g) : GroupNet g :=
  let after := DiscoService.step (g.hosts i) dht (s.server i) e
  { s with
    servers := Function.update s.servers i after
    puts := after.dbase.puts
    calls := s.calls ++ (after.dbase.puts.drop s.puts.length).flatMap s.callsFor }

/-- One event. A part registers with a fresh address, and each request has its turn. -/
def step (s : GroupNet g) : Event g → GroupNet g
  | .lookup m =>
    if m ∈ s.members then s
    else { s.serve dht m.host (.request m.lookupReq 0) with members := s.members.set m .looking }
  | .register m port =>
    if s.members.get? m = some .looking ∧ (g.key, socketValue (g.address m.host port)) ∉ s.puts then
      { s.serve dht m.host (.request (m.regReq port) 0) with members := s.members.set m (.joined port) }
    else s
  | .unlookup m =>
    match s.members.get? m with
    | some (.joined port) =>
      { s.serve dht m.host (.request m.unlookupReq 0) with members := s.members.set m (.leaving port) }
    | _ => s
  | .unregister m =>
    match s.members.get? m with
    | some (.leaving port) =>
      { s.serve dht m.host (.request (m.unregReq port) 0) with members := s.members.del m }
    | _ => s
  | .dhtValueCallback i value =>
    if (g.key, value) ∈ s.puts then
      let s := s.serve dht i (.dhtValueCallback g.key value false)
      { s with calls := s.calls.erase (i, g.key, value) }
    else s
  | .timeout i => s.serve dht i .timeout
  | .dhtRepublish i event => s.serve dht i (.dhtRepublish event)

end Step

/-! ### Discovery -/

/-- Nothing is left to be done: no part has a request to make, no listener is to be called and no update is
to be sent. -/
def Quiet (s : GroupNet g) : Prop :=
  (∀ i ∈ s.members.items, i.2.isJoined) ∧ s.calls = [] ∧ ∀ i, (s.servers i).dbase.updates = []

/-- **The members know each other**: each was sent the address of each, itself included. -/
def Discovered (s : GroupNet g) : Prop :=
  ∀ m port m' port', s.members.get? m = some (.joined port) → s.members.get? m' = some (.joined port') →
    ∃ sock, (s.servers m.host).clients.get? (clientKeyBase g.appName m.actorName) = some (.sock sock) ∧
      g.address m'.host port' ∈ received sock g.key m.clientString m.client (s.servers m.host).sent

/-- An event that takes nothing from another member: no other one on the host needs the listener that the end of a
lookup cancels, and where a listener is called for a mark, no other update waits to be sent. -/
def Undisturbed (s : GroupNet g) : Event g → Prop
  | .unlookup m => ∀ i ∈ s.members.items, i.1.host = m.host → i.1 = m ∨ i.2.listens = false
  | .dhtValueCallback i value =>
    isDelValue value = true → g.key ∈ (s.servers i).dbase.listeners →
      ∀ u ∈ (s.servers i).dbase.updates, delValue u.2 = value
  | .lookup _ | .register .. | .unregister _ | .timeout _ | .dhtRepublish .. => True

instance (s : GroupNet g) : Decidable (Quiet s) := inferInstanceAs (Decidable (_ ∧ _ ∧ _))

instance (s : GroupNet g) : ∀ e : Event g, Decidable (Undisturbed s e)
  | .unlookup m => inferInstanceAs (Decidable (∀ i ∈ s.members.items, i.1.host = m.host → _))
  | .dhtValueCallback _ value => inferInstanceAs (Decidable (isDelValue value = true → _ → _))
  | .lookup _ | .register .. | .unregister _ | .timeout _ | .dhtRepublish .. => isTrue trivial

/-! ### One server -/

variable (g) in
/-- The values of the table: addresses, and marks of addresses that were put. -/
def Addresses (puts : List (Text × Text)) : Prop :=
  ∀ p ∈ puts, p.1 = g.key ∧ ∃ i port, p.2 = socketValue (g.address i port) ∨
    p.2 = delValue (socketValue (g.address i port)) ∧ (g.key, socketValue (g.address i port)) ∈ puts

variable (g) in
/-- What holds of the server of a host, over a table. -/
structure ServerInv (i : Fin n) (puts : List (Text × Text)) (s : DiscoService) : Prop where
  exc : s.exc = none
  socks : ∀ a ∈ (g.actors i).map Prod.fst, ∃ sock, s.clients.get? (clientKeyBase g.appName a) = some (.sock sock)
  registrations : ∀ a ∈ (g.actors i).map Prod.fst, appActorName g.appName a ∈ s.registrations
  enrollments : ∀ a ∈ (g.actors i).map Prod.fst, appActorName g.appName a ∈ s.enrollments
  republished : ∀ p ∈ s.dbase.republisher.map, p ∈ puts ∧ ∃ port, p = (g.key, socketValue (g.address i port))
  deleted : ∀ v, s.dbase.deletedMap.get? g.key = some v → (g.key, delValue v) ∈ puts
  updates : ∀ u ∈ s.dbase.updates, u.1 = g.key ∧ ∃ j port, u.2 = socketValue (g.address j port)
  clients : ∀ c ∈ s.dbase.clientsOf g.key, ∃ m : Member g, m.host = i ∧ c = m.clientString

/-- More values do no harm. -/
theorem ServerInv.mono {i : Fin n} {puts puts' : List (Text × Text)} {s : DiscoService} (h : ServerInv g i puts s)
    (hputs : ∀ p ∈ puts, p ∈ puts') : ServerInv g i puts' s :=
  { h with
    republished := fun p hp => ⟨hputs p (h.republished p hp).1, (h.republished p hp).2⟩
    deleted := fun v hv => hputs _ (h.deleted v hv) }

section Names

variable (m : Member g) (i : Fin n) (port : Int32)

theorem names_client : Names g.appName m.client where
  appName := g.slash_appName
  actorName := by
    obtain ⟨a, ha, hname⟩ := List.mem_map.mp m.mem_actors
    show '/' ∉ m.actorName
    rw [← hname]
    exact g.slash_actors m.host a ha
  actorHost := (g.hosts m.host).slash_hostAddress
  instanceName := m.slash_partName
  portName := g.slash_portName
  colon := g.colon_portName

/-- A client string of a host stands for one member. -/
theorem clientString_inj {m m' : Member g} (hhost : m.host = m'.host) (h : m.clientString = m'.clientString) :
    m = m' := by
  obtain ⟨host, actorName, partName, hactor, hpart⟩ := m
  obtain ⟨host', actorName', partName', hactor', hpart'⟩ := m'
  obtain rfl : host = host' := hhost
  obtain ⟨-, hclient⟩ := DiscoService.clientString_inj (names_client _) (names_client _) h
  obtain ⟨-, rfl, rfl, -⟩ := Client.mk.inj hclient
  rfl

theorem plain_address : Plain (socketValue (g.address i port)) := plain_socketValue (g.dash_hosts i)

theorem address_inj {i j : Fin n} {port port' : Int32}
    (h : socketValue (g.address i port) = socketValue (g.address j port')) : i = j ∧ port = port' := by
  obtain ⟨hhost, hport⟩ := Socket.mk.inj (socketValue_inj (g.colon_hosts i) h)
  exact ⟨g.hosts_inj i j hhost, hport⟩

end Names

section Requests

variable {s : DiscoService} {m : Member g} {i : Fin n} (h : ServerInv g i s.dbase.puts s)

theorem Addresses.nonempty (haddr : Addresses g s.dbase.puts) : (g.key, []) ∉ s.dbase.puts := by
  intro hp
  obtain ⟨-, j, port, hval | ⟨hval, -⟩⟩ := haddr _ hp
  · exact absurd hval.symm (plain_address j port).1
  · exact absurd hval (by simp [delValue])

/-- What is there under the key is an address. -/
theorem Addresses.of_live (haddr : Addresses g s.dbase.puts) {value : Text} (hlive : s.dbase.Live g.key value) :
    ∃ j port, value = socketValue (g.address j port) := by
  obtain ⟨hplain, hput, -⟩ := hlive
  obtain ⟨-, j, port, hval | ⟨hval, -⟩⟩ := haddr _ hput
  · exact ⟨j, port, hval⟩
  · exact absurd hval hplain.ne_delValue

theorem Addresses.readable (haddr : Addresses g s.dbase.puts) : Readable s.dbase g.key := by
  refine ⟨haddr.nonempty, fun value hlive => ?_⟩
  obtain ⟨j, port, rfl⟩ := haddr.of_live hlive
  exact ⟨_, readSocket_socketValue (g.colon_hosts j)⟩

include h

/-- The clients of the key can be sent updates. -/
theorem ServerInv.hasSocket {s' : DiscoService} (hclients : s'.clients = s.clients) :
    ∀ c ∈ s.dbase.clientsOf g.key, HasSocket s' c := by
  intro c hc
  obtain ⟨m, rfl, rfl⟩ := h.clients c hc
  obtain ⟨scope, hread⟩ := readClient_clientString (g.hosts m.host) .global (names_client m)
  obtain ⟨sock, hsock⟩ := h.socks _ m.mem_actors
  exact ⟨_, _, _, sock, hread, hclients ▸ hsock⟩

omit h in
/-- A request, and the updates that it leads to. -/
theorem step_request (host : Host) (dht : Dht) (req : DiscoReq) (port : ℕ) {t : DiscoService} (hexc : s.exc = none)
    (heq : handle host dht req port { s with clientUpdates := [] } = t) :
    DiscoService.step host dht s (.request req port) = t.clientUpdates.foldl (handleUpdate host) t := by
  rw [DiscoService.step, if_pos hexc, heq]

/-- The lookup of a part that joins is answered with every address that is there. -/
theorem step_lookupReq (dht : Dht) (haddr : Addresses g s.dbase.puts) (hhost : m.host = i) :
    ∃ enrolled sockets,
      DiscoService.step (g.hosts i) dht s (.request m.lookupReq 0) =
        { s with
          dbase := (s.dbase.fetch dht g.key m.clientString).1
          enrollments := s.enrollments.set (appActorName g.appName m.actorName) enrolled
          clientUpdates := []
          sent := s.sent ++ [.reply (.serviceLookup g.key m.clientString sockets)] } ∧
      ∀ j port, s.dbase.Live g.key (socketValue (g.address j port)) → g.address j port ∈ sockets := by
  subst hhost
  have hanswer : Answerable (g.hosts m.host) { s with clientUpdates := [] } m.lookupReq := by
    refine ⟨?_, fun hscope => ?_, h.enrollments _ m.mem_actors, fun p hp => ?_⟩
    · exact List.mem_of_elem_eq_true rfl
    · cases hscope
    · obtain rfl : (g.key, m.clientString) = p := Option.some.inj hp
      exact haddr.readable
  obtain ⟨hexc, -⟩ := (serve_handle (s := { s with clientUpdates := [] }) h.exc dht m.lookupReq 0).reply hanswer
  obtain ⟨key, values, enrolled, sockets, hbuild, hfetch, -, hsockets, heq⟩ := handleServiceLookup_cases hexc
  obtain rfl : g.key = key := (Prod.mk.inj (Except.ok.inj hbuild)).1
  refine ⟨enrolled.insert (g.key, m.clientString), sockets, ?_, fun j port hlive => ?_⟩
  · have hstep := step_request (g.hosts m.host) dht m.lookupReq 0 h.exc heq
    exact hstep
  · obtain ⟨values', hvalues', hiff⟩ := DhtDbase.mem_fetch dht haddr.nonempty
      (DiscoService.clientString (g.hosts m.host) g.appName .global m.client)
    obtain rfl := Except.ok.inj (hfetch.symm.trans hvalues')
    exact mem_of_mapM_readSocket hsockets ((hiff _).mpr hlive) (readSocket_socketValue (g.colon_hosts j))

/-- The registration of a part that joins is told to each client. -/
theorem step_regReq (dht : Dht) (hhost : m.host = i) {port : Int32}
    (hfresh : (g.key, socketValue (g.address i port)) ∉ s.dbase.puts) :
    ∃ registered clientUpdates,
      (DiscoService.step (g.hosts i) dht s (.request (m.regReq port) 0)).exc = none ∧
      Updates
        { s with
          dbase := (s.dbase.insert dht g.key (socketValue (g.address i port))).1
          registrations := s.registrations.set (appActorName g.appName m.actorName) registered
          clientUpdates := clientUpdates
          sent := s.sent ++ [.reply .serviceReg] }
        (DiscoService.step (g.hosts i) dht s (.request (m.regReq port) 0)) ∧
      ∀ m' : Member g, m'.host = i → m'.clientString ∈ s.dbase.clientsOf g.key → ∀ sock,
        s.clients.get? (clientKeyBase g.appName m'.actorName) = some (.sock sock) →
        g.address i port ∈ received sock g.key m'.clientString m'.client
          (DiscoService.step (g.hosts i) dht s (.request (m.regReq port) 0)).sent := by
  subst hhost
  have hanswer : Answerable (g.hosts m.host) { s with clientUpdates := [] } (m.regReq port) :=
    ⟨fun hscope => (by cases hscope), h.registrations _ m.mem_actors⟩
  obtain ⟨hexc, -⟩ := (serve_handle (s := { s with clientUpdates := [] }) h.exc dht (m.regReq port) 0).reply hanswer
  obtain ⟨key, registered, hbuild, -, heq⟩ := handleServiceReg_cases hexc
  obtain rfl : g.key = key := (Prod.mk.inj (Except.ok.inj hbuild)).1
  have hclients : (s.dbase.insert dht g.key (socketValue (g.address m.host port))).2 = s.dbase.clientsOf g.key := by
    rw [DhtDbase.insert_clients, if_neg hfresh]
  -- the update that the clients of the key are sent, if there are any
  obtain ⟨upds, hupds⟩ : ∃ upds, upds =
      if s.dbase.clientsOf g.key = [] then []
      else [(g.key, socketValue (g.address m.host port), s.dbase.clientsOf g.key)] := ⟨_, rfl⟩
  have hmem : ∀ u ∈ upds, u = (g.key, socketValue (g.address m.host port), s.dbase.clientsOf g.key) := by
    intro u hu
    rw [hupds] at hu
    split_ifs at hu
    · simp at hu
    · exact List.mem_singleton.mp hu
  have hstep := step_request (g.hosts m.host) dht (m.regReq port) 0 (t := { s with
      dbase := (s.dbase.insert dht g.key (socketValue (g.address m.host port))).1
      registrations := s.registrations.set (appActorName g.appName m.actorName)
        (registered.insert (g.key, socketValue (g.address m.host port)))
      clientUpdates := upds
      sent := s.sent ++ [.reply .serviceReg] }) h.exc (by
    rw [hupds, ← hclients]
    exact heq)
  have hexc' : (DiscoService.step (g.hosts m.host) dht s (.request (m.regReq port) 0)).exc = none := by
    rw [hstep]
    refine exc_handleUpdates (fun u hu => ?_) h.exc
    rw [hmem u hu]
    exact ⟨⟨_, g.colon_hosts m.host, rfl⟩, h.hasSocket rfl⟩
  refine ⟨registered.insert (g.key, socketValue (g.address m.host port)), upds, hexc', ?_,
    fun m' hhost hc sock hsock => ?_⟩
  · rw [hstep]
    exact .foldl (updates_handleUpdate _) upds _
  rw [hstep] at hexc' ⊢
  obtain ⟨scope, hread⟩ := readClient_clientString (g.hosts m'.host) .global (names_client m')
  have hu : (g.key, socketValue (g.address m.host port), s.dbase.clientsOf g.key) ∈ upds := by
    rw [hupds, if_neg (List.ne_nil_of_mem hc)]
    exact List.mem_singleton_self _
  exact mem_received_handleUpdates hu (g.colon_hosts m.host) rfl hread
    (congrArg (fun i => (g.hosts i).hostAddress) hhost) g.key hc hsock hexc'

/-- A part that leaves takes its lookup back. -/
theorem step_unlookupReq (dht : Dht) (hhost : m.host = i) :
    ∃ enrolled, DiscoService.step (g.hosts i) dht s (.request m.unlookupReq 0) =
      { s with
        dbase := s.dbase.detach g.key m.clientString
        enrollments := s.enrollments.set (appActorName g.appName m.actorName) enrolled
        clientUpdates := []
        sent := s.sent ++ [.reply .serviceUnlookup] } := by
  subst hhost
  have hanswer : Answerable (g.hosts m.host) { s with clientUpdates := [] } m.unlookupReq :=
    ⟨List.mem_of_elem_eq_true rfl, fun hscope => (by cases hscope), h.enrollments _ m.mem_actors⟩
  obtain ⟨hexc, -⟩ := (serve_handle (s := { s with clientUpdates := [] }) h.exc dht m.unlookupReq 0).reply hanswer
  obtain ⟨key, enrolled, hbuild, -, heq⟩ := handleServiceUnlookup_cases hexc
  obtain rfl : g.key = key := (Prod.mk.inj (Except.ok.inj hbuild)).1
  have hstep := step_request (g.hosts m.host) dht m.unlookupReq 0 h.exc heq
  exact ⟨_, hstep⟩

/-- And it takes its registration back. -/
theorem step_unregReq (dht : Dht) (hhost : m.host = i) (port : Int32) :
    ∃ registered, DiscoService.step (g.hosts i) dht s (.request (m.unregReq port) 0) =
      { s with
        dbase := (s.dbase.remove dht g.key (socketValue (g.address i port))).1
        registrations := s.registrations.set (appActorName g.appName m.actorName) registered
        clientUpdates := []
        sent := s.sent ++ [.reply .serviceUnreg] } := by
  subst hhost
  have hanswer : Answerable (g.hosts m.host) { s with clientUpdates := [] } (m.unregReq port) :=
    ⟨fun hscope => (by cases hscope), h.registrations _ m.mem_actors⟩
  obtain ⟨hexc, -⟩ := (serve_handle (s := { s with clientUpdates := [] }) h.exc dht (m.unregReq port) 0).reply hanswer
  obtain ⟨key, registered, hbuild, -, heq⟩ := handleServiceUnreg_cases hexc
  obtain rfl : g.key = key := (Prod.mk.inj (Except.ok.inj hbuild)).1
  have hstep := step_request (g.hosts m.host) dht (m.unregReq port) 0 h.exc heq
  exact ⟨_, hstep⟩

/-- The updates that have been collected are sent. -/
theorem step_timeout (dht : Dht) :
    ∃ clientUpdates,
      (DiscoService.step (g.hosts i) dht s .timeout).exc = none ∧
      Updates { s with dbase := s.dbase.fetchUpdates.1, clientUpdates := clientUpdates }
        (DiscoService.step (g.hosts i) dht s .timeout) ∧
      ∀ m : Member g, m.host = i → m.clientString ∈ s.dbase.clientsOf g.key → ∀ sock,
        s.clients.get? (clientKeyBase g.appName m.actorName) = some (.sock sock) →
        ∀ j port, (g.key, socketValue (g.address j port)) ∈ s.dbase.updates →
          g.address j port ∈ received sock g.key m.clientString m.client
            (DiscoService.step (g.hosts i) dht s .timeout).sent := by
  have hmem : ∀ u ∈ s.dbase.fetchUpdates.2,
      u.2.2 = s.dbase.clientsOf g.key ∧ ∃ j port, u.2.1 = socketValue (g.address j port) := by
    intro u hu
    obtain ⟨p, hp, hup⟩ := List.mem_filterMap.mp hu
    obtain ⟨hkey, haddress⟩ := h.updates p (List.mem_dedup.mp hp)
    split_ifs at hup
    obtain rfl := Option.some.inj hup
    exact ⟨by rw [hkey], haddress⟩
  have hstep : DiscoService.step (g.hosts i) dht s .timeout = s.dbase.fetchUpdates.2.foldl (handleUpdate (g.hosts i))
      { s with dbase := s.dbase.fetchUpdates.1, clientUpdates := s.dbase.fetchUpdates.2 } := by
    rw [DiscoService.step, if_pos h.exc]
  have hexc : (DiscoService.step (g.hosts i) dht s .timeout).exc = none := by
    rw [hstep]
    refine exc_handleUpdates (fun u hu => ?_) h.exc
    obtain ⟨hclients, j, port, haddress⟩ := hmem u hu
    exact ⟨⟨_, g.colon_hosts j, haddress⟩, hclients ▸ h.hasSocket rfl⟩
  refine ⟨s.dbase.fetchUpdates.2, hexc, ?_, fun m hhost hc sock hsock j port hu => ?_⟩
  · rw [hstep]
    exact .foldl (updates_handleUpdate _) _ _
  rw [hstep] at hexc ⊢
  subst hhost
  obtain ⟨scope, hread⟩ := readClient_clientString (g.hosts m.host) .global (names_client m)
  have hu' : (g.key, socketValue (g.address j port), s.dbase.clientsOf g.key) ∈ s.dbase.fetchUpdates.2 := by
    refine List.mem_filterMap.mpr ⟨_, List.mem_dedup.mpr hu, ?_⟩
    rw [if_neg (List.ne_nil_of_mem hc)]
  exact mem_received_handleUpdates hu' (g.colon_hosts j) rfl hread rfl g.key hc hsock hexc

end Requests

/-! ### What a server does -/

section Serve

variable {s s' : DiscoService} {i : Fin n} {puts : List (Text × Text)}

variable (g) in
/-- What a step of the server of host `i` may do to the database. -/
structure Changes (i : Fin n) (d d' : DhtDbase) : Prop where
  puts : ∀ p ∈ d.puts, p ∈ d'.puts
  addresses : Addresses g d.puts → Addresses g d'.puts
  republished : ∀ p ∈ d'.republisher.map, p ∈ d.republisher.map ∨
    p ∈ d'.puts ∧ ∃ port, p = (g.key, socketValue (g.address i port))
  deleted : ∀ v, d'.deletedMap.get? g.key = some v → d.deletedMap.get? g.key = some v ∨ (g.key, delValue v) ∈ d'.puts
  updates : ∀ u ∈ d'.updates, u ∈ d.updates ∨ u.1 = g.key ∧ ∃ j port, u.2 = socketValue (g.address j port)
  clients : ∀ c ∈ d'.clientsOf g.key, c ∈ d.clientsOf g.key ∨ ∃ m : Member g, m.host = i ∧ c = m.clientString

/-- A step that changes the database so and leaves the actors. -/
theorem ServerInv.step (h : ServerInv g i s.dbase.puts s) (hdbase : Changes g i s.dbase s'.dbase) (hexc : s'.exc = none)
    (hclients : s'.clients = s.clients) (hreg : ∀ k ∈ s.registrations, k ∈ s'.registrations)
    (henr : ∀ k ∈ s.enrollments, k ∈ s'.enrollments) : ServerInv g i s'.dbase.puts s' where
  exc := hexc
  socks := by rw [hclients]; exact h.socks
  registrations a ha := hreg _ (h.registrations a ha)
  enrollments a ha := henr _ (h.enrollments a ha)
  republished p hp := by
    rcases hdbase.republished p hp with hp | hp
    · exact ⟨hdbase.puts p (h.republished p hp).1, (h.republished p hp).2⟩
    · exact hp
  deleted v hv := (hdbase.deleted v hv).elim (fun hv => hdbase.puts _ (h.deleted v hv)) id
  updates u hu := (hdbase.updates u hu).elim (h.updates u) id
  clients c hc := (hdbase.clients c hc).elim (h.clients c) id

theorem changes_fetch (dht : Dht) (m : Member g) (d : DhtDbase) :
    Changes g m.host d (d.fetch dht g.key m.clientString).1 where
  puts _ := id
  addresses := id
  republished _ := Or.inl
  deleted _ := Or.inl
  updates _ := Or.inl
  clients c hc := by
    rcases (DhtDbase.mem_clientsOf_fetch dht _ _ d _ c).mp hc with heq | hc
    · exact Or.inr ⟨m, rfl, (Prod.mk.inj heq).2⟩
    · exact Or.inl hc

theorem changes_insert (dht : Dht) (i : Fin n) (port : Int32) (d : DhtDbase) :
    Changes g i d (d.insert dht g.key (socketValue (g.address i port))).1 where
  puts p hp := (DhtDbase.mem_insert_puts ..).mpr (Or.inr hp)
  addresses haddr p hp := by
    rcases (DhtDbase.mem_insert_puts ..).mp hp with rfl | hp
    · exact ⟨rfl, i, port, Or.inl rfl⟩
    · obtain ⟨hkey, j, port', hval | ⟨hval, hput⟩⟩ := haddr p hp
      · exact ⟨hkey, j, port', Or.inl hval⟩
      · exact ⟨hkey, j, port', Or.inr ⟨hval, (DhtDbase.mem_insert_puts ..).mpr (Or.inr hput)⟩⟩
  republished p hp := by
    rcases DhtDbase.mem_insert_republisher dht hp with rfl | hp
    · exact Or.inr ⟨(DhtDbase.mem_insert_puts ..).mpr (Or.inl rfl), port, rfl⟩
    · exact Or.inl hp
  deleted v hv := by
    rw [DhtDbase.insert_deletedMap] at hv
    exact Or.inl hv
  updates u hu := by
    rw [DhtDbase.insert_updates] at hu
    exact Or.inl hu
  clients c hc := by
    rw [DhtDbase.clientsOf_insert] at hc
    exact Or.inl hc

theorem changes_remove (dht : Dht) (i : Fin n) (port : Int32) (d : DhtDbase) :
    Changes g i d (d.remove dht g.key (socketValue (g.address i port))).1 where
  puts p hp := (DhtDbase.mem_remove_puts ..).mpr (Or.inl hp)
  addresses haddr p hp := by
    rcases (DhtDbase.mem_remove_puts ..).mp hp with hp | ⟨rfl, hput⟩
    · obtain ⟨hkey, j, port', hval | ⟨hval, hput⟩⟩ := haddr p hp
      · exact ⟨hkey, j, port', Or.inl hval⟩
      · exact ⟨hkey, j, port', Or.inr ⟨hval, (DhtDbase.mem_remove_puts ..).mpr (Or.inl hput)⟩⟩
    · exact ⟨rfl, i, port, Or.inr ⟨rfl, (DhtDbase.mem_remove_puts ..).mpr (Or.inl hput)⟩⟩
  republished p hp := by
    rw [DhtDbase.remove_republisher] at hp
    exact Or.inl (Republisher.mem_of_mem_del hp)
  deleted v hv := DhtDbase.get?_remove_deletedMap dht hv
  updates u hu := by
    rw [DhtDbase.remove_updates] at hu
    exact Or.inl hu
  clients c hc := by
    rw [DhtDbase.clientsOf_remove] at hc
    exact Or.inl hc

theorem changes_detach (i : Fin n) (c : Text) (d : DhtDbase) : Changes g i d (d.detach g.key c) where
  puts p hp := by rwa [DhtDbase.detach_puts]
  addresses haddr := by rwa [DhtDbase.detach_puts]
  republished p hp := by
    rw [DhtDbase.detach_republisher] at hp
    exact Or.inl hp
  deleted v hv := by
    rw [DhtDbase.detach_deletedMap] at hv
    exact Or.inl hv
  updates u hu := by
    rw [DhtDbase.detach_updates] at hu
    exact Or.inl hu
  clients c hc := Or.inl (DhtDbase.mem_of_mem_detach hc)

theorem changes_fetchUpdates (i : Fin n) (d : DhtDbase) : Changes g i d d.fetchUpdates.1 where
  puts _ := id
  addresses := id
  republished _ := Or.inl
  deleted _ := Or.inl
  updates _ hu := absurd hu List.not_mem_nil
  clients _ := Or.inl

theorem changes_dhtValueCallback (i : Fin n) {value : Text} {d : DhtDbase} (haddr : Addresses g d.puts)
    (hput : (g.key, value) ∈ d.puts) : Changes g i d (d.dhtValueCallback g.key value false) where
  puts p hp := by rwa [DhtDbase.dhtValueCallback_puts]
  addresses haddr := by rwa [DhtDbase.dhtValueCallback_puts]
  republished p hp := by
    rw [DhtDbase.dhtValueCallback_republisher] at hp
    exact Or.inl hp
  deleted v hv := by
    rw [DhtDbase.dhtValueCallback_puts]
    obtain ⟨-, j, port, rfl | ⟨rfl, -⟩⟩ := haddr _ hput
    · rw [(DhtDbase.dhtValueCallback_plain (plain_address j port)).1] at hv
      exact Or.inl hv
    · rw [(DhtDbase.dhtValueCallback_mark ..).1, Dict.get?_set_self] at hv
      obtain rfl := Option.some.inj hv
      exact Or.inr hput
  updates u hu := by
    obtain ⟨-, j, port, rfl | ⟨rfl, -⟩⟩ := haddr _ hput
    · rw [(DhtDbase.dhtValueCallback_plain (plain_address j port)).2] at hu
      split_ifs at hu
      · exact Or.inl hu
      · rcases List.mem_append.mp hu with hu | hu
        · exact Or.inl hu
        · obtain rfl := List.mem_singleton.mp hu
          exact Or.inr ⟨rfl, j, port, rfl⟩
    · rw [(DhtDbase.dhtValueCallback_mark ..).2] at hu
      exact Or.inl (List.mem_of_mem_filter hu)
  clients c hc := by
    rw [DhtDbase.clientsOf_dhtValueCallback] at hc
    exact Or.inl hc

theorem changes_dhtRepublish (i : Fin n) (event : ℕ) {d : DhtDbase} (hbacked : d.Backed) :
    Changes g i d (d.dhtRepublish event) where
  puts p hp := (hbacked.mem_dhtRepublish_puts event p).mpr hp
  addresses haddr p hp := by
    obtain ⟨hkey, j, port, hval⟩ := haddr p ((hbacked.mem_dhtRepublish_puts event p).mp hp)
    exact ⟨hkey, j, port, hval.imp_right fun h => ⟨h.1, (hbacked.mem_dhtRepublish_puts event _).mpr h.2⟩⟩
  republished p hp := Or.inl (DhtDbase.mem_dhtRepublish_republisher hp)
  deleted v hv := by
    rw [DhtDbase.dhtRepublish_deletedMap] at hv
    exact Or.inl hv
  updates u hu := by
    rw [DhtDbase.dhtRepublish_updates] at hu
    exact Or.inl hu
  clients c hc := by
    rw [DhtDbase.clientsOf_dhtRepublish] at hc
    exact Or.inl hc

end Serve

end GroupNet

end Riaps.Run
