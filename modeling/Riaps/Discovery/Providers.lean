import Riaps.Discovery.Clients

/-!
# Providers and clients

That no client misses a provider. A client that looked a key up has been sent, in
the reply or in an update since, every address that is registered under the key
(`Informed`), whichever of the two came first.

Two things keep the server from that. The database forgets no mark, so an
address that was unregistered is lost if it is registered again; and an address
that two actors registered is lost when one of them unregisters it. In a run
without such steps, and with names and addresses that can be read back
(`Orderly`), every client stays informed: `informed_run`.

A request is handled in two halves, the change of the database and the updates
to its clients. The invariant `Inv` has the updates that are still to be sent as
a parameter.
-/

namespace Riaps.Discovery

open Riaps.Foundation

namespace DiscoService

/-! ### What a client has been sent -/

/-- What a client of a key, whose actor has the socket `sock`, knows after a message: the reply to a
lookup is all it knows. -/
def receive (sock : ℕ) (key clientString : Text) (client : Client) (known : List Socket) : Sent → List Socket
  | .reply (.serviceLookup key' clientString' sockets) =>
    if key' = key ∧ clientString' = clientString then sockets else known
  | .reply _ => known
  | .update sock' upd => if sock' = sock ∧ upd.client = client then known ++ [upd.socket] else known

/-- What the client was sent in the reply to its latest lookup and after that. -/
def received (sock : ℕ) (key clientString : Text) (client : Client) (log : List Sent) : List Socket :=
  log.foldl (receive sock key clientString client) []

theorem received_concat (sock : ℕ) (key clientString : Text) (client : Client) (log : List Sent) (m : Sent) :
    received sock key clientString client (log ++ [m]) =
      receive sock key clientString client (received sock key clientString client log) m := by
  simp [received]

/-- An address is registered under a key: an actor has it registered, or the database has it still (an
actor that registers anew leaves its services there). -/
def Registered (s : DiscoService) (key value : Text) : Prop :=
  (∃ regKey pairs, s.registrations.get? regKey = some pairs ∧ (key, value) ∈ pairs) ∨ s.dbase.Live key value

/-- An actor is enrolled with a client of a key. -/
def Enrolled (s : DiscoService) (regKey key clientString : Text) : Prop :=
  ∃ pairs, s.enrollments.get? regKey = some pairs ∧ (key, clientString) ∈ pairs

/-- **No provider is lost**: every enrolled client has been sent every address that is registered under
its key, and what was sent in updates went to the socket that its actor has now. -/
def Informed (host : Host) (s : DiscoService) : Prop :=
  ∀ appName scope client key, Names appName client →
    Enrolled s (appActorName appName client.actorName) key (clientString host appName scope client) →
    ∃ sock, s.clients.get? (clientKeyBase appName client.actorName) = some (.sock sock) ∧
      ∀ socket, Registered s key (socketValue socket) →
        socket ∈ received sock key (clientString host appName scope client) client s.sent

/-! ### Orderly steps -/

/-- No actor but one has the pair registered. -/
def OnlyBy (s : DiscoService) (regKey : Text) (p : Text × Text) : Prop :=
  ∀ i ∈ s.registrations.items, p ∈ i.2 → i.1 = regKey

instance (s : DiscoService) (regKey : Text) (p : Text × Text) : Decidable (OnlyBy s regKey p) :=
  inferInstanceAs (Decidable (∀ i ∈ s.registrations.items, p ∈ i.2 → i.1 = regKey))

/-- An event that loses no provider: names and addresses can be read back, a client is of this host, an
address that is registered has no mark under its key, and what is unregistered is registered by no
other actor. -/
def Orderly (host : Host) (s : DiscoService) : Event → Prop
  | .request (.actorReg appName _ actorName _) _ => '/' ∉ appName ∧ '/' ∉ actorName
  | .request (.actorUnreg appName _ actorName) _ =>
    ∀ p ∈ (s.registrations.get? (appActorName appName actorName)).getD [],
      OnlyBy s (appActorName appName actorName) p
  | .request (.serviceReg path socket) _ =>
    ':' ∉ socket.host ∧ socket.host.head? ≠ some '-' ∧
      ∀ p ∈ (s.buildInsertKeyValuePair host path socket).toOption, (p.1, delValue p.2) ∉ s.dbase.puts
  | .request (.serviceUnreg path socket) _ =>
    ∀ p ∈ (s.buildInsertKeyValuePair host path socket).toOption,
      OnlyBy s (appActorName path.appName path.actorName) p
  | .request (.serviceLookup path client) _ | .request (.serviceUnlookup path client) _ =>
    Names path.appName client ∧ client.actorHost = host.hostAddress
  | .timeout | .dhtValueCallback .. | .dhtRepublish _ => True

instance (host : Host) (s : DiscoService) : ∀ e : Event, Decidable (Orderly host s e)
  | .request (.actorReg ..) _ => inferInstanceAs (Decidable (_ ∧ _))
  | .request (.actorUnreg ..) _ => inferInstanceAs (Decidable (∀ p ∈ _, OnlyBy s _ p))
  | .request (.serviceReg ..) _ => inferInstanceAs (Decidable (_ ∧ _ ∧ ∀ p ∈ Except.toOption _, _ ∉ _))
  | .request (.serviceUnreg ..) _ => inferInstanceAs (Decidable (∀ p ∈ Except.toOption _, OnlyBy s _ p))
  | .request (.serviceLookup ..) _ | .request (.serviceUnlookup ..) _ => inferInstanceAs (Decidable (_ ∧ _))
  | .timeout | .dhtValueCallback .. | .dhtRepublish _ => isTrue trivial

/-! ### The invariant -/

/-- The client is served: it is on the list of its key, and it has been sent what is there, or is about
to be sent it by the `pending` updates. -/
structure Serves (host : Host) (s : DiscoService) (pending : List (Text × Text × List Text)) (key : Text)
    (appName : Text) (scope : Scope) (client : Client) : Prop where
  names : Names appName client
  actorHost : client.actorHost = host.hostAddress
  listed : clientString host appName scope client ∈ s.dbase.clientsOf key
  told : ∀ sock, s.clients.get? (clientKeyBase appName client.actorName) = some (.sock sock) →
    ∀ socket, s.dbase.Live key (socketValue socket) →
      socket ∈ received sock key (clientString host appName scope client) client s.sent ∨
        ∃ u ∈ pending, u.2.1 = socketValue socket ∧ clientString host appName scope client ∈ u.2.2

/-- The values of the table are addresses and marks, and what is put again is in it. -/
structure Addresses (d : DhtDbase) : Prop where
  address : ∀ p ∈ d.puts, isDelValue p.2 = true ∨ ∃ socket, ':' ∉ socket.host ∧ p.2 = socketValue socket
  backed : d.Backed

/-- The invariant of a run of orderly steps. -/
structure Inv (host : Host) (s : DiscoService) (pending : List (Text × Text × List Text)) : Prop where
  addresses : Addresses s.dbase
  registered : ∀ regKey pairs, s.registrations.get? regKey = some pairs → ∀ p ∈ pairs, s.dbase.Live p.1 p.2
  socks : ∀ regKey ∈ s.enrollments, ∃ sock, s.clients.get? ('/' :: (regKey ++ ['/'])) = some (.sock sock)
  enrolled : ∀ regKey key c, Enrolled s regKey key c →
    ∃ appName scope client, regKey = appActorName appName client.actorName ∧
      c = clientString host appName scope client ∧ Serves host s pending key appName scope client

variable {host : Host} {s s' : DiscoService} {pending pending' : List (Text × Text × List Text)}

theorem Inv.init : Inv host init [] where
  addresses := ⟨fun p hp => absurd hp (by simp [DiscoService.init, DhtDbase.init]),
    fun p hp => absurd hp (by simp [DiscoService.init, DhtDbase.init, Republisher.init])⟩
  registered regKey pairs h := absurd h (by simp [DiscoService.init])
  socks regKey h := absurd h (by simp [DiscoService.init])
  enrolled regKey key c := by
    rintro ⟨pairs, h, -⟩
    exact absurd h (by simp [DiscoService.init])

/-- The invariant is what it takes for every client to be informed. -/
theorem Inv.informed (h : Inv host s []) : Informed host s := by
  intro appName scope client key hnames henr
  obtain ⟨appName', scope', client', -, hc, hs⟩ := h.enrolled _ _ _ henr
  obtain ⟨rfl, rfl⟩ := clientString_inj hnames hs.names hc
  obtain ⟨pairs, hpairs, -⟩ := henr
  obtain ⟨sock, hsock⟩ := h.socks _ (Dict.mem_of_get? hpairs)
  rw [← clientKeyBase_eq] at hsock
  refine ⟨sock, hsock, fun socket hreg => ?_⟩
  have hlive : s.dbase.Live key (socketValue socket) := by
    rcases hreg with ⟨regKey, pairs, hget, hmem⟩ | hlive
    · exact h.registered regKey pairs hget _ hmem
    · exact hlive
  rw [hc]
  exact (hs.told sock hsock socket hlive).resolve_right (by simp)

/-! ### Steps of the database -/

section Database

variable {d : DhtDbase} (h : Addresses d)

include h

theorem Addresses.of_puts {d' : DhtDbase} (hputs : ∀ p, p ∈ d'.puts ↔ p ∈ d.puts) (hbacked : d'.Backed) :
    Addresses d' :=
  ⟨fun p hp => h.address p ((hputs p).mp hp), hbacked⟩

/-- A step that leaves the table and the republisher. -/
theorem Addresses.of_eq {d' : DhtDbase} (hputs : d'.puts = d.puts) (hrep : d'.republisher = d.republisher) :
    Addresses d' :=
  h.of_puts (fun p => by rw [hputs]) (h.backed.of_eq hputs hrep)

theorem Addresses.insert (dht : Dht) (key : Text) {socket : Socket} (hsocket : ':' ∉ socket.host) :
    Addresses (d.insert dht key (socketValue socket)).1 where
  address p hp := by
    rcases (DhtDbase.mem_insert_puts ..).mp hp with rfl | hp
    · exact Or.inr ⟨socket, hsocket, rfl⟩
    · exact h.address p hp
  backed := h.backed.insert dht key _

theorem Addresses.remove (dht : Dht) (key value : Text) : Addresses (d.remove dht key value).1 where
  address p hp := by
    rcases (DhtDbase.mem_remove_puts ..).mp hp with hp | ⟨rfl, -⟩
    · exact h.address p hp
    · exact Or.inl (isDelValue_delValue value)
  backed := h.backed.remove dht key value

theorem Addresses.removeAll (dht : Dht) (pairs : List (Text × Text)) : Addresses (removeAll dht pairs d) := by
  induction pairs generalizing d with
  | nil => exact h
  | cons p pairs ih => exact ih (h.remove dht p.1 p.2)

/-- The table has no empty value. -/
theorem Addresses.nonempty (key : Text) : (key, []) ∉ d.puts := by
  intro hp
  rcases h.address _ hp with hdel | ⟨socket, -, hv⟩
  · exact absurd hdel (by simp [isDelValue])
  · exact absurd hv (by simp [socketValue])

/-- What is there reads back. -/
theorem Addresses.readSocket_of_live {key value : Text} (hlive : d.Live key value) :
    ∃ socket, ':' ∉ socket.host ∧ value = socketValue socket := by
  obtain ⟨hplain, hput, -⟩ := hlive
  rcases h.address _ hput with hdel | hsocket
  · exact absurd hdel (by simp [hplain.2])
  · exact hsocket

end Database

theorem live_removeAll (dht : Dht) (pairs : List (Text × Text)) (d : DhtDbase) (key value : Text) :
    (removeAll dht pairs d).Live key value ↔ d.Live key value ∧ (key, value) ∉ pairs := by
  induction pairs generalizing d with
  | nil => simp [removeAll]
  | cons p pairs ih =>
    change (removeAll dht pairs (d.remove dht p.1 p.2).1).Live key value ↔ _
    rw [ih, DhtDbase.live_remove, List.mem_cons, not_or, and_assoc]

@[simp] theorem clientsOf_removeAll (dht : Dht) (pairs : List (Text × Text)) (d : DhtDbase) (key : Text) :
    (removeAll dht pairs d).clientsOf key = d.clientsOf key := by
  induction pairs generalizing d with
  | nil => rfl
  | cons p pairs ih => exact (ih _).trans (DhtDbase.clientsOf_remove ..)

@[simp] theorem detachAll_puts (pairs : List (Text × Text)) (d : DhtDbase) : (detachAll pairs d).puts = d.puts := by
  induction pairs generalizing d with
  | nil => rfl
  | cons p pairs ih => exact (ih _).trans (DhtDbase.detach_puts ..)

@[simp] theorem detachAll_republisher (pairs : List (Text × Text)) (d : DhtDbase) :
    (detachAll pairs d).republisher = d.republisher := by
  induction pairs generalizing d with
  | nil => rfl
  | cons p pairs ih => exact (ih _).trans (DhtDbase.detach_republisher ..)

theorem mem_clientsOf_detachAll {pairs : List (Text × Text)} {d : DhtDbase} {key c : Text}
    (h : c ∈ d.clientsOf key) (hne : (key, c) ∉ pairs) : c ∈ (detachAll pairs d).clientsOf key := by
  induction pairs generalizing d with
  | nil => exact h
  | cons p pairs ih =>
    rw [List.mem_cons, not_or] at hne
    exact ih (DhtDbase.mem_clientsOf_detach h hne.1) hne.2

/-! ### Updates -/

/-- From `s` to `s'` some updates are sent, and no exception ended. -/
structure Updates (s s' : DiscoService) : Prop where
  dbase : s'.dbase = s.dbase
  registrations : s'.registrations = s.registrations
  clients : s'.clients = s.clients
  enrollments : s'.enrollments = s.enrollments
  sent : ∃ upds : List (ℕ × PortUpd), s'.sent = s.sent ++ upds.map fun u => .update u.1 u.2
  exc : s'.exc = none → s.exc = none

theorem Updates.refl (s : DiscoService) : Updates s s := ⟨rfl, rfl, rfl, rfl, ⟨[], by simp⟩, id⟩

theorem Updates.fail (e : Exc) (s : DiscoService) : Updates s (s.fail e) :=
  ⟨rfl, rfl, rfl, rfl, ⟨[], by simp [DiscoService.fail]⟩, fun h => absurd h (by simp [DiscoService.fail])⟩

theorem Updates.trans {t : DiscoService} (h : Updates s s') (h' : Updates s' t) : Updates s t where
  dbase := h'.dbase.trans h.dbase
  registrations := h'.registrations.trans h.registrations
  clients := h'.clients.trans h.clients
  enrollments := h'.enrollments.trans h.enrollments
  sent := by
    obtain ⟨upds, hupds⟩ := h.sent
    obtain ⟨upds', hupds'⟩ := h'.sent
    exact ⟨upds ++ upds', by rw [hupds', hupds, List.map_append, List.append_assoc]⟩
  exc he := h.exc (h'.exc he)

theorem Updates.foldl {α : Type*} {f : DiscoService → α → DiscoService} (hf : ∀ s a, Updates s (f s a)) (l : List α)
    (s : DiscoService) : Updates s (l.foldl f s) := by
  induction l generalizing s with
  | nil => exact .refl s
  | cons a l ih => exact (hf s a).trans (ih (f s a))

theorem updates_updateClient (host : Host) (sockHost sockPort : Text) (s : DiscoService) (client : Text) :
    Updates s (updateClient host sockHost sockPort s client) := by
  unfold updateClient
  split_ifs with hexc
  · split
    · exact .fail _ s
    · split
      · exact .refl s
      · split_ifs
        · exact .refl s
        · split
          · exact .fail _ s
          · exact ⟨rfl, rfl, rfl, rfl, ⟨[(_, _)], rfl⟩, id⟩
          · exact .fail _ s
  · exact .refl s

theorem updates_handleUpdate (host : Host) (s : DiscoService) (u : Text × Text × List Text) :
    Updates s (handleUpdate host s u) := by
  unfold handleUpdate
  split_ifs
  · split
    · exact .foldl (updates_updateClient host _ _) _ s
    · exact .fail _ s
  · exact .refl s

/-- What a client was sent it was sent after updates, too. -/
theorem Updates.mem_received (h : Updates s s') {sock : ℕ} {key c : Text} {client : Client} {socket : Socket}
    (hmem : socket ∈ received sock key c client s.sent) : socket ∈ received sock key c client s'.sent := by
  obtain ⟨upds, hsent⟩ := h.sent
  rw [hsent]
  clear hsent
  induction upds using List.reverseRecOn with
  | nil => simpa using hmem
  | append_singleton upds u ih =>
    rw [List.map_append, List.map_singleton, ← List.append_assoc, received_concat, receive]
    split_ifs
    · exact List.mem_append_left _ ih
    · exact ih

/-- A client on the list of an update is sent it. -/
theorem mem_received_updateClients {sockHost sockPort appName c : Text} {port : Int32} {client : Client} {scope : Scope}
    {sock : ℕ} (hport : readPort sockPort = .ok port) (hread : readClient c = .ok (appName, client, scope))
    (hhost : client.actorHost = host.hostAddress) (key : Text) (cs : List Text) (hc : c ∈ cs)
    (hsock : s.clients.get? (clientKeyBase appName client.actorName) = some (.sock sock))
    (hexc : (cs.foldl (updateClient host sockHost sockPort) s).exc = none) :
    ⟨sockHost, port⟩ ∈ received sock key c client (cs.foldl (updateClient host sockHost sockPort) s).sent := by
  induction cs generalizing s with
  | nil => simp at hc
  | cons c' cs ih =>
    have hrest := Updates.foldl (updates_updateClient host sockHost sockPort) cs
      (updateClient host sockHost sockPort s c')
    rw [List.foldl_cons] at hexc ⊢
    rcases List.mem_cons.mp hc with rfl | hc
    · refine hrest.mem_received ?_
      have hs : s.exc = none := (updates_updateClient host sockHost sockPort s c).exc (hrest.exc hexc)
      rw [updateClient, if_pos hs]
      simp only [hread, hsock, hhost, ne_eq, not_true_eq_false, if_false, hport]
      rw [send, received_concat, receive, if_pos ⟨rfl, rfl⟩]
      exact List.mem_append_right _ (List.mem_singleton_self _)
    · exact ih hc (by rw [(updates_updateClient host sockHost sockPort s c').clients]; exact hsock) hexc

/-- The actor of a client has a socket. -/
def HasSocket (s : DiscoService) (c : Text) : Prop :=
  ∃ appName client scope sock, readClient c = .ok (appName, client, scope) ∧
    s.clients.get? (clientKeyBase appName client.actorName) = some (.sock sock)

/-- Clients of actors with sockets can be sent a port. -/
theorem exc_updateClients {sockHost sockPort : Text} {port : Int32} (hport : readPort sockPort = .ok port)
    {cs : List Text}
    (hcs : ∀ c ∈ cs, HasSocket s c) (hexc : s.exc = none) :
    (cs.foldl (updateClient host sockHost sockPort) s).exc = none := by
  induction cs generalizing s with
  | nil => exact hexc
  | cons c cs ih =>
    obtain ⟨⟨appName, client, scope, sock, hread, hsock⟩, hcs⟩ := List.forall_mem_cons.mp hcs
    rw [List.foldl_cons]
    have hupd := updates_updateClient host sockHost sockPort s c
    refine ih (fun c' hc' => ?_) ?_
    · unfold HasSocket
      rw [hupd.clients]
      exact hcs c' hc'
    · rw [updateClient, if_pos hexc]
      simp only [hread, hsock]
      split_ifs
      · exact hexc
      · simp only [hport]
        exact hexc

/-- Updates with addresses, for clients of actors with sockets, can be sent. -/
theorem exc_handleUpdates {us : List (Text × Text × List Text)}
    (hus : ∀ u ∈ us, (∃ socket, ':' ∉ socket.host ∧ u.2.1 = socketValue socket) ∧ ∀ c ∈ u.2.2, HasSocket s c)
    (hexc : s.exc = none) : (us.foldl (handleUpdate host) s).exc = none := by
  induction us generalizing s with
  | nil => exact hexc
  | cons u us ih =>
    obtain ⟨⟨⟨socket, hcolon, hval⟩, hcs⟩, hus⟩ := List.forall_mem_cons.mp hus
    rw [List.foldl_cons]
    have hupd := updates_handleUpdate host s u
    refine ih (fun u' hu' => ⟨(hus u' hu').1, fun c hc => ?_⟩) ?_
    · unfold HasSocket
      rw [hupd.clients]
      exact (hus u' hu').2 c hc
    · rw [handleUpdate, if_pos hexc, hval, splitOn_socketValue hcolon]
      exact exc_updateClients (readPort_strInt _) hcs hexc

/-- A client on the list of one of some updates is sent it. -/
theorem mem_received_handleUpdates {us : List (Text × Text × List Text)} {u : Text × Text × List Text} (hu : u ∈ us)
    {socket : Socket} (hcolon : ':' ∉ socket.host) (hval : u.2.1 = socketValue socket) {appName c : Text}
    {client : Client} {scope : Scope} {sock : ℕ} (hread : readClient c = .ok (appName, client, scope))
    (hhost : client.actorHost = host.hostAddress) (key : Text) (hc : c ∈ u.2.2)
    (hsock : s.clients.get? (clientKeyBase appName client.actorName) = some (.sock sock))
    (hexc : (us.foldl (handleUpdate host) s).exc = none) :
    socket ∈ received sock key c client (us.foldl (handleUpdate host) s).sent := by
  induction us generalizing s with
  | nil => simp at hu
  | cons u' us ih =>
    have hrest := Updates.foldl (updates_handleUpdate host) us (handleUpdate host s u')
    rw [List.foldl_cons] at hexc ⊢
    rcases List.mem_cons.mp hu with rfl | hu
    · refine hrest.mem_received ?_
      have hexc' := hrest.exc hexc
      have hs : s.exc = none := (updates_handleUpdate host s u).exc hexc'
      unfold handleUpdate at hexc' ⊢
      rw [if_pos hs, hval, splitOn_socketValue hcolon] at hexc' ⊢
      exact mem_received_updateClients (readPort_strInt _) hread hhost key _ hc hsock hexc'
    · exact ih hu (by rw [(updates_handleUpdate host s u').clients]; exact hsock) hexc

/-- Updates keep the invariant, whatever is pending. -/
theorem Inv.of_updates (h : Inv host s pending) (hupd : Updates s s')
    (hpending : ∀ key appName scope client sock socket, Serves host s pending key appName scope client →
      s.clients.get? (clientKeyBase appName client.actorName) = some (.sock sock) →
      s.dbase.Live key (socketValue socket) →
      (∃ u ∈ pending, u.2.1 = socketValue socket ∧ clientString host appName scope client ∈ u.2.2) →
      socket ∈ received sock key (clientString host appName scope client) client s'.sent ∨
        ∃ u ∈ pending', u.2.1 = socketValue socket ∧ clientString host appName scope client ∈ u.2.2) :
    Inv host s' pending' where
  addresses := by rw [hupd.dbase]; exact h.addresses
  registered := by rw [hupd.dbase, hupd.registrations]; exact h.registered
  socks := by rw [hupd.enrollments, hupd.clients]; exact h.socks
  enrolled regKey key c henr := by
    unfold Enrolled at henr
    rw [hupd.enrollments] at henr
    obtain ⟨appName, scope, client, hreg, hc, hs⟩ := h.enrolled regKey key c henr
    refine ⟨appName, scope, client, hreg, hc, hs.names, hs.actorHost, ?_, fun sock hsock socket hlive => ?_⟩
    · rw [hupd.dbase]
      exact hs.listed
    · rw [hupd.clients] at hsock
      rw [hupd.dbase] at hlive
      rcases hs.told sock hsock socket hlive with hmem | hpend
      · exact Or.inl (hupd.mem_received hmem)
      · exact hpending key appName scope client sock socket hs hsock hlive hpend

/-- An update that is handled is pending no more. -/
theorem Inv.handleUpdate {u : Text × Text × List Text} (h : Inv host s (u :: pending))
    (hexc : (handleUpdate host s u).exc = none) : Inv host (handleUpdate host s u) pending := by
  refine h.of_updates (updates_handleUpdate host s u) ?_
  rintro key appName scope client sock socket hs hsock hlive ⟨u', hu', hval, hmem⟩
  rcases List.mem_cons.mp hu' with rfl | hu'
  · left
    obtain ⟨socket', hcolon, heq⟩ := h.addresses.readSocket_of_live hlive
    obtain rfl := socketValue_inj hcolon heq.symm
    obtain ⟨scope', hread⟩ := readClient_clientString host scope hs.names
    exact mem_received_handleUpdates (List.mem_singleton_self u') hcolon hval hread hs.actorHost key hmem hsock hexc
  · exact Or.inr ⟨u', hu', hval, hmem⟩

/-- Once all updates are handled, none is pending. -/
theorem Inv.handleUpdates (h : Inv host s pending)
    (hexc : (pending.foldl (DiscoService.handleUpdate host) s).exc = none) :
    Inv host (pending.foldl (DiscoService.handleUpdate host) s) [] := by
  induction pending generalizing s with
  | nil => exact h
  | cons u us ih =>
    have hexc' := (Updates.foldl (updates_handleUpdate host) us _).exc hexc
    exact ih (h.handleUpdate hexc') hexc

/-! ### Requests -/

/-- A client that is served stays so, if what is new under its key is pending for it. -/
theorem Serves.of_step {key appName : Text} {scope : Scope} {client : Client}
    (h : Serves host s [] key appName scope client)
    (hlisted : clientString host appName scope client ∈ s'.dbase.clientsOf key)
    (hclients : s'.clients.get? (clientKeyBase appName client.actorName) =
      s.clients.get? (clientKeyBase appName client.actorName))
    (hlive : ∀ value, s'.dbase.Live key value → s.dbase.Live key value ∨
      ∃ u ∈ pending, u.2.1 = value ∧ clientString host appName scope client ∈ u.2.2)
    (hsent : ∀ sock socket, socket ∈ received sock key (clientString host appName scope client) client s.sent →
      socket ∈ received sock key (clientString host appName scope client) client s'.sent) :
    Serves host s' pending key appName scope client where
  names := h.names
  actorHost := h.actorHost
  listed := hlisted
  told sock hsock socket hl := by
    rw [hclients] at hsock
    rcases hlive _ hl with hl | hpend
    · exact Or.inl (hsent sock socket ((h.told sock hsock socket hl).resolve_right (by simp)))
    · exact Or.inr hpend

/-- The socket of an actor is the one that was bound last. -/
theorem get?_setupClient {appName actorName : Text} (happ : '/' ∉ appName) (hactor : '/' ∉ actorName) (isDevice : Bool)
    (port : ℕ) (s : DiscoService) (regKey : Text) :
    (s.setupClient host appName actorName isDevice port).clients.get? ('/' :: (regKey ++ ['/'])) =
      if regKey = appActorName appName actorName then some (.sock port)
      else s.clients.get? ('/' :: (regKey ++ ['/'])) := by
  unfold setupClient
  dsimp only
  rw [Dict.get?_set_of_ne _ _ (ne_appActorName happ hactor),
    Dict.get?_set_of_ne _ _ (ne_append_of_notMem host.hostAddress_ne host.slash_hostAddress),
    Dict.get?_set_of_ne _ _ (ne_append_of_notMem host.macAddress_ne host.slash_macAddress), Dict.get?_set,
    clientKeyBase_eq]
  simp

theorem Inv.handleActorReg (h : Inv host s []) {appName actorName : Text} (happ : '/' ∉ appName)
    (hactor : '/' ∉ actorName) (isDevice : Bool) (port : ℕ) :
    Inv host (s.handleActorReg host appName actorName isDevice port) [] where
  addresses := h.addresses
  registered regKey pairs hget p hp := by
    change (s.registrations.set _ _).get? regKey = _ at hget
    rw [Dict.get?_set] at hget
    split_ifs at hget
    · obtain rfl := Option.some.inj hget
      simp at hp
    · exact h.registered regKey pairs hget p hp
  socks regKey hreg := by
    change ∃ sock, (s.setupClient host appName actorName isDevice port).clients.get? _ = _
    rw [get?_setupClient happ hactor]
    split_ifs with hkey
    · exact ⟨port, rfl⟩
    · refine h.socks regKey ?_
      rw [Dict.mem_iff_exists_get?] at hreg ⊢
      change ∃ v, (s.enrollments.set _ _).get? regKey = some v at hreg
      rwa [Dict.get?_set, if_neg hkey] at hreg
  enrolled regKey key c henr := by
    obtain ⟨pairs, hget, hmem⟩ := henr
    change (s.enrollments.set _ _).get? regKey = _ at hget
    rw [Dict.get?_set] at hget
    split_ifs at hget with hkey
    · obtain rfl := Option.some.inj hget
      simp at hmem
    · obtain ⟨appName', scope, client, hreg, hc, hs⟩ := h.enrolled regKey key c ⟨pairs, hget, hmem⟩
      refine ⟨appName', scope, client, hreg, hc, hs.of_step hs.listed ?_ (fun value => Or.inl) fun sock socket hr => ?_⟩
      · change (s.setupClient host appName actorName isDevice port).clients.get? _ = _
        rw [clientKeyBase_eq, ← hreg, get?_setupClient happ hactor, if_neg hkey]
      · change socket ∈ received sock key _ client (s.sent ++ [_])
        rw [received_concat]
        exact hr

/-- A service that is registered without an exception. -/
theorem handleServiceReg_cases {dht : Dht} {path : Path} {socket : Socket}
    (hexc : (s.handleServiceReg host dht path socket).exc = none) :
    ∃ key registered, s.buildInsertKeyValuePair host path socket = .ok (key, socketValue socket) ∧
      s.registrations.get? (appActorName path.appName path.actorName) = some registered ∧
      s.handleServiceReg host dht path socket =
        { s with
          dbase := (s.dbase.insert dht key (socketValue socket)).1
          registrations := s.registrations.set (appActorName path.appName path.actorName)
            (registered.insert (key, socketValue socket))
          sent := s.sent ++ [.reply .serviceReg]
          clientUpdates :=
            if (s.dbase.insert dht key (socketValue socket)).2 = [] then s.clientUpdates
            else s.clientUpdates ++
              [(key, socketValue socket, (s.dbase.insert dht key (socketValue socket)).2)] } := by
  unfold handleServiceReg at hexc ⊢
  unfold buildInsertKeyValuePair at hexc ⊢
  cases hkey : s.buildKey host path.appName path.actorName path.msgType path.kind path.scope with
  | error e => simp [hkey, fail] at hexc
  | ok key =>
    simp only [hkey] at hexc ⊢
    cases hreg : s.registrations.get? (appActorName path.appName path.actorName) with
    | none => simp [hreg, fail] at hexc
    | some registered =>
      refine ⟨key, registered, rfl, rfl, ?_⟩
      dsimp only
      split_ifs <;> rfl

theorem Inv.handleServiceReg (h : Inv host s []) (dht : Dht) {path : Path} {socket : Socket}
    (hcolon : ':' ∉ socket.host) (hdash : socket.host.head? ≠ some '-')
    (hmark : ∀ p ∈ (s.buildInsertKeyValuePair host path socket).toOption, (p.1, delValue p.2) ∉ s.dbase.puts)
    (hexc : (s.handleServiceReg host dht path socket).exc = none) :
    Inv host (s.handleServiceReg host dht path socket) (s.handleServiceReg host dht path socket).clientUpdates := by
  obtain ⟨key, registered, hbuild, hreg, heq⟩ := handleServiceReg_cases hexc
  replace hmark : (key, delValue (socketValue socket)) ∉ s.dbase.puts :=
    hmark (key, socketValue socket) (by rw [hbuild]; rfl)
  have hlive := DhtDbase.live_insert dht (plain_socketValue hdash) hmark
  rw [heq]
  refine ⟨h.addresses.insert dht key hcolon, ?_, h.socks, ?_⟩
  · intro regKey pairs hget p hp
    rw [hlive]
    dsimp only at hget
    rw [Dict.get?_set] at hget
    split_ifs at hget
    · obtain rfl := Option.some.inj hget
      rcases List.mem_insert_iff.mp hp with rfl | hp
      · exact Or.inr rfl
      · exact Or.inl (h.registered _ registered hreg p hp)
    · exact Or.inl (h.registered regKey pairs hget p hp)
  · intro regKey key' c henr
    obtain ⟨appName, scope, client, hkey, hc, hs⟩ := h.enrolled regKey key' c henr
    refine ⟨appName, scope, client, hkey, hc, hs.of_step ?_ rfl (fun value hl => ?_) fun sock socket' hr => ?_⟩
    · simpa using hs.listed
    · rcases (hlive key' value).mp hl with hl | hnew
      · exact Or.inl hl
      obtain ⟨rfl, rfl⟩ := Prod.mk.inj hnew
      by_cases hput : (key', socketValue socket) ∈ s.dbase.puts
      · exact Or.inl ⟨plain_socketValue hdash, hput, hmark⟩
      · right
        have hclients : (s.dbase.insert dht key' (socketValue socket)).2 = s.dbase.clientsOf key' := by
          rw [DhtDbase.insert_clients, if_neg hput]
        have hne : s.dbase.clientsOf key' ≠ [] := List.ne_nil_of_mem hs.listed
        dsimp only
        rw [hclients, if_neg hne]
        exact ⟨_, List.mem_append_right _ (List.mem_singleton_self _), rfl, hs.listed⟩
    · dsimp only
      rw [received_concat]
      exact hr

/-- A service that is unregistered without an exception. -/
theorem handleServiceUnreg_cases {dht : Dht} {path : Path} {socket : Socket}
    (hexc : (s.handleServiceUnreg host dht path socket).exc = none) :
    ∃ key registered, s.buildInsertKeyValuePair host path socket = .ok (key, socketValue socket) ∧
      s.registrations.get? (appActorName path.appName path.actorName) = some registered ∧
      s.handleServiceUnreg host dht path socket =
        { s with
          dbase := (s.dbase.remove dht key (socketValue socket)).1
          registrations := s.registrations.set (appActorName path.appName path.actorName)
            (registered.filter (· ≠ (key, socketValue socket)))
          sent := s.sent ++ [.reply .serviceUnreg] } := by
  unfold handleServiceUnreg at hexc ⊢
  unfold buildInsertKeyValuePair at hexc ⊢
  cases hkey : s.buildKey host path.appName path.actorName path.msgType path.kind path.scope with
  | error e => simp [hkey, fail] at hexc
  | ok key =>
    simp only [hkey] at hexc ⊢
    cases hreg : s.registrations.get? (appActorName path.appName path.actorName) with
    | none => simp [hreg, fail] at hexc
    | some registered => exact ⟨key, registered, rfl, rfl, rfl⟩

theorem Inv.handleServiceUnreg (h : Inv host s []) (dht : Dht) {path : Path} {socket : Socket}
    (honly : ∀ p ∈ (s.buildInsertKeyValuePair host path socket).toOption,
      OnlyBy s (appActorName path.appName path.actorName) p)
    (hexc : (s.handleServiceUnreg host dht path socket).exc = none) :
    Inv host (s.handleServiceUnreg host dht path socket) [] := by
  obtain ⟨key, registered, hbuild, hreg, heq⟩ := handleServiceUnreg_cases hexc
  replace honly := honly (key, socketValue socket) (by rw [hbuild]; rfl)
  rw [heq]
  refine ⟨h.addresses.remove dht key _, ?_, h.socks, ?_⟩
  · intro regKey pairs hget p hp
    rw [DhtDbase.live_remove]
    dsimp only at hget
    rw [Dict.get?_set] at hget
    split_ifs at hget with hkey
    · obtain rfl := Option.some.inj hget
      obtain ⟨hp, hne⟩ := List.mem_filter.mp hp
      exact ⟨h.registered _ registered hreg p hp, of_decide_eq_true hne⟩
    · refine ⟨h.registered regKey pairs hget p hp, fun hpe => hkey ?_⟩
      exact honly (regKey, pairs) (Dict.get?_eq_some_iff.mp hget) (hpe ▸ hp)
  · intro regKey key' c henr
    obtain ⟨appName, scope, client, hkey, hc, hs⟩ := h.enrolled regKey key' c henr
    refine ⟨appName, scope, client, hkey, hc, hs.of_step ?_ rfl (fun value hl => ?_) fun sock socket' hr => ?_⟩
    · simpa using hs.listed
    · exact Or.inl ((DhtDbase.live_remove ..).mp hl).1
    · dsimp only
      rw [received_concat]
      exact hr

theorem eq_of_buildLookupKey {path : Path} {client : Client} {key c : Text}
    (h : s.buildLookupKey host path client = .ok (key, c)) : c = clientString host path.appName path.scope client := by
  unfold buildLookupKey at h
  split at h
  · cases h
  · split at h
    · cases h
    · exact (Prod.mk.inj (Except.ok.inj h)).2.symm

/-- A lookup without an exception. -/
theorem handleServiceLookup_cases {dht : Dht} {path : Path} {client : Client}
    (hexc : (s.handleServiceLookup host dht path client).exc = none) :
    ∃ key values enrolled sockets,
      s.buildLookupKey host path client = .ok (key, clientString host path.appName path.scope client) ∧
      (s.dbase.fetch dht key (clientString host path.appName path.scope client)).2 = .ok values ∧
      s.enrollments.get? (appActorName path.appName client.actorName) = some enrolled ∧
      values.mapM readSocket = .ok sockets ∧
      s.handleServiceLookup host dht path client =
        { s with
          dbase := (s.dbase.fetch dht key (clientString host path.appName path.scope client)).1
          enrollments := s.enrollments.set (appActorName path.appName client.actorName)
            (enrolled.insert (key, clientString host path.appName path.scope client))
          sent := s.sent ++
            [.reply (.serviceLookup key (clientString host path.appName path.scope client) sockets)] } := by
  unfold handleServiceLookup at hexc ⊢
  cases hbuild : s.buildLookupKey host path client with
  | error e => simp [hbuild, fail] at hexc
  | ok p =>
    obtain ⟨key, c⟩ := p
    obtain rfl := eq_of_buildLookupKey hbuild
    simp only [hbuild] at hexc ⊢
    cases hfetch : (s.dbase.fetch dht key (clientString host path.appName path.scope client)).2 with
    | error e => simp [hfetch, fail] at hexc
    | ok values =>
      cases hreg : s.enrollments.get? (appActorName path.appName client.actorName) with
      | none => simp [hfetch, hreg, fail] at hexc
      | some enrolled =>
        cases hsockets : values.mapM readSocket with
        | error e => simp [hfetch, hreg, hsockets, fail] at hexc
        | ok sockets => exact ⟨key, values, enrolled, sockets, rfl, hfetch, rfl, hsockets, by simp [hsockets, send]⟩

/-- What is read from a list that is read without an exception. -/
theorem mem_of_mapM_readSocket {values : List Text} {sockets : List Socket} (h : values.mapM readSocket = .ok sockets)
    {value : Text} {socket : Socket} (hmem : value ∈ values) (hread : readSocket value = .ok socket) :
    socket ∈ sockets := by
  induction values generalizing sockets with
  | nil => simp at hmem
  | cons v values ih =>
    rw [List.mapM_cons] at h
    cases hv : readSocket v with
    | error e => simp [hv, bind, Except.bind] at h
    | ok a =>
      cases hvs : values.mapM readSocket with
      | error e => simp [hv, hvs, bind, Except.bind] at h
      | ok as =>
        obtain rfl : a :: as = sockets := by simpa [hv, hvs, bind, Except.bind, pure, Except.pure] using h
        rcases List.mem_cons.mp hmem with rfl | hmem
        · rw [hv] at hread
          exact List.mem_cons.mpr (Or.inl (Except.ok.inj hread).symm)
        · exact List.mem_cons_of_mem _ (ih hvs hmem)

theorem Inv.handleServiceLookup (h : Inv host s []) (dht : Dht) {path : Path} {client : Client}
    (hnames : Names path.appName client) (hhost : client.actorHost = host.hostAddress)
    (hexc : (s.handleServiceLookup host dht path client).exc = none) :
    Inv host (s.handleServiceLookup host dht path client) [] := by
  obtain ⟨key, values, enrolled, sockets, -, hfetch, henr, hsockets, heq⟩ := handleServiceLookup_cases hexc
  have hmem := DhtDbase.mem_clientsOf_fetch dht key (clientString host path.appName path.scope client) s.dbase
  rw [heq]
  refine ⟨h.addresses.of_eq rfl rfl, h.registered,
    fun regKey hreg => h.socks regKey (Dict.mem_of_mem_set (Dict.mem_of_get? henr) hreg), ?_⟩
  · rintro regKey key' c ⟨pairs, hget, hpair⟩
    by_cases hnew : (key', c) = (key, clientString host path.appName path.scope client)
    · -- the client of the lookup, whatever it was enrolled as before
      obtain ⟨rfl, rfl⟩ := Prod.mk.inj hnew
      have hregKey : regKey = appActorName path.appName client.actorName := by
        by_contra hne
        dsimp only at hget
        rw [Dict.get?_set, if_neg hne] at hget
        obtain ⟨appName', scope', client', hkey, hc, hs⟩ := h.enrolled regKey key' _ ⟨pairs, hget, hpair⟩
        obtain ⟨rfl, rfl⟩ := clientString_inj hnames hs.names hc
        exact hne hkey
      refine ⟨path.appName, path.scope, client, hregKey, rfl, hnames, hhost, (hmem key' _).mpr (Or.inl rfl), ?_⟩
      intro sock hsock socket hlive
      left
      rw [received_concat, receive, if_pos ⟨rfl, rfl⟩]
      obtain ⟨values', hvalues', hiff⟩ := DhtDbase.mem_fetch dht (h.addresses.nonempty key')
        (clientString host path.appName path.scope client)
      obtain rfl := Except.ok.inj (hfetch.symm.trans hvalues')
      obtain ⟨socket', hcolon, hval⟩ := h.addresses.readSocket_of_live hlive
      obtain rfl := socketValue_inj hcolon hval.symm
      exact mem_of_mapM_readSocket hsockets ((hiff _).mpr hlive) (readSocket_socketValue hcolon)
    · have hold : Enrolled s regKey key' c := by
        dsimp only at hget
        rw [Dict.get?_set] at hget
        split_ifs at hget with hkey
        · obtain rfl := Option.some.inj hget
          exact ⟨enrolled, hkey ▸ henr, (List.mem_insert_iff.mp hpair).resolve_left hnew⟩
        · exact ⟨pairs, hget, hpair⟩
      obtain ⟨appName', scope', client', hkey, hc, hs⟩ := h.enrolled regKey key' c hold
      refine ⟨appName', scope', client', hkey, hc, hs.of_step ?_ rfl (fun value => Or.inl) fun sock socket hr => ?_⟩
      · exact (hmem key' _).mpr (Or.inr hs.listed)
      · dsimp only
        rw [received_concat, receive, if_neg (fun he => hnew (by rw [hc, he.1, he.2]))]
        exact hr

/-- The end of a lookup, without an exception. -/
theorem handleServiceUnlookup_cases {path : Path} {client : Client}
    (hexc : (s.handleServiceUnlookup host path client).exc = none) :
    ∃ key enrolled, s.buildLookupKey host path client = .ok (key, clientString host path.appName path.scope client) ∧
      s.enrollments.get? (appActorName path.appName client.actorName) = some enrolled ∧
      s.handleServiceUnlookup host path client =
        { s with
          dbase := s.dbase.detach key (clientString host path.appName path.scope client)
          enrollments := s.enrollments.set (appActorName path.appName client.actorName)
            (enrolled.filter (· ≠ (key, clientString host path.appName path.scope client)))
          sent := s.sent ++ [.reply .serviceUnlookup] } := by
  unfold handleServiceUnlookup at hexc ⊢
  cases hbuild : s.buildLookupKey host path client with
  | error e => simp [hbuild, fail] at hexc
  | ok p =>
    obtain ⟨key, c⟩ := p
    obtain rfl := eq_of_buildLookupKey hbuild
    simp only [hbuild] at hexc ⊢
    cases hreg : s.enrollments.get? (appActorName path.appName client.actorName) with
    | none => simp [hreg, fail] at hexc
    | some enrolled => exact ⟨key, enrolled, rfl, rfl, rfl⟩

theorem Inv.handleServiceUnlookup (h : Inv host s []) {path : Path} {client : Client}
    (hnames : Names path.appName client) (hexc : (s.handleServiceUnlookup host path client).exc = none) :
    Inv host (s.handleServiceUnlookup host path client) [] := by
  obtain ⟨key, enrolled, -, henr, heq⟩ := handleServiceUnlookup_cases hexc
  have hputs : ∀ p, p ∈ (s.dbase.detach key (clientString host path.appName path.scope client)).puts ↔
      p ∈ s.dbase.puts := fun p => by rw [DhtDbase.detach_puts]
  have hlive := DhtDbase.live_congr hputs
  rw [heq]
  refine ⟨h.addresses.of_eq (DhtDbase.detach_puts ..) (DhtDbase.detach_republisher ..),
    fun regKey pairs hget p hp => ?_,
    fun regKey hreg => h.socks regKey (Dict.mem_of_mem_set (Dict.mem_of_get? henr) hreg), ?_⟩
  · exact (hlive ..).mpr (h.registered regKey pairs hget p hp)
  · rintro regKey key' c ⟨pairs, hget, hpair⟩
    dsimp only at hget
    rw [Dict.get?_set] at hget
    have hold : Enrolled s regKey key' c ∧
        (regKey = appActorName path.appName client.actorName →
          (key', c) ≠ (key, clientString host path.appName path.scope client)) := by
      split_ifs at hget with hkey
      · obtain rfl := Option.some.inj hget
        obtain ⟨hpair, hne⟩ := List.mem_filter.mp hpair
        exact ⟨⟨enrolled, hkey ▸ henr, hpair⟩, fun _ => of_decide_eq_true hne⟩
      · exact ⟨⟨pairs, hget, hpair⟩, fun he => absurd he hkey⟩
    obtain ⟨appName', scope', client', hkey, hc, hs⟩ := h.enrolled regKey key' c hold.1
    have hne : (key', c) ≠ (key, clientString host path.appName path.scope client) := by
      intro he
      obtain ⟨rfl, rfl⟩ := clientString_inj hnames hs.names ((Prod.mk.inj he).2.symm.trans hc)
      exact hold.2 hkey he
    refine ⟨appName', scope', client', hkey, hc, hs.of_step ?_ rfl (fun value hl => ?_) fun sock socket hr => ?_⟩
    · exact DhtDbase.mem_clientsOf_detach hs.listed (hc ▸ hne)
    · exact Or.inl ((hlive ..).mp hl)
    · dsimp only
      rw [received_concat]
      exact hr

/-- An actor that is removed without an exception: it was no client, or all it has registered and looked
up goes with it. -/
theorem unsetupClient_cases {dht : Dht} {appName actorName : Text}
    (hexc : (s.unsetupClient host dht appName actorName).1.exc = none) :
    s.clients.get? (clientKeyBase appName actorName) = none ∧ (s.unsetupClient host dht appName actorName).1 = s ∨
      (∃ sock port entry, s.clients.get? (clientKeyBase appName actorName) = some (.sock sock) ∧
        s.clients.get? (clientKeyBase appName actorName ++ host.macAddress) = some (.port port) ∧
        s.clients.get? (clientKeyBase appName actorName ++ host.hostAddress) = some entry) ∧
      (s.unsetupClient host dht appName actorName).1 =
        { s with
          clients := s.clients.delAll
            [clientKeyBase appName actorName, clientKeyBase appName actorName ++ host.macAddress,
              clientKeyBase appName actorName ++ host.hostAddress]
          devices := s.devices.filter (· ≠ clientKeyBase appName actorName)
          dbase := detachAll ((s.enrollments.get? (appActorName appName actorName)).getD [])
            (removeAll dht ((s.registrations.get? (appActorName appName actorName)).getD []) s.dbase)
          registrations := s.registrations.del (appActorName appName actorName)
          enrollments := s.enrollments.del (appActorName appName actorName) } := by
  unfold unsetupClient at hexc ⊢
  cases hbase : s.clients.get? (clientKeyBase appName actorName) with
  | none => exact Or.inl ⟨rfl, by simp only [hbase]⟩
  | some sock =>
    cases hmac : s.clients.get? (clientKeyBase appName actorName ++ host.macAddress) with
    | none => simp [hbase, hmac, fail] at hexc
    | some port =>
      cases hhost : s.clients.get? (clientKeyBase appName actorName ++ host.hostAddress) with
      | none => simp [hbase, hmac, hhost, fail] at hexc
      | some _ =>
        right
        simp only [hbase, hmac, hhost] at hexc ⊢
        split at hexc
        · contradiction
        · contradiction
        · contradiction
        · split_ifs at hexc ⊢
          · exact ⟨⟨_, _, _, ‹_›, ‹_›, ‹_›⟩, rfl⟩
          · simp [fail] at hexc
          · simp [fail] at hexc
        · simp [fail] at hexc

/-- What an actor leaves when it is removed. -/
theorem Inv.unsetupClient (h : Inv host s []) (dht : Dht) {appName actorName : Text}
    (honly : ∀ p ∈ (s.registrations.get? (appActorName appName actorName)).getD [],
      OnlyBy s (appActorName appName actorName) p)
    (hexc : (s.unsetupClient host dht appName actorName).1.exc = none) :
    Inv host (s.unsetupClient host dht appName actorName).1 [] := by
  rcases unsetupClient_cases hexc with ⟨-, heq⟩ | ⟨-, heq⟩
  · rw [heq]
    exact h
  rw [heq]
  have hputs : ∀ p, p ∈ (detachAll ((s.enrollments.get? (appActorName appName actorName)).getD [])
        (removeAll dht ((s.registrations.get? (appActorName appName actorName)).getD []) s.dbase)).puts ↔
      p ∈ (removeAll dht ((s.registrations.get? (appActorName appName actorName)).getD []) s.dbase).puts :=
    fun p => by rw [detachAll_puts]
  have hlive : ∀ key value, (detachAll ((s.enrollments.get? (appActorName appName actorName)).getD [])
        (removeAll dht ((s.registrations.get? (appActorName appName actorName)).getD []) s.dbase)).Live key value ↔
      s.dbase.Live key value ∧ (key, value) ∉ (s.registrations.get? (appActorName appName actorName)).getD [] :=
    fun key value => (DhtDbase.live_congr hputs key value).trans (live_removeAll ..)
  have haddr := h.addresses.removeAll dht ((s.registrations.get? (appActorName appName actorName)).getD [])
  have hclients : ∀ regKey, regKey ≠ appActorName appName actorName →
      (s.clients.delAll [clientKeyBase appName actorName, clientKeyBase appName actorName ++ host.macAddress,
        clientKeyBase appName actorName ++ host.hostAddress]).get? ('/' :: (regKey ++ ['/'])) =
      s.clients.get? ('/' :: (regKey ++ ['/'])) := by
    intro regKey hne
    rw [Dict.get?_delAll, if_neg]
    simp only [List.mem_cons, List.not_mem_nil, or_false, not_or]
    refine ⟨?_, ne_append_of_notMem host.macAddress_ne host.slash_macAddress,
      ne_append_of_notMem host.hostAddress_ne host.slash_hostAddress⟩
    rw [clientKeyBase_eq]
    simpa using hne
  refine ⟨haddr.of_eq (detachAll_puts ..) (detachAll_republisher ..), fun regKey pairs hget p hp => ?_,
    fun regKey hreg => ?_, ?_⟩
  · dsimp only at hget
    rw [Dict.get?_del] at hget
    split_ifs at hget with hkey
    refine (hlive ..).mpr ⟨h.registered regKey pairs hget p hp, fun hmem => hkey ?_⟩
    exact honly p hmem (regKey, pairs) (Dict.get?_eq_some_iff.mp hget) hp
  · rw [Dict.mem_iff_exists_get?] at hreg
    dsimp only at hreg ⊢
    obtain ⟨pairs, hget⟩ := hreg
    rw [Dict.get?_del] at hget
    split_ifs at hget with hkey
    rw [hclients regKey hkey]
    exact h.socks regKey (Dict.mem_of_get? hget)
  · rintro regKey key c ⟨pairs, hget, hpair⟩
    dsimp only at hget
    rw [Dict.get?_del] at hget
    split_ifs at hget with hkey
    obtain ⟨appName', scope, client, hreg, hc, hs⟩ := h.enrolled regKey key c ⟨pairs, hget, hpair⟩
    refine ⟨appName', scope, client, hreg, hc, hs.of_step ?_ ?_ (fun value hl => ?_) fun sock socket hr => hr⟩
    · refine mem_clientsOf_detachAll (by simpa using hs.listed) fun hmem => hkey ?_
      -- a client string of the actor that goes is none of another actor
      cases hown : s.enrollments.get? (appActorName appName actorName) with
      | none => simp [hown] at hmem
      | some own =>
        rw [hown, Option.getD_some] at hmem
        obtain ⟨appName'', scope'', client'', hreg', hc', hs'⟩ := h.enrolled _ key _ ⟨own, hown, hmem⟩
        obtain ⟨rfl, rfl⟩ := clientString_inj hs.names hs'.names hc'
        exact hreg.trans hreg'.symm
    · dsimp only
      rw [clientKeyBase_eq appName' client.actorName, ← hreg]
      exact hclients regKey hkey
    · exact Or.inl ((hlive ..).mp hl).1

theorem Inv.handleActorUnreg (h : Inv host s []) (dht : Dht) {appName actorName : Text}
    (honly : ∀ p ∈ (s.registrations.get? (appActorName appName actorName)).getD [],
      OnlyBy s (appActorName appName actorName) p)
    (hexc : (s.handleActorUnreg host dht appName actorName).exc = none) :
    Inv host (s.handleActorUnreg host dht appName actorName) [] := by
  unfold DiscoService.handleActorUnreg at hexc ⊢
  dsimp only at hexc ⊢
  have hs : (s.unsetupClient host dht appName actorName).1.exc = none := by
    by_contra hne
    rw [if_neg hne] at hexc
    exact hne hexc
  rw [if_pos hs]
  have hinv := h.unsetupClient dht honly hs
  refine ⟨hinv.addresses, hinv.registered, hinv.socks, fun regKey key c henr => ?_⟩
  obtain ⟨appName', scope, client, hreg, hc, hserves⟩ := hinv.enrolled regKey key c henr
  refine ⟨appName', scope, client, hreg, hc,
    hserves.of_step hserves.listed rfl (fun value => Or.inl) fun sock socket hr => ?_⟩
  rw [send, received_concat]
  exact hr

/-! ### Runs -/

/-- What changes in the database but not in its values and clients leaves the invariant. -/
theorem Inv.of_dbase (h : Inv host s []) (dbase : DhtDbase) (haddr : Addresses dbase)
    (hlive : ∀ key value, dbase.Live key value ↔ s.dbase.Live key value)
    (hclients : ∀ key, dbase.clientsOf key = s.dbase.clientsOf key) (updates : List (Text × Text × List Text)) :
    Inv host { s with dbase := dbase, clientUpdates := updates } pending where
  addresses := haddr
  registered regKey pairs hget p hp := (hlive ..).mpr (h.registered regKey pairs hget p hp)
  socks := h.socks
  enrolled regKey key c henr := by
    obtain ⟨appName, scope, client, hreg, hc, hs⟩ := h.enrolled regKey key c henr
    refine ⟨appName, scope, client, hreg, hc, hs.of_step ?_ rfl (fun value hl => ?_) fun sock socket hr => hr⟩
    · rw [hclients]
      exact hs.listed
    · exact Or.inl ((hlive ..).mp hl)

/-- With nothing to be told, nothing is missed by whatever is pending. -/
theorem Inv.weaken (h : Inv host s []) : Inv host s pending :=
  h.of_dbase s.dbase h.addresses (fun _ _ => Iff.rfl) (fun _ => rfl) s.clientUpdates

theorem Inv.handle (h : Inv host s []) (dht : Dht) {req : DiscoReq} {port : ℕ}
    (ho : Orderly host s (.request req port)) (hexc : (handle host dht req port s).exc = none) :
    Inv host (handle host dht req port s) (handle host dht req port s).clientUpdates := by
  cases req with
  | actorReg appName version actorName isDevice => exact (h.handleActorReg ho.1 ho.2 isDevice port).weaken
  | actorUnreg appName version actorName => exact (h.handleActorUnreg dht ho hexc).weaken
  | serviceReg path socket => exact h.handleServiceReg dht ho.1 ho.2.1 ho.2.2 hexc
  | serviceLookup path client => exact (h.handleServiceLookup dht ho.1 ho.2 hexc).weaken
  | serviceUnreg path socket => exact (h.handleServiceUnreg dht ho hexc).weaken
  | serviceUnlookup path client => exact (h.handleServiceUnlookup ho.1 hexc).weaken

theorem Inv.step (h : Inv host s []) (dht : Dht) {e : Event} (ho : Orderly host s e)
    (hexc : (step host dht s e).exc = none) : Inv host (step host dht s e) [] := by
  cases e with
  | request req port =>
    unfold DiscoService.step at hexc ⊢
    split_ifs at hexc ⊢
    · have hstart : Inv host { s with clientUpdates := [] } [] :=
        h.of_dbase s.dbase h.addresses (fun _ _ => Iff.rfl) (fun _ => rfl) []
      have hhandled := (Updates.foldl (updates_handleUpdate host) _ _).exc hexc
      exact (hstart.handle dht (by cases req <;> exact ho) hhandled).handleUpdates hexc
    · exact h
  | timeout =>
    unfold DiscoService.step at hexc ⊢
    split_ifs at hexc ⊢
    · exact Inv.handleUpdates (h.of_dbase s.dbase.fetchUpdates.1
        (h.addresses.of_eq rfl rfl) (fun _ _ => Iff.rfl) (fun _ => rfl) _) hexc
    · exact h
  | dhtValueCallback key value expired =>
    simp only [DiscoService.step]
    split_ifs
    · have hputs : ∀ p, p ∈ (s.dbase.dhtValueCallback key value expired).puts ↔ p ∈ s.dbase.puts :=
        fun p => by rw [DhtDbase.dhtValueCallback_puts]
      exact h.of_dbase _
        (h.addresses.of_eq (DhtDbase.dhtValueCallback_puts ..) (DhtDbase.dhtValueCallback_republisher ..))
        (DhtDbase.live_congr hputs) (fun k => by simp) s.clientUpdates
    · exact h
  | dhtRepublish event =>
    have hputs := h.addresses.backed.mem_dhtRepublish_puts event
    exact h.of_dbase _ (h.addresses.of_puts hputs (h.addresses.backed.dhtRepublish event)) (DhtDbase.live_congr hputs)
      (fun k => by simp) s.clientUpdates

/-- A server that an exception ended stays so. -/
theorem exc_of_step {dht : Dht} {e : Event} (hexc : (step host dht s e).exc = none) : s.exc = none := by
  by_contra hne
  cases e with
  | request req port =>
    rw [DiscoService.step, if_neg hne] at hexc
    exact hne hexc
  | timeout =>
    rw [DiscoService.step, if_neg hne] at hexc
    exact hne hexc
  | dhtValueCallback key value expired =>
    simp only [DiscoService.step] at hexc
    split_ifs at hexc
    · exact hne hexc
    · exact hne hexc
  | dhtRepublish event => exact hne hexc

/-- **No lost provider.** In a run whose steps are all orderly, as long as no exception ends the server,
every enrolled client has been sent every address that is registered under its key. -/
theorem informed_run (host : Host) (dht : Dht) (events : List Event)
    (horderly : AllSteps (step host dht) (Orderly host) init events)
    (hexc : (run (step host dht) init events).exc = none) : Informed host (run (step host dht) init events) := by
  have hinv : (run (step host dht) init events).exc = none → Inv host (run (step host dht) init events) [] :=
    horderly.inv (I := fun s => s.exc = none → Inv host s [])
      (fun s e hs ho hexc => (hs (exc_of_step hexc)).step dht ho hexc) fun _ => Inv.init
  exact (hinv hexc).informed

/-! ### A client and a provider -/

/-- A host. -/
def host₁ : Host where
  hostAddress := ['h']
  macAddress := ['m']
  slash_hostAddress := by decide
  slash_macAddress := by decide
  hostAddress_ne := by decide
  macAddress_ne := by decide

/-- A subscriber of actor `x`, -/
def lookup₁ : DiscoReq := .serviceLookup ⟨['a'], ['x'], ['t'], .sub, .global⟩ ⟨['h'], ['x'], ['i'], ['p']⟩

/-- and what a publisher of actor `y` registers under its key. -/
def path₁ : Path := ⟨['a'], ['y'], ['t'], .pub, .global⟩

/-- Where it is. -/
def socket₁ : Socket := ⟨['h'], 5⟩

/-- The two actors register, the subscriber looks up, and then comes the publisher. -/
def lateProvider : List Event :=
  [.request (.actorReg ['a'] [] ['x'] false) 1, .request (.actorReg ['a'] [] ['y'] false) 2, .request lookup₁ 0,
    .request (.serviceReg path₁ socket₁) 0]

/-- The publisher comes, goes and comes back, and the subscriber looks up in between. -/
def returningProvider : List Event :=
  [.request (.actorReg ['a'] [] ['x'] false) 1, .request (.actorReg ['a'] [] ['y'] false) 2,
    .request (.serviceReg path₁ socket₁) 0, .request (.serviceUnreg path₁ socket₁) 0, .request lookup₁ 0,
    .request (.serviceReg path₁ socket₁) 0]

theorem informed_lateProvider :
    AllSteps (step host₁ .inOrder) (Orderly host₁) init lateProvider ∧
      (run (step host₁ .inOrder) init lateProvider).exc = none ∧
      Informed host₁ (run (step host₁ .inOrder) init lateProvider) :=
  have horderly : AllSteps (step host₁ .inOrder) (Orderly host₁) init lateProvider := by decide +kernel
  have hexc : (run (step host₁ .inOrder) init lateProvider).exc = none := by decide +kernel
  ⟨horderly, hexc, informed_run host₁ .inOrder lateProvider horderly hexc⟩

/-- The subscriber is not told of a publisher that came back. -/
theorem not_informed_returningProvider :
    (run (step host₁ .inOrder) init returningProvider).exc = none ∧
      ¬ Informed host₁ (run (step host₁ .inOrder) init returningProvider) := by
  refine ⟨by decide +kernel, fun h => ?_⟩
  have henr : (run (step host₁ .inOrder) init returningProvider).enrollments.get? (appActorName ['a'] ['x']) =
      some [(['/', 'a', '/', 't', '/', 'p', 'u', 'b'],
        clientString host₁ ['a'] .global ⟨['h'], ['x'], ['i'], ['p']⟩)] := by
    decide +kernel
  have hreg : (run (step host₁ .inOrder) init returningProvider).registrations.get? (appActorName ['a'] ['y']) =
      some [(['/', 'a', '/', 't', '/', 'p', 'u', 'b'], socketValue socket₁)] := by
    decide +kernel
  have hsock : (run (step host₁ .inOrder) init returningProvider).clients.get? (clientKeyBase ['a'] ['x']) =
      some (.sock 1) := by
    decide +kernel
  have hreceived : received 1 ['/', 'a', '/', 't', '/', 'p', 'u', 'b']
      (clientString host₁ ['a'] .global ⟨['h'], ['x'], ['i'], ['p']⟩) ⟨['h'], ['x'], ['i'], ['p']⟩
      (run (step host₁ .inOrder) init returningProvider).sent = [] := by
    decide +kernel
  obtain ⟨sock, hget, hall⟩ := h ['a'] .global ⟨['h'], ['x'], ['i'], ['p']⟩ _ (by decide)
    ⟨_, henr, List.mem_singleton_self _⟩
  obtain rfl : 1 = sock := by simpa using hsock.symm.trans hget
  have hmem := hall socket₁ (Or.inl ⟨_, _, hreg, List.mem_singleton_self _⟩)
  rw [hreceived] at hmem
  exact absurd hmem (List.not_mem_nil)

end DiscoService

end Riaps.Discovery
