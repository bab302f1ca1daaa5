import Riaps.Discovery.Decoding
import Riaps.Discovery.Registrations

/-!
# What a server tells was told to it

A server makes nothing up. What it answers to a lookup, and what it sends with an update, are
addresses that came in with registrations, its own or those of another server on the table, and
clients that came in with lookups.

Both are relations here: `offers key socket`, and `looks key l` for a lookup `l`. `Honest` says
that a database holds nothing else; each event keeps that (`Honest.step`), and what the server
sends meanwhile is an answer to the request and updates for those who look (`Honest.sent_step`).
-/

namespace Riaps.Discovery

open Riaps.Foundation

namespace DhtDbase

@[simp] theorem insert_fst_clients (dht : Dht) (key value : Text) (d : DhtDbase) :
    (d.insert dht key value).1.clients = d.clients := by
  unfold insert
  dsimp only
  split_ifs <;> rfl

@[simp] theorem dhtValueCallback_clients (key value : Text) (expired : Bool) (d : DhtDbase) :
    (d.dhtValueCallback key value expired).clients = d.clients := by
  unfold dhtValueCallback
  dsimp only
  split_ifs <;> rfl

@[simp] theorem dhtRepublish_clients (event : ℕ) (d : DhtDbase) : (d.dhtRepublish event).clients = d.clients := by
  unfold dhtRepublish
  split <;> rfl

/-- A callback adds no update but that of its value, if this is no mark. -/
theorem mem_dhtValueCallback_updates {key value : Text} {expired : Bool} {d : DhtDbase} {u : Text × Text}
    (h : u ∈ (d.dhtValueCallback key value expired).updates) : u ∈ d.updates ∨ u = (key, value) ∧ Plain value := by
  rw [dhtValueCallback] at h
  by_cases hempty : value = []
  · rw [if_pos hempty] at h
    exact .inl h
  by_cases hmark : expired ∨ isDelValue value
  · have hadd : expired ∨ isDelValue value ∨ (key, value) ∈ d.republisher.map ∨ d.deletedMap.get? key = some value :=
      hmark.imp_right .inl
    rw [if_neg hempty, if_pos hmark, if_pos hadd] at h
    exact .inl (List.mem_of_mem_filter h)
  · rw [if_neg hempty, if_neg hmark] at h
    split_ifs at h
    · exact .inl h
    · refine (List.mem_append.mp h).imp_right fun h => ⟨List.mem_singleton.mp h, hempty, ?_⟩
      exact Bool.not_eq_true _ ▸ (not_or.mp hmark).2

end DhtDbase

namespace DiscoService

variable {offers : Text → Socket → Prop} {looks : Text → Lookup → Prop} {s s' : DiscoService} {d : DhtDbase}
  {socks : Text → Option ℕ}

/-! ### The database -/

/-- The value is the address of a service that is offered under the key. -/
def Offered (offers : Text → Socket → Prop) (p : Text × Text) : Prop :=
  ∃ socket, p.2 = socketValue socket ∧ offers p.1 socket

/-- The database holds what is offered, and clients that look. -/
structure Honest (offers : Text → Socket → Prop) (looks : Text → Lookup → Prop) (d : DhtDbase) : Prop where
  puts : ∀ p ∈ d.puts, Plain p.2 → Offered offers p
  backed : d.Backed
  updates : ∀ u ∈ d.updates, Offered offers u
  clients : ∀ key, ∀ c ∈ d.clientsOf key, ∃ l, looks key l ∧ l.string = c

/-- A call by what is offered or by a client that looks. -/
def Call.Honest (offers : Text → Socket → Prop) (looks : Text → Lookup → Prop) : Call → Prop
  | .insert _ key value => Offered offers (key, value)
  | .fetch _ key client => ∃ l, looks key l ∧ l.string = client
  | .remove .. | .detach .. => True

theorem honest_init : Honest offers looks .init where
  puts _ h := absurd h List.not_mem_nil
  backed _ h := absurd h List.not_mem_nil
  updates _ h := absurd h List.not_mem_nil
  clients _ _ h := absurd h List.not_mem_nil

/-- More may be offered, and more looked for. -/
theorem Honest.mono {offers' : Text → Socket → Prop} {looks' : Text → Lookup → Prop} (h : Honest offers looks d)
    (hoffers : ∀ key socket, offers key socket → offers' key socket) (hlooks : ∀ key l, looks key l → looks' key l) :
    Honest offers' looks' d where
  puts p hp hplain := (h.puts p hp hplain).imp fun _ hsocket => ⟨hsocket.1, hoffers _ _ hsocket.2⟩
  backed := h.backed
  updates u hu := (h.updates u hu).imp fun _ hsocket => ⟨hsocket.1, hoffers _ _ hsocket.2⟩
  clients key c hc := (h.clients key c hc).imp fun _ hl => ⟨hlooks _ _ hl.1, hl.2⟩

/-- The table grows with what is offered elsewhere. -/
theorem Honest.of_puts {puts : List (Text × Text)} (h : Honest offers looks d) (hsub : ∀ p ∈ d.puts, p ∈ puts)
    (hputs : ∀ p ∈ puts, Plain p.2 → Offered offers p) : Honest offers looks { d with puts := puts } where
  puts := hputs
  backed p hp := hsub p (h.backed p hp)
  updates := h.updates
  clients := h.clients

theorem Honest.apply (h : Honest offers looks d) (dht : Dht) {c : Call} (hc : c.Honest offers looks) :
    Honest offers looks (c.apply dht d) := by
  cases c with
  | insert actorKey key value =>
    refine ⟨fun p hp hplain => ?_, h.backed.insert dht key value, ?_, fun k c hc => ?_⟩
    · rcases (DhtDbase.mem_insert_puts dht key value d p).mp hp with rfl | hp
      · exact hc
      · exact h.puts p hp hplain
    · rw [Call.apply, DhtDbase.insert_updates]
      exact h.updates
    · rw [DhtDbase.clientsOf, Call.apply, DhtDbase.insert_fst_clients] at hc
      exact h.clients k c hc
  | fetch actorKey key client =>
    refine ⟨h.puts, h.backed, h.updates, fun k c hk => ?_⟩
    rcases (DhtDbase.mem_clientsOf_fetch dht key client d k c).mp hk with heq | hk
    · obtain ⟨rfl, rfl⟩ := Prod.mk.inj heq
      exact hc
    · exact h.clients k c hk
  | remove key value =>
    refine ⟨fun p hp hplain => ?_, h.backed.remove dht key value, ?_, fun k c hk => ?_⟩
    · rcases (DhtDbase.mem_remove_puts dht key value d p).mp hp with hp | ⟨rfl, -⟩
      · exact h.puts p hp hplain
      · exact absurd rfl hplain.ne_delValue
    · rw [Call.apply, DhtDbase.remove_updates]
      exact h.updates
    · rw [Call.apply, DhtDbase.clientsOf_remove] at hk
      exact h.clients k c hk
  | detach key client =>
    refine ⟨?_, h.backed.of_eq (DhtDbase.detach_puts ..) (DhtDbase.detach_republisher ..), ?_, fun k c hk => ?_⟩
    · rw [Call.apply, DhtDbase.detach_puts]
      exact h.puts
    · rw [Call.apply, DhtDbase.detach_updates]
      exact h.updates
    · exact h.clients k c (DhtDbase.mem_of_mem_detach hk)

theorem Honest.foldl_apply (h : Honest offers looks d) (dht : Dht) {calls : List Call}
    (hcalls : ∀ c ∈ calls, c.Honest offers looks) : Honest offers looks (calls.foldl (Call.apply dht) d) := by
  induction calls generalizing d with
  | nil => exact h
  | cons c calls ih =>
    exact ih (h.apply dht (hcalls c List.mem_cons_self)) fun c hc => hcalls c (List.mem_cons_of_mem _ hc)

theorem mem_puts_foldl_apply (dht : Dht) (calls : List Call) {p : Text × Text} (h : p ∈ d.puts) :
    p ∈ (calls.foldl (Call.apply dht) d).puts := by
  induction calls generalizing d with
  | nil => exact h
  | cons c calls ih =>
    refine ih ?_
    cases c with
    | insert actorKey key value => exact (DhtDbase.mem_insert_puts dht key value d p).mpr (.inr h)
    | fetch actorKey key client => exact h
    | remove key value => exact (DhtDbase.mem_remove_puts dht key value d p).mpr (.inl h)
    | detach key client => rwa [Call.apply, DhtDbase.detach_puts]

/-- An update that the database returns. -/
def FromBase (offers : Text → Socket → Prop) (looks : Text → Lookup → Prop) (u : Text × Text × List Text) : Prop :=
  Offered offers (u.1, u.2.1) ∧ ∀ c ∈ u.2.2, ∃ l, looks u.1 l ∧ l.string = c

theorem Honest.fetchUpdates (h : Honest offers looks d) :
    Honest offers looks d.fetchUpdates.1 ∧ ∀ u ∈ d.fetchUpdates.2, FromBase offers looks u := by
  refine ⟨⟨h.puts, h.backed, fun _ hu => absurd hu List.not_mem_nil, h.clients⟩, fun u hu => ?_⟩
  obtain ⟨p, hp, hu⟩ := List.mem_filterMap.mp hu
  split_ifs at hu
  obtain rfl := Option.some.inj hu
  exact ⟨h.updates p (List.mem_dedup.mp hp), fun c hc => h.clients p.1 c hc⟩

theorem Honest.dhtValueCallback (h : Honest offers looks d) {key value : Text} (hput : (key, value) ∈ d.puts)
    (expired : Bool) : Honest offers looks (d.dhtValueCallback key value expired) where
  puts := by
    rw [DhtDbase.dhtValueCallback_puts]
    exact h.puts
  backed := h.backed.of_eq (DhtDbase.dhtValueCallback_puts ..) (DhtDbase.dhtValueCallback_republisher ..)
  updates u hu := by
    rcases DhtDbase.mem_dhtValueCallback_updates hu with hu | ⟨rfl, hplain⟩
    · exact h.updates u hu
    · exact h.puts _ hput hplain
  clients k c hc := by
    rw [DhtDbase.clientsOf, DhtDbase.dhtValueCallback_clients] at hc
    exact h.clients k c hc

theorem Honest.dhtRepublish (h : Honest offers looks d) (event : ℕ) : Honest offers looks (d.dhtRepublish event) where
  puts p hp hplain := h.puts p ((h.backed.mem_dhtRepublish_puts event p).mp hp) hplain
  backed := h.backed.dhtRepublish event
  updates := by
    rw [DhtDbase.dhtRepublish_updates]
    exact h.updates
  clients k c hc := by
    rw [DhtDbase.clientsOf, DhtDbase.dhtRepublish_clients] at hc
    exact h.clients k c hc

/-! ### What is sent -/

variable (host : Host)

/-- An update on a socket: its address is offered under a key, and it goes to one who looked there, on the socket of
the actor. -/
def Told (offers : Text → Socket → Prop) (looks : Text → Lookup → Prop) (socks : Text → Option ℕ) (sock : ℕ)
    (upd : PortUpd) : Prop :=
  ∃ key l, looks key l ∧ offers key upd.socket ∧ upd.client = l.client ∧ upd.scope = l.path.scope ∧
    l.client.actorHost = host.hostAddress ∧ socks (appActorName l.path.appName l.client.actorName) = some sock

/-- The answer to a request: addresses are those that are offered where it looks, and a port is that of the socket. -/
def Answers (offers : Text → Socket → Prop) (s : DiscoService) (req : DiscoReq) (port : ℕ) : DiscoRep → Prop
  | .serviceLookup key c sockets =>
    (∃ path client, req = .serviceLookup path client ∧ s.buildLookupKey host path client = .ok (key, c)) ∧
      ∀ socket ∈ sockets, offers key socket
  | .actorReg p => p = port
  | .actorUnreg _ | .serviceReg | .serviceUnreg | .serviceUnlookup => True

/-- Updates, as messages. -/
def asSent (upds : List (ℕ × PortUpd)) : List Sent := upds.map fun u => .update u.1 u.2

/-- The server sends updates, and does nothing else. -/
def Tells (offers : Text → Socket → Prop) (looks : Text → Lookup → Prop) (socks : Text → Option ℕ)
    (s s' : DiscoService) : Prop :=
  ∃ upds, s' = { s with sent := s.sent ++ asSent upds } ∧ ∀ u ∈ upds, Told host offers looks socks u.1 u.2

variable {host}

theorem Tells.refl (s : DiscoService) : Tells host offers looks socks s s :=
  ⟨[], by rw [asSent, List.map_nil, List.append_nil], fun _ hu => absurd hu List.not_mem_nil⟩

theorem Tells.trans {t : DiscoService} (h : Tells host offers looks socks s s')
    (h' : Tells host offers looks socks s' t) : Tells host offers looks socks s t := by
  obtain ⟨upds, rfl, hupds⟩ := h
  obtain ⟨upds', rfl, hupds'⟩ := h'
  refine ⟨upds ++ upds', by rw [asSent, asSent, asSent, List.map_append, List.append_assoc], fun u hu => ?_⟩
  exact (List.mem_append.mp hu).elim (hupds u) (hupds' u)

/-- One after another, on a server that runs. -/
theorem Tells.foldl {α : Type*} {f : DiscoService → α → DiscoService} {l : List α} (hexc : s.exc = none)
    (hsocks : Sockets s socks)
    (hf : ∀ a ∈ l, ∀ s, s.exc = none → Sockets s socks → Tells host offers looks socks s (f s a)) :
    Tells host offers looks socks s (l.foldl f s) := by
  induction l generalizing s with
  | nil => exact .refl s
  | cons a l ih =>
    have hfirst := hf a List.mem_cons_self s hexc hsocks
    have hrest : Tells host offers looks socks (f s a) (l.foldl f (f s a)) := by
      obtain ⟨new, heq, -⟩ := hfirst
      refine ih (by rw [heq, hexc]) (by rw [heq]; exact hsocks) fun b hb => hf b (List.mem_cons_of_mem a hb)
    exact hfirst.trans hrest

/-- A server that has ended sends no update. -/
theorem foldl_handleUpdate_of_exc (hexc : s.exc ≠ none) (updates : List (Text × Text × List Text)) :
    updates.foldl (handleUpdate host) s = s := by
  induction updates with
  | nil => rfl
  | cons u updates ih => rw [List.foldl_cons, handleUpdate, if_neg hexc, ih]

/-- An update from the database, for each client of its key. -/
theorem tells_handleUpdate (hcolon : ∀ key socket, offers key socket → ':' ∉ socket.host) (hexc : s.exc = none)
    (hsocks : Sockets s socks) {u : Text × Text × List Text} (hu : FromBase offers looks u) :
    Tells host offers looks socks s (handleUpdate host s u) := by
  obtain ⟨⟨socket, hvalue, hoffers⟩, hclients⟩ := hu
  dsimp only at hvalue hoffers
  rw [handleUpdate, if_pos hexc]
  simp only [hvalue, splitOn_socketValue (hcolon _ _ hoffers)]
  refine .foldl hexc hsocks fun c hc t hrun ht => ?_
  obtain ⟨l, hl, rfl⟩ := hclients c hc
  rw [updateClient_eq ht hrun, updateOf]
  split_ifs with hhost
  · cases hsock : socks (appActorName l.path.appName l.client.actorName) with
    | none => exact ⟨[], rfl, fun _ hv => absurd hv List.not_mem_nil⟩
    | some sock =>
      refine ⟨[(sock, ⟨l.client, l.path.scope, socket⟩)], rfl, fun v hv => ?_⟩
      rw [List.mem_singleton.mp hv]
      exact ⟨u.1, l, hl, hoffers, rfl, rfl, hhost, hsock⟩
  · exact ⟨[], rfl, fun _ hv => absurd hv List.not_mem_nil⟩

@[simp] theorem unsetupClient_clientUpdates (dht : Dht) (appName actorName : Text) (s : DiscoService) :
    (s.unsetupClient host dht appName actorName).1.clientUpdates = s.clientUpdates := by
  unfold unsetupClient
  dsimp only
  split
  · rfl
  · rfl
  · rfl
  · split_ifs <;> rfl
  · rfl

/-- What is read from a list was read from one of its values. -/
theorem exists_of_mapM_readSocket {values : List Text} {sockets : List Socket}
    (h : values.mapM readSocket = .ok sockets) {socket : Socket} (hsocket : socket ∈ sockets) :
    ∃ value ∈ values, readSocket value = .ok socket := by
  induction values generalizing sockets with
  | nil =>
    obtain rfl : [] = sockets := Except.ok.inj h
    exact absurd hsocket List.not_mem_nil
  | cons v values ih =>
    rw [List.mapM_cons] at h
    cases hv : readSocket v with
    | error e => simp [hv, bind, Except.bind] at h
    | ok a =>
      cases hvs : values.mapM readSocket with
      | error e => simp [hv, hvs, bind, Except.bind] at h
      | ok as =>
        obtain rfl : a :: as = sockets := by simpa [hv, hvs, bind, Except.bind, pure, Except.pure] using h
        rcases List.mem_cons.mp hsocket with rfl | hsocket
        · exact ⟨v, List.mem_cons_self, hv⟩
        · obtain ⟨value, hvalue, hread⟩ := ih hvs hsocket
          exact ⟨value, List.mem_cons_of_mem v hvalue, hread⟩

/-- What is fetched under a key is offered there. -/
theorem Honest.fetch (h : Honest offers looks d) (hcolon : ∀ key socket, offers key socket → ':' ∉ socket.host)
    (dht : Dht) {key client : Text} {values : List Text} (hfetch : (d.fetch dht key client).2 = .ok values)
    {sockets : List Socket} (hsockets : values.mapM readSocket = .ok sockets) :
    ∀ socket ∈ sockets, offers key socket := by
  intro socket hsocket
  obtain ⟨value, hvalue, hread⟩ := exists_of_mapM_readSocket hsockets hsocket
  have hfilter : filterDelValues ((d.dhtAddClient key client).dhtGet dht key) = .ok values := by
    rw [DhtDbase.fetch] at hfetch
    cases hvalues : filterDelValues ((d.dhtAddClient key client).dhtGet dht key) with
    | error e => simp [hvalues] at hfetch
    | ok values' => simpa [hvalues] using hfetch
  obtain ⟨hplain, hget, -⟩ := (mem_filterDelValues hfilter value).mp hvalue
  obtain ⟨socket', hvalue', hoffers⟩ := h.puts (key, value) (DhtDbase.mem_dhtGet.mp hget) hplain
  dsimp only at hvalue' hoffers
  rw [hvalue', readSocket_socketValue (hcolon key socket' hoffers)] at hread
  rwa [← Except.ok.inj hread]

/-- What a request is answered, and which updates it makes. -/
theorem handle_spec (h : Honest offers looks s.dbase) (hcolon : ∀ key socket, offers key socket → ':' ∉ socket.host)
    (hnew : s.clientUpdates = []) (dht : Dht) {req : DiscoReq} {port : ℕ}
    (hcalls : ∀ c ∈ s.calls host req, c.Honest offers looks) (hexc : (handle host dht req port s).exc = none) :
    (∃ rep, (handle host dht req port s).sent = s.sent ++ [.reply rep] ∧ Answers host offers s req port rep) ∧
      ∀ u ∈ (handle host dht req port s).clientUpdates, FromBase offers looks u := by
  have hnone : ∀ u ∈ s.clientUpdates, FromBase offers looks u := by
    rw [hnew]
    exact fun _ hu => absurd hu List.not_mem_nil
  cases req with
  | actorReg appName version actorName isDevice => exact ⟨⟨_, rfl, rfl⟩, hnone⟩
  | actorUnreg appName version actorName =>
    simp only [DiscoService.handle, handleActorUnreg] at hexc ⊢
    split_ifs at hexc ⊢ with hrun
    · refine ⟨⟨.actorUnreg _, by rw [send, unsetupClient_sent], trivial⟩, ?_⟩
      rwa [send, unsetupClient_clientUpdates]
    · exact absurd hexc hrun
  | serviceReg path socket =>
    rw [DiscoService.handle] at hexc ⊢
    obtain ⟨key, registered, hbuild, -, heq⟩ := handleServiceReg_cases hexc
    rw [heq]
    refine ⟨⟨_, rfl, trivial⟩, fun u hu => ?_⟩
    have hcall : Offered offers (key, socketValue socket) :=
      hcalls (.insert (appActorName path.appName path.actorName) key (socketValue socket)) (by simp [calls, hbuild])
    have hclients : ∀ c ∈ (s.dbase.insert dht key (socketValue socket)).2, ∃ l, looks key l ∧ l.string = c := by
      rw [DhtDbase.insert_clients]
      split_ifs
      · exact fun _ hc => absurd hc List.not_mem_nil
      · exact h.clients key
    dsimp only at hu
    rw [hnew, List.nil_append] at hu
    split_ifs at hu
    · exact absurd hu List.not_mem_nil
    · rw [List.mem_singleton.mp hu]
      exact ⟨hcall, hclients⟩
  | serviceUnreg path socket =>
    rw [DiscoService.handle] at hexc ⊢
    obtain ⟨key, registered, -, -, heq⟩ := handleServiceUnreg_cases hexc
    rw [heq]
    exact ⟨⟨_, rfl, trivial⟩, hnone⟩
  | serviceLookup path client =>
    rw [DiscoService.handle] at hexc ⊢
    obtain ⟨key, values, enrolled, sockets, hbuild, hfetch, -, hsockets, heq⟩ := handleServiceLookup_cases hexc
    rw [heq]
    exact ⟨⟨_, rfl, ⟨path, client, rfl, hbuild⟩, h.fetch hcolon dht hfetch hsockets⟩, hnone⟩
  | serviceUnlookup path client =>
    rw [DiscoService.handle] at hexc ⊢
    obtain ⟨key, enrolled, -, -, heq⟩ := handleServiceUnlookup_cases hexc
    rw [heq]
    exact ⟨⟨_, rfl, trivial⟩, hnone⟩

/-- An event by what is offered and by clients that look: a value that the table reports was put there. -/
structure HonestEvent (host : Host) (offers : Text → Socket → Prop) (looks : Text → Lookup → Prop) (s : DiscoService)
    (e : Event) : Prop where
  calls : ∀ c ∈ s.eventCalls host e, c.Honest offers looks
  puts : ∀ key value expired, e = .dhtValueCallback key value expired → (key, value) ∈ s.dbase.puts

/-- **The database stays honest.** -/
theorem Honest.step (h : Honest offers looks s.dbase) (dht : Dht) {e : Event} (he : HonestEvent host offers looks s e) :
    Honest offers looks (DiscoService.step host dht s e).dbase := by
  cases e with
  | request req port =>
    have hcalls := he.calls
    rw [eventCalls] at hcalls
    simp only [DiscoService.step]
    split_ifs at hcalls ⊢ with hrun
    · rw [(Updates.foldl (updates_handleUpdate host) _ _).dbase, handle_dbase]
      exact h.foldl_apply dht hcalls
    · exact h
  | timeout =>
    simp only [DiscoService.step]
    split_ifs with hrun
    · rw [(Updates.foldl (updates_handleUpdate host) _ _).dbase]
      exact h.fetchUpdates.1
    · exact h
  | dhtValueCallback key value expired =>
    simp only [DiscoService.step]
    split_ifs
    · exact h.dhtValueCallback (he.puts key value expired rfl) expired
    · exact h
  | dhtRepublish event => exact h.dhtRepublish event

variable (host) in
/-- What was sent after an event: the answer to a request, if the server goes on, and updates. -/
def Sends (offers : Text → Socket → Prop) (looks : Text → Lookup → Prop) (socks : Text → Option ℕ)
    (s : DiscoService) (e : Event) (sent : List Sent) : Prop :=
  ∃ rep upds, sent = s.sent ++ (Option.toList rep).map .reply ++ asSent upds ∧
    (∀ r ∈ rep, ∃ req port, e = .request req port ∧ Answers host offers s req port r) ∧
    ∀ u ∈ upds, Told host offers looks socks u.1 u.2

theorem Sends.silent (e : Event) : Sends host offers looks socks s e s.sent :=
  ⟨none, [], by simp [asSent], fun _ hr => absurd hr (Option.not_mem_none _), fun _ hu => absurd hu List.not_mem_nil⟩

/-- What was put stays. -/
theorem mem_puts_step (hbacked : s.dbase.Backed) (dht : Dht) (e : Event) {p : Text × Text} (h : p ∈ s.dbase.puts) :
    p ∈ (DiscoService.step host dht s e).dbase.puts := by
  cases e with
  | request req port =>
    simp only [DiscoService.step]
    split_ifs
    · rw [(Updates.foldl (updates_handleUpdate host) _ _).dbase, handle_dbase]
      exact mem_puts_foldl_apply dht _ h
    · exact h
  | timeout =>
    simp only [DiscoService.step]
    split_ifs
    · rwa [(Updates.foldl (updates_handleUpdate host) _ _).dbase]
    · exact h
  | dhtValueCallback key value expired =>
    simp only [DiscoService.step]
    split_ifs
    · rwa [DhtDbase.dhtValueCallback_puts]
    · exact h
  | dhtRepublish event => exact (hbacked.mem_dhtRepublish_puts event p).mpr h

/-- **What an event sends**: the answer, if a request came and the server goes on, and updates that are told. -/
theorem Honest.sent_step (h : Honest offers looks s.dbase) (hsocks : Sockets s socks)
    (hcolon : ∀ key socket, offers key socket → ':' ∉ socket.host) (dht : Dht) {e : Event} (hnames : RegNames e)
    (he : HonestEvent host offers looks s e) :
    Sends host offers looks (fun actorKey => sockAfter actorKey (socks actorKey) e) s e
      (DiscoService.step host dht s e).sent := by
  cases e with
  | request req port =>
    have hcalls := he.calls
    rw [eventCalls] at hcalls
    simp only [DiscoService.step]
    split_ifs at hcalls ⊢ with hrun
    · by_cases hexc : (handle host dht req port { s with clientUpdates := [] }).exc = none
      · obtain ⟨⟨rep, hsent, hrep⟩, hupdates⟩ :=
          handle_spec (s := { s with clientUpdates := [] }) h hcolon rfl dht hcalls hexc
        have hafter := Sockets.handle (s := { s with clientUpdates := [] }) hsocks dht hnames hexc
        obtain ⟨upds, heq, hupds⟩ := Tells.foldl (f := handleUpdate host) hexc hafter fun u hu t ht htsocks =>
          tells_handleUpdate hcolon ht htsocks (hupdates u hu)
        refine ⟨some rep, upds, ?_, fun r hr => ?_, hupds⟩
        · rw [heq, hsent]
          rfl
        · obtain rfl := Option.some.inj hr
          exact ⟨req, port, rfl, hrep⟩
      · have hsilent := ((serve_handle (s := { s with clientUpdates := [] }) hrun dht req port).silent
          fun hC => hexc ((serve_handle (s := { s with clientUpdates := [] }) hrun dht req port).reply hC).1).2
        rw [foldl_handleUpdate_of_exc hexc, hsilent]
        exact .silent _
    · exact .silent _
  | timeout =>
    simp only [DiscoService.step]
    split_ifs with hrun
    · obtain ⟨hbase, hupdates⟩ := h.fetchUpdates
      obtain ⟨upds, heq, hupds⟩ := Tells.foldl (f := handleUpdate host)
        (s := { s with dbase := s.dbase.fetchUpdates.1, clientUpdates := s.dbase.fetchUpdates.2 }) hrun hsocks
        fun u hu t ht htsocks => tells_handleUpdate hcolon ht htsocks (hupdates u hu)
      refine ⟨none, upds, ?_, fun _ hr => absurd hr (Option.not_mem_none _), hupds⟩
      rw [Option.toList_none, List.map_nil, List.append_nil]
      exact congrArg DiscoService.sent heq
    · exact .silent _
  | dhtValueCallback key value expired =>
    simp only [DiscoService.step]
    split_ifs <;> exact .silent _
  | dhtRepublish event => exact .silent _

/-- A server that has ended sends nothing. -/
theorem sent_step_of_exc (hexc : s.exc ≠ none) (dht : Dht) (e : Event) :
    (DiscoService.step host dht s e).sent = s.sent := by
  cases e with
  | request req port => rw [DiscoService.step, if_neg hexc]
  | timeout => rw [DiscoService.step, if_neg hexc]
  | dhtValueCallback key value expired =>
    simp only [DiscoService.step]
    split_ifs <;> rfl
  | dhtRepublish event => rfl

end DiscoService

end Riaps.Discovery
