import Riaps.Discovery.Providers

/-!
# Requests and replies

The socket for requests takes them and gives replies in turn, so each request
needs one reply. Whether the server can give it depends on the request and on
the state: `Answerable` is the condition, and `handle_lockStep_iff` says that it
is exact.

What a request changes in the database it changes before the tables of the actor
are asked. Of an actor that has none, not registered or removed already, the
database is changed, no reply goes out, and the server ends. Only the removal
of an actor that was removed already is answered.
-/

namespace Riaps.Discovery

open Riaps.Foundation

namespace DiscoService

/-! ### One reply -/

/-- The replies among what was sent. Each has the status `ok`. -/
def replies (log : List Sent) : List DiscoRep :=
  log.filterMap fun
    | .reply rep => some rep
    | .update .. => none

/-- From `s` to `s'` a request was served: one reply went out for it, and had there been none, then nothing
would be changed. -/
def LockStep (s s' : DiscoService) : Prop :=
  (∃ rep, replies s'.sent = replies s.sent ++ [rep]) ∧
    (replies s'.sent = replies s.sent →
      s'.dbase = s.dbase ∧ s'.registrations = s.registrations ∧ s'.enrollments = s.enrollments)

/-- A request that can be served if, and only if, `C` holds: it gets one reply, or none and the server
ends. -/
structure Serve (C : Prop) (s s' : DiscoService) : Prop where
  reply : C → s'.exc = none ∧ ∃ rep, s'.sent = s.sent ++ [.reply rep]
  silent : ¬C → s'.exc ≠ none ∧ s'.sent = s.sent

theorem Serve.lockStep_iff {C : Prop} {s s' : DiscoService} (h : Serve C s s') : LockStep s s' ↔ C := by
  constructor
  · rintro ⟨⟨rep, hrep⟩, -⟩
    by_contra hC
    rw [(h.silent hC).2] at hrep
    simp at hrep
  · intro hC
    obtain ⟨-, rep, hsent⟩ := h.reply hC
    have hreplies : replies s'.sent = replies s.sent ++ [rep] := by simp [replies, hsent]
    exact ⟨⟨rep, hreplies⟩, fun hsame => by simp [hreplies] at hsame⟩

/-! ### When a request can be served -/

/-- The kinds of the ports that look a service up. -/
def LooksUp (kind : Kind) : Prop := kind ∈ [Kind.sub, .clt, .req, .rep, .qry, .gsub]

/-- The name of the actor can stand in a key: that of a device, in a key of the scope `internal`, has one
dot. -/
def Keyed (s : DiscoService) (appName actorName : Text) (scope : Scope) : Prop :=
  scope = .internal → s.isDeviceName appName actorName → actorName.count '.' = 1

/-- The values that are there under a key can be read as addresses. -/
def Readable (d : DhtDbase) (key : Text) : Prop :=
  (key, []) ∉ d.puts ∧ ∀ value, d.Live key value → ∃ socket, readSocket value = .ok socket

/-- The actor is set up, with all that `unsetupClient` takes away. -/
structure SetUp (host : Host) (s : DiscoService) (appName actorName : Text) : Prop where
  sock : ∃ sock, s.clients.get? (clientKeyBase appName actorName) = some (.sock sock)
  port : ∃ port, s.clients.get? (clientKeyBase appName actorName ++ host.macAddress) = some (.port port)
  mem : clientKeyBase appName actorName ++ host.hostAddress ∈ s.clients
  registered : appActorName appName actorName ∈ s.registrations
  enrolled : appActorName appName actorName ∈ s.enrollments

/-- The server can answer the request. -/
def Answerable (host : Host) (s : DiscoService) : DiscoReq → Prop
  | .actorReg .. => True
  | .actorUnreg appName _ actorName => clientKeyBase appName actorName ∉ s.clients ∨ SetUp host s appName actorName
  | .serviceReg path _ | .serviceUnreg path _ =>
    Keyed s path.appName path.actorName path.scope ∧ appActorName path.appName path.actorName ∈ s.registrations
  | .serviceLookup path client =>
    LooksUp path.kind ∧ Keyed s path.appName client.actorName path.scope ∧
      appActorName path.appName client.actorName ∈ s.enrollments ∧
      ∀ p ∈ (s.buildLookupKey host path client).toOption, Readable s.dbase p.1
  | .serviceUnlookup path client =>
    LooksUp path.kind ∧ Keyed s path.appName client.actorName path.scope ∧
      appActorName path.appName client.actorName ∈ s.enrollments

variable {host : Host} {s : DiscoService}

/-! ### Keys -/

/-- A text has as many parts as it has separators, and one more. -/
theorem length_splitOn (c : Char) (t : Text) : (t.splitOn c).length = t.count c + 1 := by
  induction t with
  | nil => simp
  | cons d t ih =>
    rw [List.splitOn_cons_eq_if_modifyHead, List.count_cons]
    by_cases hd : d = c
    · simp [hd, ih]
    · simp [hd, ih]

theorem ownerName_ok_iff {appName actorName : Text} :
    (∃ owner, s.ownerName appName actorName = .ok owner) ↔
      (s.isDeviceName appName actorName → actorName.count '.' = 1) := by
  have hlen := length_splitOn '.' actorName
  unfold ownerName
  split_ifs with hdevice
  · rw [forall_prop_of_true hdevice]
    split
    · rename_i owner rest hsplit
      rw [hsplit] at hlen
      exact iff_of_true ⟨owner, rfl⟩ (by simpa using hlen.symm)
    · rename_i hsplit
      refine iff_of_false (by simp) fun hcount => ?_
      obtain ⟨owner, rest, h⟩ := List.length_eq_two.mp (hlen.trans (by rw [hcount]))
      exact hsplit owner rest h
  · exact iff_of_true ⟨actorName, rfl⟩ fun h => absurd h hdevice

theorem buildKey_ok_iff {appName actorName msgType : Text} {kind : Kind} {scope : Scope} :
    (∃ key, s.buildKey host appName actorName msgType kind scope = .ok key) ↔ Keyed s appName actorName scope := by
  unfold buildKey Keyed
  cases scope with
  | none | global | «local» => exact iff_of_true ⟨_, rfl⟩ fun h => by simp at h
  | internal =>
    rw [forall_prop_of_true rfl, ← ownerName_ok_iff]
    dsimp only
    cases s.ownerName appName actorName with
    | ok owner => exact iff_of_true ⟨_, rfl⟩ ⟨owner, rfl⟩
    | error e => exact iff_of_false (by simp) (by simp)

theorem kindMap_ok_iff {kind : Kind} : (∃ k, kindMap kind = .ok k) ↔ LooksUp kind := by
  cases kind <;> simp [kindMap, LooksUp]

theorem buildInsertKeyValuePair_ok_iff {path : Path} {socket : Socket} :
    (∃ p, s.buildInsertKeyValuePair host path socket = .ok p) ↔ Keyed s path.appName path.actorName path.scope := by
  rw [← @buildKey_ok_iff host s path.appName path.actorName path.msgType path.kind path.scope]
  unfold buildInsertKeyValuePair
  cases s.buildKey host path.appName path.actorName path.msgType path.kind path.scope with
  | ok key => exact iff_of_true ⟨_, rfl⟩ ⟨key, rfl⟩
  | error e => exact iff_of_false (by simp) (by simp)

theorem buildLookupKey_ok_iff {path : Path} {client : Client} :
    (∃ p, s.buildLookupKey host path client = .ok p) ↔
      LooksUp path.kind ∧ Keyed s path.appName client.actorName path.scope := by
  rw [← kindMap_ok_iff]
  unfold buildLookupKey
  cases kindMap path.kind with
  | error e => exact iff_of_false (by simp) (by simp)
  | ok kind =>
    simp only [Except.ok.injEq, exists_eq', true_and]
    rw [← @buildKey_ok_iff host s path.appName client.actorName path.msgType kind path.scope]
    cases s.buildKey host path.appName client.actorName path.msgType kind path.scope with
    | ok key => exact iff_of_true ⟨_, rfl⟩ ⟨key, rfl⟩
    | error e => exact iff_of_false (by simp) (by simp)

/-! ### The handlers -/

/-- A list whose values can be read is read. -/
theorem exists_mapM_readSocket {values : List Text} :
    (∃ sockets, values.mapM readSocket = .ok sockets) ↔ ∀ value ∈ values, ∃ socket, readSocket value = .ok socket := by
  induction values with
  | nil => simp [pure, Except.pure]
  | cons v values ih =>
    rw [List.forall_mem_cons, ← ih, List.mapM_cons]
    cases hv : readSocket v with
    | error e => exact iff_of_false (by simp [bind, Except.bind]) (by simp)
    | ok socket =>
      cases hvs : values.mapM readSocket with
      | error e => exact iff_of_false (by simp [bind, Except.bind]) (by simp)
      | ok sockets => exact iff_of_true ⟨socket :: sockets, rfl⟩ ⟨⟨socket, rfl⟩, sockets, rfl⟩

/-- The addresses of a key can be put into the reply exactly if they can all be read. -/
theorem readable_iff (dht : Dht) (d : DhtDbase) (key client : Text) :
    Readable d key ↔
      ∃ values sockets, (d.fetch dht key client).2 = .ok values ∧ values.mapM readSocket = .ok sockets := by
  constructor
  · rintro ⟨hempty, hread⟩
    obtain ⟨values, hfetch, hvalues⟩ := DhtDbase.mem_fetch dht hempty client
    obtain ⟨sockets, hsockets⟩ := exists_mapM_readSocket.mpr fun v hv => hread v ((hvalues v).mp hv)
    exact ⟨values, sockets, hfetch, hsockets⟩
  · rintro ⟨values, sockets, hfetch, hsockets⟩
    have hempty : (key, []) ∉ d.puts := by
      intro hput
      have hget : [] ∈ (d.dhtAddClient key client).dhtGet dht key := DhtDbase.mem_dhtGet.mpr hput
      rw [DhtDbase.fetch, filterDelValues, if_pos hget] at hfetch
      cases hfetch
    obtain ⟨values', hfetch', hvalues⟩ := DhtDbase.mem_fetch dht hempty client
    obtain rfl := Except.ok.inj (hfetch.symm.trans hfetch')
    exact ⟨hempty, fun v hv => exists_mapM_readSocket.mp ⟨sockets, hsockets⟩ v ((hvalues v).mpr hv)⟩

@[simp] theorem unsetupClient_sent (dht : Dht) (appName actorName : Text) :
    (s.unsetupClient host dht appName actorName).1.sent = s.sent := by
  unfold unsetupClient
  dsimp only
  split
  · rfl
  · rfl
  · rfl
  · split_ifs <;> rfl
  · rfl

theorem Serve.fail {C : Prop} {s' : DiscoService} (hC : ¬C) (e : Exc) (hsent : s'.sent = s.sent := by rfl) :
    Serve C s (s'.fail e) :=
  ⟨fun h => absurd h hC, fun _ => ⟨by simp [DiscoService.fail], hsent⟩⟩

theorem Serve.send {C : Prop} {s' : DiscoService} (hC : C) (rep : DiscoRep) (hexc : s'.exc = none)
    (hsent : s'.sent = s.sent := by rfl) : Serve C s (s'.send (.reply rep)) :=
  ⟨fun _ => ⟨hexc, rep, by simp [DiscoService.send, hsent]⟩, fun h => absurd hC h⟩

section Running

variable (hrun : s.exc = none)

include hrun

theorem serve_actorReg (appName actorName : Text) (isDevice : Bool) (port : ℕ) :
    Serve True s (s.handleActorReg host appName actorName isDevice port) := by
  unfold handleActorReg
  exact .send trivial _ hrun

theorem serve_serviceReg (dht : Dht) (path : Path) (socket : Socket) :
    Serve
      (Keyed s path.appName path.actorName path.scope ∧ appActorName path.appName path.actorName ∈ s.registrations) s
      (s.handleServiceReg host dht path socket) := by
  rw [← @buildInsertKeyValuePair_ok_iff host s path socket, Dict.mem_iff_exists_get?]
  unfold handleServiceReg
  cases hbuild : s.buildInsertKeyValuePair host path socket with
  | error e => exact .fail (by simp) e
  | ok p =>
    cases hreg : s.registrations.get? (appActorName path.appName path.actorName) with
    | none =>
      simp only [hreg]
      exact .fail (by simp) .keyError
    | some registered =>
      simp only [hreg]
      split_ifs
      · exact .send ⟨⟨p, rfl⟩, registered, rfl⟩ .serviceReg hrun
      · exact ⟨fun _ => ⟨hrun, .serviceReg, rfl⟩, fun h => absurd ⟨⟨p, rfl⟩, registered, rfl⟩ h⟩

theorem serve_serviceUnreg (dht : Dht) (path : Path) (socket : Socket) :
    Serve
      (Keyed s path.appName path.actorName path.scope ∧ appActorName path.appName path.actorName ∈ s.registrations) s
      (s.handleServiceUnreg host dht path socket) := by
  rw [← @buildInsertKeyValuePair_ok_iff host s path socket, Dict.mem_iff_exists_get?]
  unfold handleServiceUnreg
  cases hbuild : s.buildInsertKeyValuePair host path socket with
  | error e => exact .fail (by simp) e
  | ok p =>
    cases hreg : s.registrations.get? (appActorName path.appName path.actorName) with
    | none =>
      simp only [hreg]
      exact .fail (by simp) .keyError
    | some registered =>
      simp only [hreg]
      exact .send ⟨⟨p, rfl⟩, registered, rfl⟩ .serviceUnreg hrun

theorem serve_serviceUnlookup (path : Path) (client : Client) :
    Serve (LooksUp path.kind ∧ Keyed s path.appName client.actorName path.scope ∧
        appActorName path.appName client.actorName ∈ s.enrollments) s
      (s.handleServiceUnlookup host path client) := by
  rw [← and_assoc, ← @buildLookupKey_ok_iff host s path client, Dict.mem_iff_exists_get?]
  unfold handleServiceUnlookup
  cases hbuild : s.buildLookupKey host path client with
  | error e => exact .fail (by simp) e
  | ok p =>
    cases henr : s.enrollments.get? (appActorName path.appName client.actorName) with
    | none =>
      simp only [henr]
      exact .fail (by simp) .keyError
    | some enrolled =>
      simp only [henr]
      exact .send ⟨⟨p, rfl⟩, enrolled, rfl⟩ .serviceUnlookup hrun

theorem serve_serviceLookup (dht : Dht) (path : Path) (client : Client) :
    Serve (LooksUp path.kind ∧ Keyed s path.appName client.actorName path.scope ∧
        appActorName path.appName client.actorName ∈ s.enrollments ∧
        ∀ p ∈ (s.buildLookupKey host path client).toOption, Readable s.dbase p.1) s
      (s.handleServiceLookup host dht path client) := by
  rw [← and_assoc, ← @buildLookupKey_ok_iff host s path client, Dict.mem_iff_exists_get?]
  unfold handleServiceLookup
  cases hbuild : s.buildLookupKey host path client with
  | error e => exact .fail (by simp) e
  | ok p =>
    have hreadable : (∀ q ∈ (Except.ok (ε := Exc) p).toOption, Readable s.dbase q.1) ↔ Readable s.dbase p.1 := by
      simp [Except.toOption]
    rw [hreadable, readable_iff dht s.dbase p.1 p.2]
    dsimp only
    cases hfetch : (s.dbase.fetch dht p.1 p.2).2 with
    | error e => exact .fail (by simp) e
    | ok values =>
      cases henr : s.enrollments.get? (appActorName path.appName client.actorName) with
      | none =>
        dsimp only
        exact .fail (by simp) .keyError
      | some enrolled =>
        dsimp only
        cases hsockets : values.mapM readSocket with
        | error e =>
          refine .fail ?_ e
          rintro ⟨-, -, values', sockets, hvalues, hread⟩
          obtain rfl := Except.ok.inj hvalues
          rw [hsockets] at hread
          cases hread
        | ok sockets => exact .send ⟨⟨p, rfl⟩, ⟨enrolled, rfl⟩, values, sockets, rfl, hsockets⟩ _ hrun

/-- What an actor needs to be removed, unless it is removed already. -/
theorem unsetupClient_exc (dht : Dht) (appName actorName : Text) :
    (s.unsetupClient host dht appName actorName).1.exc = none ↔
      clientKeyBase appName actorName ∉ s.clients ∨ SetUp host s appName actorName := by
  rw [← Dict.get?_eq_none_iff]
  unfold unsetupClient
  dsimp only
  split
  · rename_i hbase
    exact iff_of_true hrun (Or.inl hbase)
  · rename_i hbase hmac
    refine iff_of_false (by simp [fail]) ?_
    rintro (h | ⟨-, ⟨port, h⟩, -⟩)
    · simp [hbase] at h
    · simp [hmac] at h
  · rename_i hbase hmac hhost
    refine iff_of_false (by simp [fail]) ?_
    rintro (h | ⟨-, -, h, -⟩)
    · simp [hbase] at h
    · exact Dict.get?_eq_none_iff.mp hhost h
  · rename_i sock port last hbase hmac hhost
    rw [or_iff_right (by simp [hbase])]
    split_ifs with hreg henr
    · exact iff_of_true hrun ⟨⟨sock, hbase⟩, ⟨port, hmac⟩, Dict.mem_of_get? hhost, hreg, henr⟩
    · exact iff_of_false (by simp [fail]) fun h => henr h.enrolled
    · exact iff_of_false (by simp [fail]) fun h => hreg h.registered
  · rename_i entry port last hkind hbase hmac hhost
    refine iff_of_false (by simp [fail]) ?_
    rintro (h | ⟨⟨sock, hsock⟩, ⟨port', hport⟩, -⟩)
    · simp [hbase] at h
    · exact hkind sock port' (Option.some.inj (hbase.symm.trans hsock)) (Option.some.inj (hmac.symm.trans hport))

theorem serve_actorUnreg (dht : Dht) (appName actorName : Text) :
    Serve (clientKeyBase appName actorName ∉ s.clients ∨ SetUp host s appName actorName) s
      (s.handleActorUnreg host dht appName actorName) := by
  rw [← unsetupClient_exc hrun dht]
  unfold handleActorUnreg
  dsimp only
  split_ifs with hexc
  · exact .send hexc _ hexc (unsetupClient_sent ..)
  · exact ⟨fun h => absurd h hexc, fun _ => ⟨hexc, unsetupClient_sent ..⟩⟩

/-! ### All requests -/

theorem serve_handle (dht : Dht) (req : DiscoReq) (port : ℕ) :
    Serve (Answerable host s req) s (handle host dht req port s) := by
  cases req with
  | actorReg appName version actorName isDevice => exact serve_actorReg hrun appName actorName isDevice port
  | actorUnreg appName version actorName => exact serve_actorUnreg hrun dht appName actorName
  | serviceReg path socket => exact serve_serviceReg hrun dht path socket
  | serviceLookup path client => exact serve_serviceLookup hrun dht path client
  | serviceUnreg path socket => exact serve_serviceUnreg hrun dht path socket
  | serviceUnlookup path client => exact serve_serviceUnlookup hrun path client

end Running

/-- **One reply for each request** that the server can answer, and for no other. -/
theorem handle_lockStep_iff (host : Host) (dht : Dht) (s : DiscoService) (req : DiscoReq) (port : ℕ)
    (hrun : s.exc = none) : LockStep s (handle host dht req port s) ↔ Answerable host s req :=
  (serve_handle hrun dht req port).lockStep_iff

theorem handle_lockStep_serviceReg :
    LockStep (run (step host₁ .inOrder) init [.request (.actorReg ['a'] [] ['y'] false) 2])
      (handle host₁ .inOrder (.serviceReg path₁ socket₁) 0
        (run (step host₁ .inOrder) init [.request (.actorReg ['a'] [] ['y'] false) 2])) :=
  (handle_lockStep_iff host₁ .inOrder _ _ 0 (by decide +kernel)).mpr ⟨fun h => absurd h (by decide), by decide +kernel⟩

/-- An actor that was removed registers a service: that is put into the database, and no reply goes out. -/
theorem not_lockStep_removed :
    let s := run (step host₁ .inOrder) init
      [.request (.actorReg ['a'] [] ['y'] false) 2, .request (.actorUnreg ['a'] [] ['y']) 0]
    s.exc = none ∧ (handle host₁ .inOrder (.serviceReg path₁ socket₁) 0 s).dbase ≠ s.dbase ∧
      ¬ LockStep s (handle host₁ .inOrder (.serviceReg path₁ socket₁) 0 s) := by
  refine ⟨by decide +kernel, by decide +kernel, ?_⟩
  rintro ⟨⟨rep, hrep⟩, -⟩
  have hnone : replies (handle host₁ .inOrder (.serviceReg path₁ socket₁) 0 (run (step host₁ .inOrder) init
      [.request (.actorReg ['a'] [] ['y'] false) 2, .request (.actorUnreg ['a'] [] ['y']) 0])).sent =
      replies (run (step host₁ .inOrder) init
        [.request (.actorReg ['a'] [] ['y'] false) 2, .request (.actorUnreg ['a'] [] ['y']) 0]).sent := by
    decide +kernel
  rw [hnone] at hrep
  simp at hrep

/-! ### After a missing reply -/

/-- A server that did not answer a request answers none after it. -/
theorem replies_run_of_exc (host : Host) (dht : Dht) (s : DiscoService) (hexc : s.exc ≠ none) (events : List Event) :
    replies (run (step host dht) s events).sent = replies s.sent := by
  have hstep : ∀ t e, t.exc ≠ none → (step host dht t e).sent = t.sent := by
    intro t e ht
    cases e with
    | request req port => rw [step, if_neg ht]
    | timeout => rw [step, if_neg ht]
    | dhtValueCallback key value expired =>
      rw [step]
      split_ifs <;> rfl
    | dhtRepublish event => rfl
  have hinv : (run (step host dht) s events).exc ≠ none ∧ (run (step host dht) s events).sent = s.sent :=
    inv_run (I := fun t => t.exc ≠ none ∧ t.sent = s.sent)
      (fun t e ht => ⟨fun h => ht.1 (exc_of_step h), (hstep t e ht.1).trans ht.2⟩) ⟨hexc, rfl⟩ events
  rw [hinv.2]

end DiscoService

end Riaps.Discovery
