import Riaps.Discovery.Requests

/-!
# What an update is sent with

A lookup is written as a string, with the names of its client and, at the end, a mark of its
scope. The string goes into the database, and comes back with an update, which has the server
read the client from it.

What is read is what was written. So each client on the list of an update gets the update on the
socket of its actor, if that is on this host and a client of this server, and no other one does:
`handleUpdate_eq`.
-/

namespace Riaps.Discovery

open Riaps.Foundation

namespace DiscoService

/-! ### Lookups -/

/-- A lookup, at whichever server, and the string that it made of its client. Names and addresses have no
slash and no colon. -/
structure Lookup where
  host : Host
  server : DiscoService
  path : Path
  client : Client
  key : Text
  string : Text
  built : server.buildLookupKey host path client = .ok (key, string)
  scope : path.scope ≠ .none
  names : Names path.appName client
  colon_actorName : ':' ∉ client.actorName
  colon_macAddress : ':' ∉ host.macAddress

/-- The last part of a client string, split at the colons. -/
theorem splitOn_scopeMark (host : Host) (scope : Scope) {client : Client} (hport : ':' ∉ client.portName)
    (hactor : ':' ∉ client.actorName) (hmac : ':' ∉ host.macAddress) :
    (client.portName ++ scopeMark host scope client).splitOn ':' =
      client.portName ::
        match scope with
        | .none | .global => []
        | .local => [host.macAddress]
        | .internal => [host.macAddress, client.actorName] := by
  cases scope with
  | none | global => rw [scopeMark, List.append_nil, List.splitOn_eq_singleton hport]
  | «local» =>
    rw [scopeMark, List.splitOn_append_cons_self_of_not_mem hport, List.splitOn_eq_singleton hmac]
  | internal =>
    rw [scopeMark, List.cons_append, List.splitOn_append_cons_self_of_not_mem hport,
      List.splitOn_append_cons_self_of_not_mem hmac, List.splitOn_eq_singleton hactor]

/-- **A lookup reads back**: its application, its client and its scope. -/
theorem Lookup.readClient_string (l : Lookup) : readClient l.string = .ok (l.path.appName, l.client, l.path.scope) := by
  rw [eq_of_buildLookupKey l.built, readClient, splitOn_clientString l.names]
  simp only [splitOn_scopeMark l.host l.path.scope l.names.colon l.colon_actorName l.colon_macAddress]
  have hscope := l.scope
  cases hs : l.path.scope with
  | none => exact absurd hs hscope
  | global | «local» | internal => rfl

/-! ### Clients -/

/-- The socket of an actor after an event: it is bound when the actor registers, and closed when it is removed. -/
def sockAfter (actorKey : Text) (sock : Option ℕ) : Event → Option ℕ
  | .request (.actorReg appName _ actorName _) port =>
    if actorKey = appActorName appName actorName then some port else sock
  | .request (.actorUnreg appName _ actorName) _ => if actorKey = appActorName appName actorName then none else sock
  | _ => sock

/-- The names of an actor that registers are names. -/
def RegNames : Event → Prop
  | .request (.actorReg appName _ actorName _) _ => '/' ∉ appName ∧ '/' ∉ actorName
  | _ => True

instance : ∀ e, Decidable (RegNames e)
  | .request (.actorReg ..) _ => inferInstanceAs (Decidable (_ ∧ _))
  | .request (.actorUnreg ..) _ | .request (.serviceReg ..) _ | .request (.serviceUnreg ..) _ |
    .request (.serviceLookup ..) _ | .request (.serviceUnlookup ..) _ | .timeout | .dhtValueCallback .. |
    .dhtRepublish _ => isTrue trivial

variable {host : Host} {s : DiscoService}

/-- The table of clients has the sockets. -/
def Sockets (s : DiscoService) (socks : Text → Option ℕ) : Prop :=
  ∀ actorKey, s.clients.get? ('/' :: (actorKey ++ ['/'])) = (socks actorKey).map Entry.sock

theorem Sockets.handle {socks : Text → Option ℕ} (h : Sockets s socks) (dht : Dht) {req : DiscoReq} {port : ℕ}
    (hnames : RegNames (.request req port)) (hexc : (handle host dht req port s).exc = none) :
    Sockets (handle host dht req port s) fun actorKey => sockAfter actorKey (socks actorKey) (.request req port) := by
  cases req with
  | serviceReg path socket =>
    obtain ⟨_, _, -, -, heq⟩ := handleServiceReg_cases hexc
    rw [DiscoService.handle, heq]
    exact h
  | serviceUnreg path socket =>
    obtain ⟨_, _, -, -, heq⟩ := handleServiceUnreg_cases hexc
    rw [DiscoService.handle, heq]
    exact h
  | serviceLookup path client =>
    obtain ⟨_, _, _, _, -, -, -, -, heq⟩ := handleServiceLookup_cases hexc
    rw [DiscoService.handle, heq]
    exact h
  | serviceUnlookup path client =>
    obtain ⟨_, _, -, -, heq⟩ := handleServiceUnlookup_cases hexc
    rw [DiscoService.handle, heq]
    exact h
  | actorReg appName version actorName isDevice =>
    intro actorKey
    refine (get?_setupClient hnames.1 hnames.2 isDevice port s actorKey).trans ?_
    simp only [sockAfter, h actorKey]
    split_ifs <;> rfl
  | actorUnreg appName version actorName =>
    have hs : (s.unsetupClient host dht appName actorName).1.exc = none := by
      by_contra hne
      rw [DiscoService.handle, handleActorUnreg] at hexc
      dsimp only at hexc
      rw [if_neg hne] at hexc
      exact hne hexc
    have hclients : (DiscoService.handle host dht (.actorUnreg appName version actorName) port s).clients =
        (s.unsetupClient host dht appName actorName).1.clients := by
      rw [DiscoService.handle, handleActorUnreg]
      dsimp only
      rw [if_pos hs]
      rfl
    intro actorKey
    simp only [hclients, sockAfter]
    rcases unsetupClient_cases hs with ⟨hnone, heq⟩ | ⟨-, heq⟩
    · rw [heq, h actorKey]
      split_ifs with hkey
      · rw [clientKeyBase_eq, ← hkey, h actorKey] at hnone
        rw [hnone]
        rfl
      · rfl
    · rw [heq, Dict.get?_delAll]
      have hmac : '/' :: (actorKey ++ ['/']) ≠ clientKeyBase appName actorName ++ host.macAddress :=
        ne_append_of_notMem host.macAddress_ne host.slash_macAddress
      have hhost : '/' :: (actorKey ++ ['/']) ≠ clientKeyBase appName actorName ++ host.hostAddress :=
        ne_append_of_notMem host.hostAddress_ne host.slash_hostAddress
      have hbase : '/' :: (actorKey ++ ['/']) = clientKeyBase appName actorName ↔
          actorKey = appActorName appName actorName := by
        rw [clientKeyBase_eq]
        simp
      simp only [List.mem_cons, List.not_mem_nil, or_false, hmac, hhost, hbase, h actorKey]
      split_ifs <;> rfl

theorem Sockets.step {socks : Text → Option ℕ} (h : Sockets s socks) (dht : Dht) {e : Event} (hnames : RegNames e)
    (hexc : (step host dht s e).exc = none) :
    Sockets (step host dht s e) fun actorKey => sockAfter actorKey (socks actorKey) e := by
  have hrun := exc_of_step hexc
  cases e with
  | request req port =>
    simp only [DiscoService.step, if_pos hrun] at hexc ⊢
    have hupd := Updates.foldl (updates_handleUpdate host)
      (DiscoService.handle host dht req port { s with clientUpdates := [] }).clientUpdates
      (DiscoService.handle host dht req port { s with clientUpdates := [] })
    intro actorKey
    rw [hupd.clients]
    exact Sockets.handle (s := { s with clientUpdates := [] }) h dht hnames (hupd.exc hexc) actorKey
  | timeout =>
    simp only [DiscoService.step, if_pos hrun]
    intro actorKey
    rw [(Updates.foldl (updates_handleUpdate host) _ _).clients]
    exact h actorKey
  | dhtValueCallback key value expired =>
    simp only [DiscoService.step]
    split_ifs <;> exact h
  | dhtRepublish event => exact h

/-- What the client of a lookup is sent: the update, on the socket of its actor, if the actor is a client of the
server and on its host. -/
def updateOf (host : Host) (socks : Text → Option ℕ) (socket : Socket) (l : Lookup) : Option Sent :=
  if l.client.actorHost = host.hostAddress then
    (socks (appActorName l.path.appName l.client.actorName)).map fun sock =>
      .update sock ⟨l.client, l.path.scope, socket⟩
  else none

/-- One client. -/
theorem updateClient_eq {socks : Text → Option ℕ} (h : Sockets s socks) (hexc : s.exc = none) (socket : Socket)
    (l : Lookup) :
    updateClient host socket.host (strInt socket.port.toInt) s l.string =
      { s with sent := s.sent ++ (updateOf host socks socket l).toList } := by
  rw [updateClient, if_pos hexc, updateOf]
  simp only [l.readClient_string, readPort_strInt, clientKeyBase_eq, h _]
  cases socks (appActorName l.path.appName l.client.actorName) with
  | none => simp
  | some sock =>
    by_cases hhost : l.client.actorHost = host.hostAddress
    · simp [hhost, send]
    · simp [hhost, Ne.symm hhost]

end DiscoService

end Riaps.Discovery
