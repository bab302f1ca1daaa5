import Riaps.Discovery.DiscoService

/-!
# Addresses and client strings

What the discovery server writes as text and reads back: the address of a
service, which is the value of its key, and the string that stands for a client
in the database. Names have no slash in them, and the name of a port no colon.
-/

namespace Riaps.Discovery

open Riaps.Foundation

theorem int32_toInt (p : Int32) : int32 p.toInt = .ok p := by
  rw [int32, if_pos ⟨p.minValue_le_toInt, p.toInt_le⟩, Int32.ofInt_toInt]

theorem readPort_strInt (p : Int32) : readPort (strInt p.toInt) = .ok p := by
  simp only [readPort, readInt_strInt, int32_toInt]

namespace DiscoService

/-! ### Addresses -/

theorem splitOn_socketValue {socket : Socket} (h : ':' ∉ socket.host) :
    (socketValue socket).splitOn ':' = [socket.host, strInt socket.port.toInt] := by
  rw [socketValue, List.splitOn_append_cons_self_of_not_mem h, List.splitOn_eq_singleton (colon_notMem_strInt _)]

/-- The value of a service reads back. -/
theorem readSocket_socketValue {socket : Socket} (h : ':' ∉ socket.host) :
    readSocket (socketValue socket) = .ok socket := by
  simp only [readSocket, splitOn_socketValue h, readPort_strInt]

/-- No other socket has the value of one whose host has no colon. -/
theorem socketValue_inj {a b : Socket} (ha : ':' ∉ a.host) (h : socketValue a = socketValue b) : a = b := by
  obtain ⟨hhost, -, hport⟩ := (List.append_cons_inj_of_notMem ha (colon_notMem_strInt _)).mp h
  have hread : (Except.ok a.port : Except Exc Int32) = .ok b.port := by
    rw [← readPort_strInt, ← readPort_strInt, hport]
  cases a
  cases b
  simp only [Socket.mk.injEq]
  exact ⟨hhost, Except.ok.inj hread⟩

/-- A value is plain unless its host starts with a dash. -/
theorem plain_socketValue {socket : Socket} (h : socket.host.head? ≠ some '-') : Plain (socketValue socket) := by
  obtain ⟨host, port⟩ := socket
  cases host with
  | nil => simp [Plain, socketValue, isDelValue]
  | cons c t => simpa [Plain, socketValue, isDelValue] using h

/-! ### Client strings -/

/-- The names of a client are names. -/
structure Names (appName : Text) (client : Client) : Prop where
  appName : '/' ∉ appName
  actorName : '/' ∉ client.actorName
  actorHost : '/' ∉ client.actorHost
  instanceName : '/' ∉ client.instanceName
  portName : '/' ∉ client.portName
  colon : ':' ∉ client.portName

instance (appName : Text) (client : Client) : Decidable (Names appName client) :=
  decidable_of_iff ('/' ∉ appName ∧ '/' ∉ client.actorName ∧ '/' ∉ client.actorHost ∧ '/' ∉ client.instanceName ∧
      '/' ∉ client.portName ∧ ':' ∉ client.portName)
    ⟨fun h => ⟨h.1, h.2.1, h.2.2.1, h.2.2.2.1, h.2.2.2.2.1, h.2.2.2.2.2⟩,
      fun h => ⟨h.appName, h.actorName, h.actorHost, h.instanceName, h.portName, h.colon⟩⟩

variable {host : Host}

theorem slash_notMem_scopeMark {scope : Scope} {client : Client} (h : '/' ∉ client.actorName) :
    '/' ∉ scopeMark host scope client := by
  cases scope <;> simp [scopeMark, host.slash_macAddress, h]

/-- The client string, split at the slashes. -/
theorem splitOn_clientString {appName : Text} {scope : Scope} {client : Client} (h : Names appName client) :
    (clientString host appName scope client).splitOn '/' =
      [[], appName, client.actorName, client.actorHost, client.instanceName,
        client.portName ++ scopeMark host scope client] := by
  have hstring : clientString host appName scope client =
      [] ++ '/' :: (appName ++ '/' :: (client.actorName ++ '/' :: (client.actorHost ++
        '/' :: (client.instanceName ++ '/' :: (client.portName ++ scopeMark host scope client))))) := by
    simp [clientString]
  have hlast : '/' ∉ client.portName ++ scopeMark host scope client := by
    rw [List.mem_append, not_or]
    exact ⟨h.portName, slash_notMem_scopeMark h.actorName⟩
  rw [hstring, List.splitOn_append_cons_self_of_not_mem (by simp),
    List.splitOn_append_cons_self_of_not_mem h.appName, List.splitOn_append_cons_self_of_not_mem h.actorName,
    List.splitOn_append_cons_self_of_not_mem h.actorHost, List.splitOn_append_cons_self_of_not_mem h.instanceName,
    List.splitOn_eq_singleton hlast]

/-- The name of the port comes first in the last part. -/
theorem splitOn_portName (host : Host) (scope : Scope) {client : Client} (h : ':' ∉ client.portName) :
    ∃ rest, (client.portName ++ scopeMark host scope client).splitOn ':' = client.portName :: rest := by
  have hplain : ∃ rest, client.portName.splitOn ':' = client.portName :: rest :=
    ⟨[], List.splitOn_eq_singleton h⟩
  cases scope with
  | none => simpa [scopeMark] using hplain
  | global => simpa [scopeMark] using hplain
  | «local» => exact ⟨_, List.splitOn_append_cons_self_of_not_mem h _⟩
  | internal =>
    rw [scopeMark, List.cons_append]
    exact ⟨_, List.splitOn_append_cons_self_of_not_mem h _⟩

/-- **A client string reads back**: the application and the client. -/
theorem readClient_clientString (host : Host) (scope : Scope) {appName : Text} {client : Client}
    (h : Names appName client) :
    ∃ scope', readClient (clientString host appName scope client) = .ok (appName, client, scope') := by
  obtain ⟨rest, hport⟩ := splitOn_portName host scope h.colon
  rw [readClient, splitOn_clientString h]
  simp only [hport]
  match rest with
  | [] => exact ⟨_, rfl⟩
  | [_] => exact ⟨_, rfl⟩
  | [_, _] => exact ⟨_, rfl⟩
  | _ :: _ :: _ :: _ => exact ⟨_, rfl⟩

/-- A client string stands for one client. -/
theorem clientString_inj {appName appName' : Text} {scope scope' : Scope} {client client' : Client}
    (h : Names appName client) (h' : Names appName' client')
    (heq : clientString host appName scope client = clientString host appName' scope' client') :
    appName = appName' ∧ client = client' := by
  obtain ⟨sc, hr⟩ := readClient_clientString host scope h
  obtain ⟨sc', hr'⟩ := readClient_clientString host scope' h'
  rw [heq, hr'] at hr
  obtain ⟨ha, hc, -⟩ : appName' = appName ∧ client' = client ∧ sc' = sc := by simpa using hr
  exact ⟨ha.symm, hc.symm⟩

/-! ### Keys of actors -/

theorem clientKeyBase_eq (appName actorName : Text) :
    clientKeyBase appName actorName = '/' :: (appActorName appName actorName ++ ['/']) := by
  simp [clientKeyBase, appActorName]

/-- What has a text without a slash at its end is no base key. -/
theorem ne_append_of_notMem {base text mark : Text} (hne : mark ≠ []) (hmark : '/' ∉ mark) :
    '/' :: (base ++ ['/']) ≠ text ++ mark := by
  intro h
  have hlast : (('/' :: base) ++ ['/']).getLast? = (text ++ mark).getLast? := by rw [← h]; simp
  rw [List.getLast?_append_cons, List.getLast?_singleton, List.getLast?_append] at hlast
  obtain ⟨c, hc⟩ := Option.ne_none_iff_exists'.mp (mt List.getLast?_eq_none_iff.mp hne)
  rw [hc, Option.some_or, Option.some.injEq] at hlast
  exact hmark (hlast ▸ List.mem_of_getLast? hc)

/-- The key of an actor is no base key, if its names have no slash. -/
theorem ne_appActorName {base appName actorName : Text} (happ : '/' ∉ appName) (hactor : '/' ∉ actorName) :
    '/' :: (base ++ ['/']) ≠ appActorName appName actorName := by
  intro h
  cases appName with
  | nil =>
    obtain rfl : base ++ ['/'] = actorName := List.cons.inj h |>.2
    simp at hactor
  | cons c t =>
    obtain rfl : '/' = c := (List.cons.inj h).1
    simp at happ

end DiscoService

end Riaps.Discovery
