import Riaps.Foundation.Dict
import Riaps.Foundation.Utf8

/-!
# The peers of a discovery server

Each discovery server runs a node of the distributed table, and a thread with a zyre node, which
looks for those of the other servers: a peer that enters is one if it has the header for its own
address. A peer that joins the group of the servers is whispered the port of the table's node, and
a whisper from a peer has its own port, with which the table is bootstrapped.

Other programs are on the same network, and send what they like. As long as none has the header of a
server, nor an address that is no text, it is all skipped (`onEvent_other`), and `heard_onEvent` says
what an event of another server does.
-/

namespace Riaps.Discovery

open Riaps.Foundation

universe u

/-! ### The thread -/

/-- `parse.parse`, for two formats: what is formatted is parsed. -/
structure Parse where
  /-- `parse.parse("tcp://{}:{}", ...)`. -/
  addr : Text → Option (Text × Text)
  addr_format : ∀ ip port, ip ≠ [] → ':' ∉ ip → port ≠ [] → addr (lit "tcp://" ++ ip ++ ':' :: port) = some (ip, port)
  /-- `parse.parse("riaps_disco://{}", ...)`. -/
  dhtPort : Text → Option Text
  dhtPort_format : ∀ port, port ≠ [] → dhtPort (lit "riaps_disco" ++ lit "://" ++ port) = some port

/-- An event of zyre, with what is read of it. -/
inductive ZyreEvent where
  /-- `ENTER`: the address and the headers. -/
  | enter (addr : List UInt8) (headers : List UInt8 → Option (List UInt8))
  | join (group : List UInt8)
  /-- `SHOUT` or `WHISPER`. -/
  | message (msg : List UInt8)
  | leave (group : List UInt8)
  | exit

/-- The thread, with the calls of `bootstrap`. -/
structure DhtPeerMon (Peer : Type u) where
  peers : Dict Peer (Text × Text)
  peerGroup : List Peer
  bootstraps : List (Text × Text)
  /-- An exception has ended the thread. -/
  raised : Bool

namespace DhtPeerMon

/-- `peerHeaderKey`. -/
def peerHeaderKey (ipAddress : Text) : List UInt8 := encodeUtf8 (lit "riaps_disco@") ++ encodeUtf8 ipAddress

/-- `PEERMARK`. -/
def peerMark : List UInt8 := encodeUtf8 (lit "CAFE")

/-- `PEERGROUP_STR`. -/
def peerGroupStr : Text := lit "riaps_disco"

/-- `PEERGROUP`. -/
def peerGroupName : List UInt8 := encodeUtf8 peerGroupStr

/-- What a peer that joins is whispered. -/
def portMsg (dhtPort : ℕ) : List UInt8 := encodeUtf8 (peerGroupStr ++ lit "://" ++ strInt dhtPort)

variable {Peer : Type u} [DecidableEq Peer] (P : Parse) (dhtPort : ℕ)

/-- `ENTER`. The address is decoded for the log, and only then in the `try`. -/
def onEnter (peer : Peer) (addr : List UInt8) (headers : List UInt8 → Option (List UInt8)) (m : DhtPeerMon Peer) :
    DhtPeerMon Peer :=
  match decodeUtf8 addr with
  | none => { m with raised := true }
  | some addr =>
    match P.addr addr with
    | none => m
    | some (peerIp, peerPort) =>
      if headers (peerHeaderKey peerIp) = some peerMark then { m with peers := m.peers.set peer (peerIp, peerPort) }
      else m

/-- `JOIN`, and what is whispered to the peer. -/
def onJoin (peer : Peer) (group : List UInt8) (m : DhtPeerMon Peer) : DhtPeerMon Peer × List (List UInt8) :=
  if decodeUtf8 group = none then ({ m with raised := true }, [])
  else if group ≠ peerGroupName then (m, [])
  else ({ m with peerGroup := m.peerGroup.insert peer }, [portMsg dhtPort])

/-- `SHOUT` and `WHISPER`. -/
def onMessage (peer : Peer) (msg : List UInt8) (m : DhtPeerMon Peer) : DhtPeerMon Peer :=
  match decodeUtf8 msg with
  | none => { m with raised := true }
  | some arg =>
    match m.peers.get? peer, P.dhtPort arg with
    | some (peerIp, _), some peerDhtPort =>
      if peerDhtPort = [] then m else { m with bootstraps := m.bootstraps ++ [(peerIp, peerDhtPort)] }
    | _, _ => m

/-- `LEAVE`. -/
def onLeave (peer : Peer) (group : List UInt8) (m : DhtPeerMon Peer) : DhtPeerMon Peer :=
  if decodeUtf8 group = none then { m with raised := true }
  else if group ≠ peerGroupName then m
  else { m with peerGroup := m.peerGroup.filter (· ≠ peer) }

/-- `EXIT`. -/
def onExit (peer : Peer) (m : DhtPeerMon Peer) : DhtPeerMon Peer :=
  { m with peers := m.peers.del peer, peerGroup := m.peerGroup.filter (· ≠ peer) }

/-- An event, and what is whispered to the peer. What is not of a peer is skipped. -/
def onEvent (peer : Peer) (e : ZyreEvent) (m : DhtPeerMon Peer) : DhtPeerMon Peer × List (List UInt8) :=
  match e with
  | .enter addr headers => (m.onEnter P peer addr headers, [])
  | .join group => if peer ∉ m.peers then (m, []) else m.onJoin dhtPort peer group
  | .message msg => (if peer ∉ m.peers then m else m.onMessage P peer msg, [])
  | .leave group => (if peer ∉ m.peers then m else m.onLeave peer group, [])
  | .exit => (if peer ∉ m.peers then m else m.onExit peer, [])

/-- No peer is known. -/
def init : DhtPeerMon Peer := ⟨.empty, [], [], false⟩

end DhtPeerMon

/-! ### The network -/

/-- A server: its address, and the port of its node of the table. -/
structure DiscoHost where
  hostAddress : Text
  dhtPort : ℕ
  /-- The port of its zyre node. -/
  zyrePort : Text
  hostAddress_ne_nil : hostAddress ≠ []
  colon_notMem : ':' ∉ hostAddress
  zyrePort_ne_nil : zyrePort ≠ []

/-- The zyre nodes of a network, whose endpoints are texts. Some are those of discovery servers, and they have the
header for their own address; no other node has one. -/
structure ZyreNodes (ι : Type u) where
  parse : Parse
  endpoint : ι → List UInt8
  headers : ι → List UInt8 → Option (List UInt8)
  disco : ι → Option DiscoHost
  endpoint_text : ∀ i, ∃ t, endpoint i = encodeUtf8 t
  endpoint_disco : ∀ i h, disco i = some h →
    endpoint i = encodeUtf8 (lit "tcp://" ++ h.hostAddress ++ ':' :: h.zyrePort)
  headers_disco : ∀ i h, disco i = some h →
    headers i (DhtPeerMon.peerHeaderKey h.hostAddress) = some DhtPeerMon.peerMark
  headers_other : ∀ i, disco i = none → ∀ ip, headers i (DhtPeerMon.peerHeaderKey ip) ≠ some DhtPeerMon.peerMark

/-! ### An event -/

/-- Whether a node is a peer after an event of it. -/
def entered : Bool → ZyreEvent → Bool
  | _, .enter .. => true
  | _, .exit => false
  | p, _ => p

namespace ZyreNodes

variable {ι : Type u} [DecidableEq ι] (Z : ZyreNodes ι)

/-- A node sends nothing of others; and a server joins and leaves the group, and sends its port. -/
def Sends (i : ι) : ZyreEvent → Prop
  | .enter addr headers => addr = Z.endpoint i ∧ headers = Z.headers i
  | .join group | .leave group => ∀ h, Z.disco i = some h → group = DhtPeerMon.peerGroupName
  | .message msg => ∀ h, Z.disco i = some h → msg = DhtPeerMon.portMsg h.dhtPort
  | .exit => True

/-- The address with which the table of a server is reached. -/
def dhtAddress (h : DiscoHost) : Text × Text := (h.hostAddress, strInt h.dhtPort)

/-- What the thread bootstraps its table with at an event of a server. -/
def news (h : DiscoHost) (p : Bool) : ZyreEvent → List (Text × Text)
  | .message _ => if p then [dhtAddress h] else []
  | _ => []

/-- What it answers. -/
def answers (dhtPort : ℕ) (p : Bool) : ZyreEvent → List (List UInt8)
  | .join _ => if p then [DhtPeerMon.portMsg dhtPort] else []
  | _ => []

/-- The peers are servers, with their addresses. -/
def Valid (m : DhtPeerMon ι) : Prop := ∀ i a, m.peers.get? i = some a → ∃ h, Z.disco i = some h ∧ a.1 = h.hostAddress

theorem eq_of_mem_news {h : DiscoHost} {p : Bool} {e : ZyreEvent} {a : Text × Text} (ha : a ∈ news h p e) :
    a = dhtAddress h := by
  cases e <;> cases p <;> first | exact List.mem_singleton.mp ha | cases ha

theorem eq_of_mem_answers {dhtPort : ℕ} {p : Bool} {e : ZyreEvent} {msg : List UInt8}
    (hmsg : msg ∈ answers dhtPort p e) : msg = DhtPeerMon.portMsg dhtPort := by
  cases e <;> cases p <;> first | exact List.mem_singleton.mp hmsg | cases hmsg

variable {Z} {m : DhtPeerMon ι} {i : ι} {h : DiscoHost} {e : ZyreEvent} {dhtPort : ℕ}

theorem strInt_ne_nil (n : ℕ) : strInt n ≠ [] := Nat.toDigits_ne_nil

/-- A server enters. -/
theorem onEnter_disco (hi : Z.disco i = some h) :
    m.onEnter Z.parse i (Z.endpoint i) (Z.headers i) =
      { m with peers := m.peers.set i (h.hostAddress, h.zyrePort) } := by
  have hparse : Z.parse.addr (lit "tcp://" ++ h.hostAddress ++ ':' :: h.zyrePort) = some (h.hostAddress, h.zyrePort) :=
    Z.parse.addr_format _ _ h.hostAddress_ne_nil h.colon_notMem h.zyrePort_ne_nil
  rw [DhtPeerMon.onEnter, Z.endpoint_disco i h hi, decodeUtf8_encodeUtf8]
  simp only [hparse]
  exact if_pos (Z.headers_disco i h hi)

/-- Another program enters. -/
theorem onEnter_other (hi : Z.disco i = none) : m.onEnter Z.parse i (Z.endpoint i) (Z.headers i) = m := by
  obtain ⟨addr, haddr⟩ := Z.endpoint_text i
  rw [DhtPeerMon.onEnter, haddr, decodeUtf8_encodeUtf8]
  simp only
  split
  · rfl
  · exact if_neg (Z.headers_other i hi _)

/-- Whatever another program sends changes nothing. -/
theorem onEvent_other (hm : Z.Valid m) (hi : Z.disco i = none) (he : Z.Sends i e) :
    m.onEvent Z.parse dhtPort i e = (m, []) := by
  have hpeer : i ∉ m.peers := by
    intro hmem
    obtain ⟨a, ha⟩ := Dict.mem_iff_exists_get?.mp hmem
    obtain ⟨h, hh, -⟩ := hm i a ha
    cases hi.symm.trans hh
  cases e with
  | enter addr headers =>
    obtain ⟨rfl, rfl⟩ := he
    rw [DhtPeerMon.onEvent, onEnter_other hi]
  | join group => exact if_pos hpeer
  | message msg => exact Prod.ext (if_pos hpeer) rfl
  | leave group => exact Prod.ext (if_pos hpeer) rfl
  | exit => exact Prod.ext (if_pos hpeer) rfl

/-- A message of a peer has its port, with which the table is bootstrapped. -/
theorem onMessage_disco (hm : Z.Valid m) (hi : Z.disco i = some h) (hpeer : i ∈ m.peers) :
    m.onMessage Z.parse i (DhtPeerMon.portMsg h.dhtPort) =
      { m with bootstraps := m.bootstraps ++ [dhtAddress h] } := by
  obtain ⟨⟨ip, port⟩, hget⟩ := Dict.mem_iff_exists_get?.mp hpeer
  obtain ⟨h', hh, rfl⟩ := hm i _ hget
  obtain rfl := Option.some.inj (hi.symm.trans hh)
  have hparse : Z.parse.dhtPort (DhtPeerMon.peerGroupStr ++ lit "://" ++ strInt h.dhtPort) = some (strInt h.dhtPort) :=
    Z.parse.dhtPort_format _ (strInt_ne_nil _)
  rw [DhtPeerMon.onMessage, DhtPeerMon.portMsg, decodeUtf8_encodeUtf8]
  simp only [hget, hparse, if_neg (strInt_ne_nil _)]
  rfl

/-- What an event of a server does. -/
structure Heard (i : ι) (h : DiscoHost) (dhtPort : ℕ) (e : ZyreEvent) (m : DhtPeerMon ι)
    (r : DhtPeerMon ι × List (List UInt8)) : Prop where
  raised : r.1.raised = m.raised
  other : ∀ j, j ≠ i → r.1.peers.get? j = m.peers.get? j
  peer : decide (i ∈ r.1.peers) = entered (decide (i ∈ m.peers)) e
  address : ∀ a, r.1.peers.get? i = some a → a.1 = h.hostAddress
  bootstraps : r.1.bootstraps = m.bootstraps ++ news h (decide (i ∈ m.peers)) e
  whispers : r.2 = answers dhtPort (decide (i ∈ m.peers)) e

theorem heard_onEvent (hm : Z.Valid m) (hi : Z.disco i = some h) (he : Z.Sends i e) :
    Heard i h dhtPort e m (m.onEvent Z.parse dhtPort i e) := by
  have haddress : ∀ a, m.peers.get? i = some a → a.1 = h.hostAddress := by
    intro a ha
    obtain ⟨h', hh, ha⟩ := hm i a ha
    obtain rfl := Option.some.inj (hi.symm.trans hh)
    exact ha
  have hgroup : decodeUtf8 DhtPeerMon.peerGroupName ≠ none := by
    rw [DhtPeerMon.peerGroupName, decodeUtf8_encodeUtf8]
    nofun
  cases e with
  | enter addr headers =>
    obtain ⟨rfl, rfl⟩ := he
    rw [DhtPeerMon.onEvent, onEnter_disco hi]
    refine ⟨rfl, fun j hj => Dict.get?_set_of_ne _ _ hj, ?_, fun a ha => ?_, (List.append_nil _).symm, rfl⟩
    · exact decide_eq_true (Dict.mem_set.mpr (.inl rfl))
    · rw [Dict.get?_set_self] at ha
      rw [← Option.some.inj ha]
  | join group =>
    obtain rfl := he h hi
    by_cases hpeer : i ∈ m.peers
    · rw [DhtPeerMon.onEvent, if_neg (not_not_intro hpeer), DhtPeerMon.onJoin, if_neg hgroup,
        if_neg (not_not_intro rfl)]
      refine ⟨rfl, fun j hj => rfl, rfl, haddress, (List.append_nil _).symm, ?_⟩
      rw [answers, if_pos (decide_eq_true hpeer)]
    · rw [DhtPeerMon.onEvent, if_pos hpeer]
      refine ⟨rfl, fun j hj => rfl, rfl, haddress, (List.append_nil _).symm, ?_⟩
      rw [answers, if_neg (by simpa using hpeer)]
  | message msg =>
    obtain rfl := he h hi
    by_cases hpeer : i ∈ m.peers
    · rw [DhtPeerMon.onEvent, if_neg (not_not_intro hpeer), onMessage_disco hm hi hpeer]
      refine ⟨rfl, fun j hj => rfl, rfl, haddress, ?_, rfl⟩
      rw [news, if_pos (decide_eq_true hpeer)]
    · rw [DhtPeerMon.onEvent, if_pos hpeer]
      refine ⟨rfl, fun j hj => rfl, rfl, haddress, ?_, rfl⟩
      rw [news, if_neg (by simpa using hpeer), List.append_nil]
  | leave group =>
    obtain rfl := he h hi
    have hleave : m.onLeave i DhtPeerMon.peerGroupName = { m with peerGroup := m.peerGroup.filter (· ≠ i) } := by
      rw [DhtPeerMon.onLeave, if_neg hgroup, if_neg (not_not_intro rfl)]
    rw [DhtPeerMon.onEvent, hleave]
    split_ifs <;> exact ⟨rfl, fun j hj => rfl, rfl, haddress, (List.append_nil _).symm, rfl⟩
  | exit =>
    have hdel : ∀ j, j ≠ i → (m.onExit i).peers.get? j = m.peers.get? j := fun j hj => by
      rw [DhtPeerMon.onExit, Dict.get?_del, if_neg hj]
    have hgone : (m.onExit i).peers.get? i = none := by rw [DhtPeerMon.onExit, Dict.get?_del, if_pos rfl]
    by_cases hpeer : i ∈ m.peers
    · rw [DhtPeerMon.onEvent, if_neg (not_not_intro hpeer)]
      refine ⟨rfl, hdel, decide_eq_false fun hmem => ?_, fun a ha => ?_, (List.append_nil _).symm, rfl⟩
      · obtain ⟨a, ha⟩ := Dict.mem_iff_exists_get?.mp hmem
        cases hgone.symm.trans ha
      · cases hgone.symm.trans ha
    · rw [DhtPeerMon.onEvent, if_pos hpeer]
      exact ⟨rfl, fun j hj => rfl, decide_eq_false hpeer, haddress, (List.append_nil _).symm, rfl⟩

/-- The peers stay servers. -/
theorem Heard.valid {r : DhtPeerMon ι × List (List UInt8)} (hr : Heard i h dhtPort e m r) (hm : Z.Valid m)
    (hi : Z.disco i = some h) : Z.Valid r.1 := by
  intro j a ha
  by_cases hj : j = i
  · subst hj
    exact ⟨h, hi, hr.address a ha⟩
  · exact hm j a (hr.other j hj ▸ ha)

end ZyreNodes

end Riaps.Discovery
