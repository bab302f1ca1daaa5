import Riaps.Actor.Connecting

/-!
# No port is connected to a wrong one

Whatever happens in a network, and in whichever order, each address on its way to a port, and each
that the port is connected to, is that of a provider that serves it: `connected_run`.
-/

namespace Riaps.Discovery.DiscoService

open Riaps.Foundation

variable {host host' : Host} {s : DiscoService} {appName actorName msgType key : Text} {kind : Kind} {scope : Scope}

/-- A key, from its parts. -/
def keyOf (host : Host) (appName msgType : Text) (kind : Kind) (scope : Scope) (owner : Text) : Text :=
  '/' :: (appName ++ '/' :: (msgType ++ '/' :: (kind.str ++ keyMark host scope owner)))

theorem owner_of_ownerName {o : Text} (h : s.ownerName appName actorName = .ok o) : owner o = owner actorName := by
  rw [ownerName] at h
  split_ifs at h
  · split at h
    · rename_i a rest hsplit
      obtain rfl := Except.ok.inj h
      rw [owner, owner, ← takeWhile_of_splitOn hsplit, List.takeWhile_idem]
    · cases h
  · rw [Except.ok.inj h]

theorem eq_keyOf (h : s.buildKey host appName actorName msgType kind scope = .ok key) :
    ∃ o, owner o = owner actorName ∧ key = keyOf host appName msgType kind scope o := by
  unfold buildKey at h
  unfold keyOf keyMark
  cases scope with
  | none | global | «local» =>
    obtain rfl := Except.ok.inj h
    exact ⟨actorName, rfl, by simp⟩
  | internal =>
    dsimp only at h
    cases ho : s.ownerName appName actorName with
    | error e => simp [ho] at h
    | ok o =>
      rw [ho] at h
      obtain rfl := Except.ok.inj h
      exact ⟨o, owner_of_ownerName ho, by simp⟩

end Riaps.Discovery.DiscoService

namespace Riaps.Run

open Riaps.Foundation Riaps.Discovery
open Riaps.Discovery.DiscoService (Lookup Honest HonestEvent Told Answers asSent Sends owner kindMap replies keyOf
  socketValue Sockets sockAfter appActorName RegNames Offered)

theorem PortScope.scope_inj {a b : PortScope} (h : a.scope = b.scope) : a = b := by
  cases a <;> cases b <;> first | rfl | exact absurd h (by decide)

theorem PortScope.scope_ne (a : PortScope) : a.scope ≠ .none := by
  cases a <;> decide

variable {ι : Type} {n : Network ι}

namespace Connecting

variable {past past' : List (Event n)} {s : Connecting n} {c p : Peer n} {info port : PortInfo} {partName : Text}

/-! ### Names -/

theorem slash_groupMsgType {g : Group} (h : g.Named) : '/' ∉ Actor.groupMsgType g := by
  simp [Actor.groupMsgType, h.1, h.2.1.1, h.2.2.1.1]

theorem part_of_made (h : Ask.Made p.actor (.registerEndpoint partName info)) :
    '/' ∉ partName ∧ Named info.portName ∧ '/' ∉ info.msgType := by
  obtain ⟨ports, hports, hinfo⟩ := h
  obtain ⟨hname, hall, -⟩ := n.parts p.host p.actor p.mem partName ports hports
  obtain ⟨hport, -, hmsg⟩ := hall info hinfo
  exact ⟨hname, hport, hmsg⟩

theorem Provided.msgType (h : Provided past p info) : '/' ∉ info.msgType := by
  obtain ⟨q, -, hprovides, hmade⟩ := h
  cases q with
  | registerEndpoint partName port =>
    rw [Ask.provides] at hprovides
    split_ifs at hprovides
    obtain rfl := Option.some.inj hprovides
    exact (part_of_made hmade).2.2
  | regGroup g =>
    obtain rfl := Option.some.inj hprovides
    exact slash_groupMsgType hmade.1
  | registerActor | lookupGroup | unlookupGroup | unregGroup | terminate => simp [Ask.provides] at hprovides

/-- The names of a port that looks for providers, and of its part. -/
theorem Sought.named (h : Sought past c partName port) :
    '/' ∉ partName ∧ Named port.portName ∧ '/' ∉ port.msgType := by
  obtain ⟨q, -, hseeks, hmade⟩ := h
  cases q with
  | registerEndpoint part info =>
    rw [Ask.seeks] at hseeks
    split_ifs at hseeks
    obtain ⟨rfl, rfl⟩ := Prod.mk.inj (Option.some.inj hseeks)
    exact part_of_made hmade
  | lookupGroup g =>
    obtain ⟨rfl, rfl⟩ := Prod.mk.inj (Option.some.inj hseeks)
    obtain ⟨hg, hpart⟩ := hmade
    obtain ⟨ports, hports⟩ := Option.isSome_iff_exists.mp hpart
    refine ⟨(n.parts c.host c.actor c.mem g.partName ports hports).1, ?_, slash_groupMsgType hg⟩
    rw [Actor.gsubInfo, hg.2.2.2]
    exact ⟨by simp [hg.2.1.1, hg.2.2.1.1], by simp [hg.2.1.2, hg.2.2.1.2]⟩
  | registerActor | regGroup | unlookupGroup | unregGroup | terminate => simp [Ask.seeks] at hseeks

/-- A port that sought connects, and a group has no name of a port. -/
theorem Sought.connects (h : Sought past c partName port)
    (hfind : ((c.actor.part partName).getD []).find? (fun i => i.portName = port.portName) = some info) :
    info.portKind.isClient = true := by
  have hinfo := List.mem_of_find?_eq_some hfind
  have hname : info.portName = port.portName := by simpa using List.find?_some hfind
  cases hpart : c.actor.part partName with
  | none =>
    rw [hpart] at hinfo
    exact absurd hinfo List.not_mem_nil
  | some ports =>
    rw [hpart, Option.getD_some] at hinfo
    obtain ⟨-, hall, hnodup⟩ := n.parts c.host c.actor c.mem partName ports hpart
    obtain ⟨q, -, hseeks, hmade⟩ := h
    cases q with
    | registerEndpoint part info' =>
      rw [Ask.seeks] at hseeks
      split_ifs at hseeks with hclient
      obtain ⟨rfl, rfl⟩ := Prod.mk.inj (Option.some.inj hseeks)
      obtain ⟨ports', hports', hinfo'⟩ := hmade
      obtain rfl := Option.some.inj (hpart.symm.trans hports')
      rwa [List.inj_on_of_nodup_map hnodup hinfo hinfo' hname]
    | lookupGroup g =>
      obtain ⟨rfl, rfl⟩ := Prod.mk.inj (Option.some.inj hseeks)
      have hdot := (hall info hinfo).2.1
      rw [hname, Actor.gsubInfo, hmade.1.2.2.2] at hdot
      simp at hdot
    | registerActor | regGroup | unlookupGroup | unregGroup | terminate => simp [Ask.seeks] at hseeks

theorem Provided.mono (h : Provided past p info) (hpast : ∀ e ∈ past, e ∈ past') : Provided past' p info := by
  obtain ⟨q, hq, hrest⟩ := h
  exact ⟨q, hpast _ hq, hrest⟩

theorem Sought.mono (h : Sought past c partName port) (hpast : ∀ e ∈ past, e ∈ past') :
    Sought past' c partName port := by
  obtain ⟨q, hq, hrest⟩ := h
  exact ⟨q, hpast _ hq, hrest⟩

/-! ### What is offered and looked for -/

/-- A provider offers its address under its key. -/
def Offers (past : List (Event n)) (key : Text) (socket : Socket) : Prop :=
  ∃ p info o, Provided past p info ∧ owner o = owner p.actor.name ∧
    key = keyOf (n.hosts p.host) p.actor.appName info.msgType info.portKind.kind info.portScope.scope o ∧
    socket = address p info

/-- The path of a port of an actor. -/
def path (a : Actor) (info : PortInfo) : Path :=
  ⟨a.appName, a.name, info.msgType, info.portKind.kind, info.portScope.scope⟩

/-- The port, as a client. -/
def client (a : Actor) (partName : Text) (info : PortInfo) : Client := ⟨a.globalHost, a.name, partName, info.portName⟩

/-- A port on the host looks there. -/
def Looks (past : List (Event n)) (i : ι) (key : Text) (l : Lookup) : Prop :=
  l.key = key ∧ ∃ c partName port, c.host = i ∧ Sought past c partName port ∧ l.host = n.hosts i ∧
    l.path = path c.actor port ∧ l.client = client c.actor partName port

theorem Offers.mono {key : Text} {socket : Socket} (h : Offers past key socket) (hpast : ∀ e ∈ past, e ∈ past') :
    Offers past' key socket := by
  obtain ⟨p, info, o, hp, hrest⟩ := h
  exact ⟨p, info, o, hp.mono hpast, hrest⟩

theorem Looks.mono {i : ι} {key : Text} {l : Lookup} (h : Looks past i key l) (hpast : ∀ e ∈ past, e ∈ past') :
    Looks past' i key l := by
  obtain ⟨hkey, c, partName, port, hhost, hc, hrest⟩ := h
  exact ⟨hkey, c, partName, port, hhost, hc.mono hpast, hrest⟩

theorem colon_address (p : Peer n) (info : PortInfo) : ':' ∉ (address p info).host := by
  rw [address]
  split_ifs
  · rw [n.globalHost_eq p.host p.actor p.mem]
    exact n.colon_host p.host
  · rw [n.localHost_eq p.host p.actor p.mem]
    exact n.colon_localHost

theorem Offers.colon {key : Text} {socket : Socket} (h : Offers past key socket) : ':' ∉ socket.host := by
  obtain ⟨p, info, -, -, -, -, rfl⟩ := h
  exact colon_address p info

/-- **What is offered under the key of a lookup serves it.** -/
theorem Offers.serves {socket : Socket} {server : DiscoService} {key string : Text} (h : Offers past key socket)
    (hsought : Sought past c partName port)
    (hbuilt : server.buildLookupKey (n.hosts c.host) (path c.actor port) (client c.actor partName port) =
      .ok (key, string)) : ∃ p info, Provided past p info ∧ Serves p info c port ∧ socket = address p info := by
  obtain ⟨p, info, o, hp, ho, hkey, hsocket⟩ := h
  unfold DiscoService.buildLookupKey at hbuilt
  dsimp only [path, client] at hbuilt
  split at hbuilt
  · cases hbuilt
  · rename_i kind hkind
    split at hbuilt
    · cases hbuilt
    · rename_i key' hbuild
      obtain ⟨rfl, -⟩ := Prod.mk.inj (Except.ok.inj hbuilt)
      obtain ⟨o', ho', hkey'⟩ := DiscoService.eq_keyOf hbuild
      have heq := hkey.symm.trans hkey'
      rw [keyOf, keyOf, List.cons_inj_right, append_separator_inj (n.appName _ _ p.mem) (n.appName _ _ c.mem),
        append_separator_inj hp.msgType hsought.named.2.2,
        DiscoService.append_keyMark_inj _ _ (Kind.colon_notMem_str _) (Kind.colon_notMem_str _)
          (PortScope.scope_ne _) (PortScope.scope_ne _) (n.colon_mac _) (n.colon_mac _)] at heq
      obtain ⟨happ, hmsg, hstr, hscope, hlocal, hinternal⟩ := heq
      have hscope := PortScope.scope_inj hscope
      refine ⟨p, info, hp, ⟨happ, hmsg, ?_, hscope, fun hne => ?_, fun hint => ?_⟩, hsocket⟩
      · rw [Kind.str_inj hstr]
        exact hkind
      · rw [← hscope] at hne
        cases hs : info.portScope with
        | global => exact absurd hs hne
        | «local» => exact n.mac_inj _ _ (hlocal (by rw [hs]; rfl))
        | internal => exact n.mac_inj _ _ (hinternal (by rw [hs]; rfl)).1
      · rw [← ho, (hinternal (by rw [hscope, hint]; rfl)).2, ho']

/-! ### What actors ask for -/

open Riaps.Discovery.DiscoService in
theorem honest_regReq (h : Provided past p info) (server : DiscoService) :
    ∀ c ∈ server.calls (n.hosts p.host) (p.actor.handleRegReq info), c.Honest (Offers past) (Looks past p.host) := by
  intro c hc
  rw [Actor.handleRegReq, calls, buildInsertKeyValuePair] at hc
  cases hkey : server.buildKey (n.hosts p.host) p.actor.appName p.actor.name info.msgType info.portKind.kind
      info.portScope.scope with
  | error e => simp [hkey] at hc
  | ok key =>
    simp only [hkey, List.mem_singleton] at hc
    obtain ⟨o, ho, hkeyOf⟩ := eq_keyOf hkey
    rw [hc]
    exact ⟨address p info, rfl, p, info, o, h, ho, hkeyOf, rfl⟩

open Riaps.Discovery.DiscoService in
theorem honest_lookupReq (h : Sought past p partName info) (server : DiscoService) :
    ∀ c ∈ server.calls (n.hosts p.host) (p.actor.handleLookupReq partName info),
      c.Honest (Offers past) (Looks past p.host) := by
  intro c hc
  rw [Actor.handleLookupReq, calls] at hc
  cases hbuilt : server.buildLookupKey (n.hosts p.host) (path p.actor info) (client p.actor partName info) with
  | error e =>
    rw [path, client] at hbuilt
    simp [hbuilt] at hc
  | ok q =>
    obtain ⟨key, string⟩ := q
    have hsame := hbuilt
    rw [path, client] at hsame
    simp only [hsame, List.mem_singleton] at hc
    rw [hc]
    obtain ⟨hpart, hport, -⟩ := h.named
    exact ⟨{
      host := n.hosts p.host
      server := server
      path := path p.actor info
      client := client p.actor partName info
      key := key
      string := string
      built := hbuilt
      scope := info.portScope.scope_ne
      names := ⟨n.appName _ _ p.mem, (n.name _ _ p.mem).1, by
        rw [client, n.globalHost_eq _ _ p.mem]
        exact (n.hosts p.host).slash_hostAddress, hpart, hport.1, hport.2⟩
      colon_actorName := (n.name _ _ p.mem).2
      colon_macAddress := n.colon_mac p.host }, ⟨rfl, p, partName, info, rfl, h, rfl, rfl, rfl⟩, rfl⟩

open Riaps.Discovery.DiscoService in
/-- What an actor asks for is honest. -/
theorem honestEvent_ask {q : Ask} (hq : .ask p q ∈ past) (hmade : q.Made p.actor) {req : DiscoReq}
    (hreq : q.req p.actor = some req) (server : DiscoService) :
    HonestEvent (n.hosts p.host) (Offers past) (Looks past p.host) server (.request req q.port) := by
  refine ⟨fun c hc => ?_, fun _ _ _ he => by cases he⟩
  rw [eventCalls] at hc
  split_ifs at hc
  · cases q with
    | registerActor port =>
      obtain rfl := Option.some.inj hreq
      exact absurd hc List.not_mem_nil
    | registerEndpoint partName info =>
      rw [Ask.req, Actor.registerEndpoint] at hreq
      split_ifs at hreq with hprovider hclient
      · obtain rfl := Option.some.inj hreq
        exact honest_regReq ⟨_, hq, by rw [Ask.provides, if_pos hprovider], hmade⟩ server c hc
      · obtain rfl := Option.some.inj hreq
        exact honest_lookupReq ⟨_, hq, by rw [Ask.seeks, if_pos hclient], hmade⟩ server c hc
    | lookupGroup g =>
      obtain rfl := Option.some.inj hreq
      exact honest_lookupReq ⟨_, hq, rfl, hmade⟩ server c hc
    | regGroup g =>
      obtain rfl := Option.some.inj hreq
      exact honest_regReq ⟨_, hq, rfl, hmade⟩ server c hc
    | unlookupGroup g =>
      obtain rfl := Option.some.inj hreq
      rw [Actor.handleUnlookupReq, calls] at hc
      split at hc
      · rw [List.mem_singleton.mp hc]
        trivial
      · exact absurd hc List.not_mem_nil
    | unregGroup g =>
      obtain rfl := Option.some.inj hreq
      rw [Actor.handleUnregReq, calls] at hc
      split at hc
      · rw [List.mem_singleton.mp hc]
        trivial
      · exact absurd hc List.not_mem_nil
    | terminate =>
      obtain rfl := Option.some.inj hreq
      rw [calls, unsetupCalls] at hc
      split at hc
      · rcases List.mem_append.mp hc with hc | hc
        · obtain ⟨x, -, rfl⟩ := List.mem_map.mp hc
          trivial
        · obtain ⟨x, -, rfl⟩ := List.mem_map.mp hc
          trivial
      · exact absurd hc List.not_mem_nil
  · exact absurd hc List.not_mem_nil

theorem regNames_ask {q : Ask} {req : DiscoReq} (hreq : q.req p.actor = some req) :
    RegNames (.request req q.port) := by
  cases q with
  | registerActor port =>
    obtain rfl := Option.some.inj hreq
    exact ⟨n.appName _ _ p.mem, (n.name _ _ p.mem).1⟩
  | registerEndpoint partName info =>
    rw [Ask.req, Actor.registerEndpoint] at hreq
    split_ifs at hreq
    · obtain rfl := Option.some.inj hreq
      trivial
    · obtain rfl := Option.some.inj hreq
      trivial
  | lookupGroup | regGroup | unlookupGroup | unregGroup | terminate =>
    obtain rfl := Option.some.inj hreq
    trivial

/-! ### The invariant -/

/-- The sockets of a server are those of different actors, and a channel is connected to that of its own actor. -/
structure Plugged (channels : Peer n → Option ℤ) (i : ι) (socks : Text → Option ℕ) : Prop where
  inj : ∀ k k' sock, socks k = some sock → socks k' = some sock → k = k'
  channel : ∀ p, p.host = i → ∀ port, channels p = some port → ∃ sock : ℕ, port = sock ∧ socks p.actor.key = some sock

/-- An update that is due to an actor: for a port of a part that sought, with the address of a provider which serves
it. Nobody else has the socket. -/
def Due (past : List (Event n)) (channels : Peer n → Option ℤ) (i : ι) (sock : ℤ) (upd : PortUpd) : Prop :=
  ∃ c partName port, c.host = i ∧ Sought past c partName port ∧ upd.client = client c.actor partName port ∧
    upd.scope = port.portScope.scope ∧
    (∃ p info, Provided past p info ∧ Serves p info c port ∧ upd.socket = address p info) ∧
    ∀ q, q.host = i → channels q = some sock → q = c

/-- What holds after the events of the past. -/
structure Inv (past : List (Event n)) (s : Connecting n) : Prop where
  honest : ∀ i, Honest (Offers past) (Looks past i) (s.server i).dbase
  socks : ∀ i, (s.servers i).exc = none → ∃ socks, Sockets (s.servers i) socks ∧ Plugged s.channels i socks
  mail : ∀ i sock, ∀ upd ∈ s.mail i sock, Due past s.channels i sock upd
  control : ∀ c partName, ∀ m ∈ s.control c partName, Right past c partName m.1 m.2
  connections : ∀ c partName portName, ∀ socket ∈ s.connections c partName portName,
    Right past c partName portName socket
  raised : s.raised = none

theorem Right.mono {portName : Text} {socket : Socket} (h : Right past c partName portName socket)
    (hpast : ∀ e ∈ past, e ∈ past') : Right past' c partName portName socket := by
  obtain ⟨port, p, info, hsought, hname, hprovided, hrest⟩ := h
  exact ⟨port, p, info, hsought.mono hpast, hname, hprovided.mono hpast, hrest⟩

theorem Due.mono {channels channels' : Peer n → Option ℤ} {i : ι} {sock : ℤ} {upd : PortUpd}
    (h : Due past channels i sock upd) (hpast : ∀ e ∈ past, e ∈ past')
    (hchannels : ∀ q, q.host = i → channels' q = some sock → channels q = some sock) :
    Due past' channels' i sock upd := by
  obtain ⟨c, partName, port, hhost, hsought, hclient, hscope, ⟨p, info, hp, hrest⟩, hown⟩ := h
  exact ⟨c, partName, port, hhost, hsought.mono hpast, hclient, hscope, ⟨p, info, hp.mono hpast, hrest⟩,
    fun q hq hsock => hown q hq (hchannels q hq hsock)⟩

theorem Inv.mono (h : Inv past s) (hpast : ∀ e ∈ past, e ∈ past') : Inv past' s where
  honest i := (h.honest i).mono (fun _ _ ho => ho.mono hpast) fun _ _ hl => hl.mono hpast
  socks := h.socks
  mail i sock upd hupd := (h.mail i sock upd hupd).mono hpast fun _ _ => id
  control c partName m hm := (h.control c partName m hm).mono hpast
  connections c partName portName socket hs := (h.connections c partName portName socket hs).mono hpast
  raised := h.raised

/-- What is posted is due. -/
theorem due_of_told {i : ι} {socks : Text → Option ℕ} {channels : Peer n → Option ℤ} (hplug : Plugged channels i socks)
    {sock : ℕ} {upd : PortUpd} (h : Told (n.hosts i) (Offers past) (Looks past i) socks sock upd) :
    Due past channels i sock upd := by
  obtain ⟨key, l, ⟨rfl, c, partName, port, hhost, hsought, hlhost, hpath, hclient⟩, hoffers, hcl, hscope, -, hsock⟩ := h
  have hbuilt := l.built
  rw [hlhost, hpath, hclient, ← hhost] at hbuilt
  refine ⟨c, partName, port, hhost, hsought, hcl.trans hclient, ?_, hoffers.serves hsought hbuilt,
    fun q hq hchannel => ?_⟩
  · rw [hscope, hpath]
    rfl
  · obtain ⟨sock', heq, hown⟩ := hplug.channel q hq sock hchannel
    rw [← Int.ofNat_inj.mp heq] at hown
    rw [hpath, hclient] at hsock
    have hkey : q.actor.key = c.actor.key := hplug.inj _ _ sock hown hsock
    exact Peer.eq_of_key (hq.trans hhost.symm) hkey

/-- The addresses in the reply to a lookup. -/
theorem right_of_answers (hq : Sought past p partName info) {port : ℕ} {key string : Text} {sockets : List Socket}
    (h : Answers (n.hosts p.host) (Offers past) (s.server p.host) (p.actor.handleLookupReq partName info) port
      (.serviceLookup key string sockets)) :
    ∀ socket ∈ sockets, Right past p partName info.portName socket := by
  obtain ⟨⟨path', client', hreq, hbuilt⟩, hsockets⟩ := h
  obtain ⟨rfl, rfl⟩ := DiscoReq.serviceLookup.inj hreq
  intro socket hsocket
  obtain ⟨p', info', hprovided, hserves, haddress⟩ := (hsockets socket hsocket).serves hq hbuilt
  exact ⟨info, p', info', hq, rfl, hprovided, hserves, haddress⟩

theorem Inv.init (n : Network ι) : Inv [] (init n) where
  honest _ := DiscoService.honest_init
  socks _ _ := ⟨fun _ => none, fun _ => rfl, fun _ _ _ hk => (by cases hk), fun _ _ _ hp => by cases hp⟩
  mail _ _ _ h := absurd h List.not_mem_nil
  control _ _ _ h := absurd h List.not_mem_nil
  connections _ _ _ _ h := absurd h List.not_mem_nil
  raised := rfl

variable [DecidableEq ι] {dht : Dht}

/-- The databases, after an event at the server of a host. -/
theorem Inv.honest_serve (h : Inv past s) {i : ι} {e : DiscoService.Event}
    (he : HonestEvent (n.hosts i) (Offers past) (Looks past i) (s.server i) e) (j : ι) :
    Honest (Offers past) (Looks past j) ((s.serve dht i e).1.server j).dbase := by
  have hafter := (h.honest i).step dht he
  by_cases hij : j = i
  · subst hij
    rwa [dbase_serve_self]
  · rw [dbase_serve_of_ne dht hij]
    exact (h.honest j).of_puts (fun p hp => DiscoService.mem_puts_step (h.honest i).backed dht e hp) hafter.puts

variable (dht) in
/-- A server that has ended sends nothing. -/
theorem sent_of_ended {i : ι} (hexc : (s.servers i).exc ≠ none) (e : DiscoService.Event) :
    (s.serve dht i e).2 = [] := by
  rw [serve]
  dsimp only
  rw [DiscoService.sent_step_of_exc (s := s.server i) hexc]
  exact List.drop_length

variable (dht) in
/-- What a server sends: the answer to a request, and updates that are due, once the channels are what they will be. -/
theorem Inv.sent_serve (h : Inv past s) {i : ι} {e : DiscoService.Event} {channels : Peer n → Option ℤ}
    (he : HonestEvent (n.hosts i) (Offers past) (Looks past i) (s.server i) e) (hnames : RegNames e)
    (hplug : (s.servers i).exc = none → ∀ socks, Sockets (s.servers i) socks → Plugged s.channels i socks →
      Plugged channels i fun actorKey => sockAfter actorKey (socks actorKey) e) :
    ∃ rep upds, (s.serve dht i e).2 = (Option.toList rep).map .reply ++ asSent upds ∧
      (∀ r ∈ rep, ∃ req port, e = .request req port ∧ Answers (n.hosts i) (Offers past) (s.server i) req port r) ∧
      ∀ u ∈ upds, Due past channels i u.1 u.2 := by
  by_cases hexc : (s.servers i).exc = none
  · obtain ⟨socks, hsocks, hplugged⟩ := h.socks i hexc
    obtain ⟨rep, upds, hsent, hrep, hupds⟩ := (h.honest i).sent_step (s := s.server i) hsocks
      (fun _ _ ho => ho.colon) dht hnames he
    refine ⟨rep, upds, ?_, hrep, fun u hu => due_of_told (hplug hexc socks hsocks hplugged) (hupds u hu)⟩
    rw [serve]
    dsimp only
    rw [hsent, List.append_assoc]
    exact List.drop_left
  · exact ⟨none, [], sent_of_ended dht hexc e, fun _ hr => absurd hr (Option.not_mem_none _),
      fun _ hu => absurd hu List.not_mem_nil⟩

/-- The invariant, after an event at a server and what comes of it. -/
theorem Inv.of_serve (h : Inv past s) {i : ι} {e : DiscoService.Event} {t : Connecting n}
    (he : HonestEvent (n.hosts i) (Offers past) (Looks past i) (s.server i) e) (hnames : RegNames e)
    (hservers : t.servers = (s.serve dht i e).1.servers) (hputs : t.puts = (s.serve dht i e).1.puts)
    (hplug : (s.servers i).exc = none → ∀ socks, Sockets (s.servers i) socks → Plugged s.channels i socks →
      Plugged t.channels i fun actorKey => sockAfter actorKey (socks actorKey) e)
    (hothers : ∀ q, q.host ≠ i → t.channels q = s.channels q)
    (hmail : ∀ j sock, ∀ upd ∈ t.mail j sock, Due past t.channels j sock upd)
    (hcontrol : ∀ c partName, ∀ m ∈ t.control c partName, Right past c partName m.1 m.2)
    (hconnections : t.connections = s.connections) (hraised : t.raised = s.raised) : Inv past t where
  honest j := by
    have hserver : t.server j = (s.serve dht i e).1.server j := by
      rw [Connecting.server, Connecting.server, hservers, hputs]
    rw [hserver]
    exact h.honest_serve he j
  socks j hexc := by
    by_cases hj : j = i
    · subst hj
      rw [hservers, servers_serve_self] at hexc ⊢
      have hrun := DiscoService.exc_of_step (s := s.server j) hexc
      obtain ⟨socks, hsocks, hplugged⟩ := h.socks j hrun
      exact ⟨_, Sockets.step (s := s.server j) hsocks dht hnames hexc, hplug hrun socks hsocks hplugged⟩
    · rw [hservers, servers_serve_of_ne dht hj] at hexc ⊢
      obtain ⟨socks, hsocks, hplugged⟩ := h.socks j hexc
      refine ⟨socks, hsocks, hplugged.inj, fun q hq port hport => hplugged.channel q hq port ?_⟩
      rwa [hothers q (by rw [hq]; exact hj)] at hport
  mail := hmail
  control := hcontrol
  connections := by
    rw [hconnections]
    exact h.connections
  raised := hraised.trans h.raised

/-! ### One event -/

theorem replies_sent (rep : Option DiscoRep) (upds : List (ℕ × PortUpd)) :
    replies ((Option.toList rep).map .reply ++ asSent upds) = rep.toList := by
  have hupds : replies (asSent upds) = [] := List.filterMap_eq_nil_iff.mpr fun m hm => by
    obtain ⟨u, -, rfl⟩ := List.mem_map.mp hm
    rfl
  rw [replies, List.filterMap_append]
  change _ ++ replies (asSent upds) = _
  rw [hupds, List.append_nil]
  cases rep <;> rfl

theorem mem_updates {rep : Option DiscoRep} {upds : List (ℕ × PortUpd)} {sock : ℤ} {upd : PortUpd}
    (h : upd ∈ updates ((Option.toList rep).map .reply ++ asSent upds) sock) :
    ∃ u ∈ upds, (u.1 : ℤ) = sock ∧ u.2 = upd := by
  obtain ⟨m, hm, heq⟩ := List.mem_filterMap.mp h
  rcases List.mem_append.mp hm with hm | hm
  · obtain ⟨r, -, rfl⟩ := List.mem_map.mp hm
    cases heq
  · obtain ⟨u, hu, rfl⟩ := List.mem_map.mp hm
    dsimp only at heq
    split_ifs at heq with hsock
    exact ⟨u, hu, hsock, Option.some.inj heq⟩

theorem mem_mail_post {i j : ι} {sent : List Sent} {sock : ℤ} {upd : PortUpd}
    (h : upd ∈ (s.post i sent).mail j sock) : upd ∈ s.mail j sock ∨ j = i ∧ upd ∈ updates sent sock := by
  rw [post] at h
  by_cases hj : j = i
  · subst hj
    simp only [Function.update_self] at h
    exact (List.mem_append.mp h).imp_right fun h => ⟨rfl, h⟩
  · simp only [Function.update_of_ne hj] at h
    exact .inl h

/-- What is on its way after an event at a server is due. -/
theorem Inv.mail_post (h : Inv past s) {i : ι} {e : DiscoService.Event} {channels : Peer n → Option ℤ}
    (he : HonestEvent (n.hosts i) (Offers past) (Looks past i) (s.server i) e) (hnames : RegNames e)
    (hplug : (s.servers i).exc = none → ∀ socks, Sockets (s.servers i) socks → Plugged s.channels i socks →
      Plugged channels i fun actorKey => sockAfter actorKey (socks actorKey) e) {j : ι} {sock : ℤ} {upd : PortUpd}
    (hchannels : ∀ q, q.host = j → channels q = some sock → s.channels q = some sock)
    (hupd : upd ∈ ((s.serve dht i e).1.post i (s.serve dht i e).2).mail j sock) : Due past channels j sock upd := by
  obtain ⟨rep, upds, hsent, -, hupds⟩ := h.sent_serve dht he hnames hplug
  rcases mem_mail_post hupd with hupd | ⟨rfl, hupd⟩
  · exact (h.mail j sock upd hupd).mono (fun _ => id) hchannels
  · rw [hsent] at hupd
    obtain ⟨u, hu, rfl, rfl⟩ := mem_updates hupd
    exact hupds u hu

variable (dht) in
/-- An event at a server that binds and closes no socket. -/
theorem Inv.post_serve (h : Inv past s) {i : ι} {e : DiscoService.Event}
    (he : HonestEvent (n.hosts i) (Offers past) (Looks past i) (s.server i) e) (hnames : RegNames e)
    (hsock : ∀ k sock, sockAfter k sock e = sock) : Inv past ((s.serve dht i e).1.post i (s.serve dht i e).2) := by
  have hplug : ∀ socks, Sockets (s.servers i) socks → Plugged s.channels i socks →
      Plugged s.channels i fun actorKey => sockAfter actorKey (socks actorKey) e := by
    intro socks _ hplugged
    simpa only [hsock] using hplugged
  exact h.of_serve he hnames rfl rfl (fun _ => hplug) (fun _ _ => rfl)
    (fun j sock upd hupd => h.mail_post he hnames (fun _ => hplug) (fun _ _ => id) hupd) h.control rfl rfl

/-- One of the lists of a table has become shorter. -/
theorem mem_of_mem_update₂ {α β γ : Type} [DecidableEq α] [DecidableEq β] {f : α → β → List γ} {a a' : α} {b b' : β}
    {l : List γ} (hl : l ⊆ f a b) {x : γ} (h : x ∈ Function.update f a (Function.update (f a) b l) a' b') :
    x ∈ f a' b' := by
  by_cases ha : a' = a
  · subst ha
    by_cases hb : b' = b
    · subst hb
      rw [Function.update_self, Function.update_self] at h
      exact hl h
    · rwa [Function.update_self, Function.update_of_ne hb] at h
  · rwa [Function.update_of_ne ha] at h

theorem mem_connections_leaveGroup {p c : Peer n} {part partName name groupName : Text} {socket : Socket}
    (h : socket ∈ Function.update s.connections p (Function.update (s.connections p) partName
      (Function.update (s.connections p partName) groupName [])) c part name) : socket ∈ s.connections c part name := by
  by_cases hc : c = p
  · subst hc
    rw [Function.update_self] at h
    exact mem_of_mem_update₂ (List.nil_subset _) h
  · rwa [Function.update_of_ne hc] at h

theorem mem_control_updatePart {c p : Peer n} {part partName portName : Text} {sockets : List Socket}
    {m : Text × Socket} (h : m ∈ (s.updatePart p partName portName sockets).control c part) :
    m ∈ s.control c part ∨ c = p ∧ part = partName ∧ m.1 = portName ∧ m.2 ∈ sockets := by
  rw [updatePart] at h
  by_cases hc : c = p
  · subst hc
    by_cases hpart : part = partName
    · subst hpart
      simp only [Function.update_self] at h
      refine (List.mem_append.mp h).imp_right fun h => ?_
      obtain ⟨socket, hsocket, rfl⟩ := List.mem_map.mp h
      exact ⟨rfl, rfl, rfl, hsocket⟩
    · simp only [Function.update_self, Function.update_of_ne hpart] at h
      exact .inl h
  · simp only [Function.update_of_ne hc] at h
    exact .inl h

theorem Inv.updatePart (h : Inv past s) {portName : Text} {sockets : List Socket}
    (hsockets : ∀ socket ∈ sockets, Right past p partName portName socket) :
    Inv past (s.updatePart p partName portName sockets) where
  honest := h.honest
  socks := h.socks
  mail := h.mail
  control c part m hm := by
    rcases mem_control_updatePart hm with hm | ⟨rfl, rfl, rfl, hsocket⟩
    · exact h.control c part m hm
    · exact hsockets _ hsocket
  connections := h.connections
  raised := h.raised

/-- An actor asks for something that binds and closes no socket, and handles the reply. -/
theorem Inv.asked (h : Inv past s) {q : Ask} (hq : .ask p q ∈ past) (hmade : q.Made p.actor) {req : DiscoReq}
    (hreq : q.req p.actor = some req) (hsock : ∀ k sock, sockAfter k sock (.request req q.port) = sock) :
    Inv past ((replies (s.serve dht p.host (.request req q.port)).2).foldl (handleReply p q)
      ((s.serve dht p.host (.request req q.port)).1.post p.host (s.serve dht p.host (.request req q.port)).2)) := by
  have he := honestEvent_ask hq hmade hreq (s.server p.host)
  have hnames := regNames_ask hreq
  have hpost := h.post_serve dht he hnames hsock
  have hplug : (s.servers p.host).exc = none → ∀ socks, Sockets (s.servers p.host) socks →
      Plugged s.channels p.host socks →
      Plugged s.channels p.host fun actorKey => sockAfter actorKey (socks actorKey) (.request req q.port) := by
    intro _ socks _ hplugged
    simpa only [hsock] using hplugged
  obtain ⟨rep, upds, hsent, hrep, -⟩ := h.sent_serve dht he hnames hplug
  have hreplies : replies (s.serve dht p.host (.request req q.port)).2 = rep.toList := by rw [hsent, replies_sent]
  rw [hreplies]
  cases rep with
  | none => exact hpost
  | some r =>
    obtain ⟨req', port', heq, hanswers⟩ := hrep r rfl
    obtain ⟨rfl, rfl⟩ := DiscoService.Event.request.inj heq
    rw [Option.toList_some, List.foldl_cons, List.foldl_nil]
    cases q with
    | registerActor port =>
      obtain rfl := Option.some.inj hreq
      have hbound := hsock (appActorName p.actor.appName p.actor.name) none
      simp [sockAfter, Actor.registerActor, Ask.port] at hbound
    | registerEndpoint partName info =>
      cases r with
      | serviceLookup key string sockets =>
        rw [Ask.req, Actor.registerEndpoint] at hreq
        split_ifs at hreq with hprovider hclient
        · obtain rfl := Option.some.inj hreq
          obtain ⟨⟨path', client', hne, -⟩, -⟩ := hanswers
          cases hne
        · obtain rfl := Option.some.inj hreq
          exact hpost.updatePart (right_of_answers ⟨_, hq, by rw [Ask.seeks, if_pos hclient], hmade⟩ hanswers)
      | actorReg | actorUnreg | serviceReg | serviceUnreg | serviceUnlookup => exact hpost
    | lookupGroup g =>
      obtain rfl := Option.some.inj hreq
      cases r with
      | serviceLookup key string sockets => exact hpost.updatePart (right_of_answers ⟨_, hq, rfl, hmade⟩ hanswers)
      | actorReg | actorUnreg | serviceReg | serviceUnreg | serviceUnlookup => exact hpost
    | regGroup | unlookupGroup | unregGroup | terminate => exact hpost

/-- An actor registers, at a server that has not ended: it gets a socket. -/
theorem Inv.registered (h : Inv past s) {port : ℕ} (hq : .ask p (.registerActor port) ∈ past)
    (hfresh : ∀ c ∈ (s.servers p.host).clients.items, c.2 ≠ .sock port) :
    Inv past (((s.serve dht p.host (.request p.actor.registerActor port)).1.post p.host
      (s.serve dht p.host (.request p.actor.registerActor port)).2).connect p port) := by
  have he := honestEvent_ask hq trivial (show (Ask.registerActor port).req p.actor = some _ from rfl) (s.server p.host)
  have hnames : RegNames (.request p.actor.registerActor port) := regNames_ask (p := p) (q := .registerActor port) rfl
  have hplug : ∀ socks, Sockets (s.servers p.host) socks → Plugged s.channels p.host socks →
      Plugged (Function.update s.channels p (some (port : ℤ))) p.host fun actorKey =>
        sockAfter actorKey (socks actorKey) (.request p.actor.registerActor port) := by
    intro socks hsocks hplugged
    have hnew : ∀ k, socks k ≠ some port := by
      intro k hk
      have hget := hsocks k
      rw [hk] at hget
      exact hfresh _ (Dict.get?_eq_some_iff.mp hget) rfl
    constructor
    · intro k k' sock hk hk'
      simp only [sockAfter, Actor.registerActor] at hk hk'
      split_ifs at hk hk' with hkey hkey' hkey'
      · rw [hkey, hkey']
      · rw [← Option.some.inj hk] at hk'
        exact absurd hk' (hnew k')
      · rw [← Option.some.inj hk'] at hk
        exact absurd hk (hnew k)
      · exact hplugged.inj k k' sock hk hk'
    · intro q hhost sock hsock
      simp only [sockAfter, Actor.registerActor]
      by_cases hqp : q = p
      · subst hqp
        rw [Function.update_self] at hsock
        exact ⟨port, (Option.some.inj hsock).symm, if_pos rfl⟩
      · rw [Function.update_of_ne hqp] at hsock
        have hkey : q.actor.key ≠ appActorName p.actor.appName p.actor.name := fun h => hqp (Peer.eq_of_key hhost h)
        rw [if_neg hkey]
        exact hplugged.channel q hhost sock hsock
  refine h.of_serve he hnames rfl rfl (fun _ => hplug) (fun q hq => ?_) (fun j sock upd hupd => ?_) h.control rfl rfl
  · refine Function.update_of_ne (fun hqp => hq ?_) ..
    rw [hqp]
  · rw [connect] at hupd ⊢
    dsimp only at hupd ⊢
    by_cases hj : j = p.host
    · subst hj
      rw [Function.update_self] at hupd
      by_cases hsock : sock = port
      · subst hsock
        rw [Function.update_self] at hupd
        exact absurd hupd List.not_mem_nil
      · rw [Function.update_of_ne hsock] at hupd
        refine h.mail_post he hnames (fun _ => hplug) (fun q _ hchannel => ?_) hupd
        by_cases hqp : q = p
        · rw [hqp, Function.update_self] at hchannel
          exact absurd (Option.some.inj hchannel).symm hsock
        · rwa [Function.update_of_ne hqp] at hchannel
    · rw [Function.update_of_ne hj] at hupd
      refine h.mail_post he hnames (fun _ => hplug) (fun q hqj hchannel => ?_) hupd
      rwa [Function.update_of_ne fun hqp => hj (by rw [← hqj, hqp])] at hchannel

/-- What a server that has not ended replies to an actor that registers. -/
theorem replies_registerActor {port : ℕ} (hexc : (s.servers p.host).exc = none) :
    replies (s.serve dht p.host (.request p.actor.registerActor port)).2 = [.actorReg port] := by
  have hstep : (DiscoService.step (n.hosts p.host) dht (s.server p.host) (.request p.actor.registerActor port)).sent =
      (s.servers p.host).sent ++ [.reply (.actorReg port)] := by
    simp only [DiscoService.step]
    rw [if_pos (show (s.server p.host).exc = none from hexc)]
    rfl
  rw [serve]
  dsimp only
  rw [hstep, List.drop_left]
  rfl

/-- An actor terminates: its socket is closed. -/
theorem Inv.terminated (h : Inv past s) (hq : .ask p .terminate ∈ past) {req : DiscoReq}
    (hreq : Ask.terminate.req p.actor = some req) :
    Inv past { (s.serve dht p.host (.request req 0)).1.post p.host (s.serve dht p.host (.request req 0)).2 with
      channels := Function.update s.channels p none } := by
  have he := honestEvent_ask hq trivial hreq (s.server p.host)
  have hnames := regNames_ask hreq
  obtain rfl := Option.some.inj hreq
  have hold : ∀ q sock, Function.update s.channels p none q = some sock → q ≠ p ∧ s.channels q = some sock := by
    intro q sock hsock
    by_cases hqp : q = p
    · rw [hqp, Function.update_self] at hsock
      cases hsock
    · rw [Function.update_of_ne hqp] at hsock
      exact ⟨hqp, hsock⟩
  have hplug : ∀ socks, Sockets (s.servers p.host) socks → Plugged s.channels p.host socks →
      Plugged (Function.update s.channels p none) p.host fun actorKey =>
        sockAfter actorKey (socks actorKey)
          (.request (.actorUnreg p.actor.appName ['0', '.', '0', '.', '0'] p.actor.name) 0) := by
    intro socks _ hplugged
    constructor
    · intro k k' sock hk hk'
      simp only [sockAfter] at hk hk'
      split_ifs at hk hk'
      exact hplugged.inj k k' sock hk hk'
    · intro q hhost sock hsock
      obtain ⟨hqp, hsock⟩ := hold q sock hsock
      have hkey : q.actor.key ≠ appActorName p.actor.appName p.actor.name := fun h => hqp (Peer.eq_of_key hhost h)
      simp only [sockAfter]
      rw [if_neg hkey]
      exact hplugged.channel q hhost sock hsock
  refine h.of_serve he hnames rfl rfl (fun _ => hplug) (fun q hq => ?_) (fun j sock upd hupd => ?_) h.control rfl rfl
  · refine Function.update_of_ne (fun hqp => hq ?_) ..
    rw [hqp]
  · exact h.mail_post he hnames (fun _ => hplug) (fun q _ hchannel => (hold q sock hchannel).2) hupd

theorem foldl_handleReply_terminate (reps : List DiscoRep) (t : Connecting n) :
    reps.foldl (handleReply p .terminate) t = t := by
  induction reps with
  | nil => rfl
  | cons r reps ih => exact ih

theorem Inv.ended (h : Inv past s) {i : ι} {e : DiscoService.Event} (hexc : (s.servers i).exc ≠ none)
    (he : HonestEvent (n.hosts i) (Offers past) (Looks past i) (s.server i) e) (hnames : RegNames e) :
    Inv past ((s.serve dht i e).1.post i []) := by
  refine h.of_serve he hnames rfl rfl (fun hrun => absurd hrun hexc) (fun _ _ => rfl) (fun j sock upd hupd => ?_)
    h.control rfl rfl
  rw [← sent_of_ended dht hexc e] at hupd
  exact h.mail_post he hnames (fun hrun => absurd hrun hexc) (fun _ _ => id) hupd

theorem Inv.ask (h : Inv past s) {q : Ask} (hq : .ask p q ∈ past) (hpossible : Possible s (.ask p q)) :
    Inv past (s.ask dht p q) := by
  obtain ⟨hmade, hfresh⟩ := hpossible
  rw [Connecting.ask]
  cases hreq : q.req p.actor with
  | none => exact h
  | some req =>
    dsimp only
    cases q with
    | registerActor port =>
      obtain rfl := Option.some.inj hreq
      rw [if_neg (by simp)]
      by_cases hexc : (s.servers p.host).exc = none
      · rw [Ask.port, replies_registerActor hexc]
        exact h.registered hq hfresh
      · rw [Ask.port, (show (s.serve dht p.host _).2 = [] from sent_of_ended dht hexc _)]
        exact h.ended hexc (honestEvent_ask hq hmade rfl _) (regNames_ask (p := p) (q := .registerActor port) rfl)
    | terminate =>
      rw [if_pos rfl, foldl_handleReply_terminate]
      exact h.terminated hq hreq
    | registerEndpoint partName info =>
      rw [if_neg (by simp)]
      refine h.asked hq hmade hreq fun k sock => ?_
      rw [Ask.req, Actor.registerEndpoint] at hreq
      split_ifs at hreq
      · obtain rfl := Option.some.inj hreq
        rfl
      · obtain rfl := Option.some.inj hreq
        rfl
    | lookupGroup g | regGroup g | unlookupGroup g | unregGroup g =>
      rw [if_neg (by simp)]
      refine h.asked hq hmade hreq fun k sock => ?_
      obtain rfl := Option.some.inj hreq
      rfl

/-- The listener of a key is called, or the republisher puts: nothing is sent. -/
theorem Inv.silent (h : Inv past s) {i : ι} {e : DiscoService.Event}
    (he : HonestEvent (n.hosts i) (Offers past) (Looks past i) (s.server i) e) (hnames : RegNames e)
    (hsock : ∀ k sock, sockAfter k sock e = sock) : Inv past (s.serve dht i e).1 := by
  refine h.of_serve he hnames rfl rfl (fun _ socks _ hplugged => ?_) (fun _ _ => rfl) h.mail h.control rfl rfl
  simp only [hsock]
  exact hplugged

/-- An update that is due is for this actor, and right for the port. -/
theorem Inv.receive (h : Inv past s) {sock : ℤ} {upd : PortUpd} (hdue : Due past s.channels p.host sock upd)
    (hsock : s.channels p = some sock) : Inv past (s.handleServiceUpdate p upd) := by
  obtain ⟨c, partName, port, -, hsought, hclient, hscope, ⟨q, info, hprovided, hserves, haddress⟩, hown⟩ := hdue
  obtain rfl := hown p rfl hsock
  rw [handleServiceUpdate]
  split_ifs with hdiscard hassert
  · exact h
  · refine absurd ?_ hassert.2
    have hne : info.portScope ≠ .global := by
      rintro hglobal
      rw [hserves.scope] at hglobal
      exact hassert.1 (by rw [hscope, hglobal]; rfl)
    rw [haddress, address, if_neg hne, n.localHost_eq _ _ q.mem, n.localHost_eq _ _ p.mem]
  · rw [hclient]
    refine h.updatePart fun socket hsocket => ?_
    rw [List.mem_singleton.mp hsocket]
    exact ⟨port, q, info, hsought, rfl, hprovided, hserves, haddress⟩

theorem mem_connections_update {portName part name : Text} {socket socket' : Socket}
    (h : socket' ∈ (s.update p partName portName socket).connections c part name) :
    socket' ∈ s.connections c part name ∨ c = p ∧ part = partName ∧ name = portName ∧ socket' = socket := by
  rw [update] at h
  split_ifs at h with hmem
  · exact .inl h
  · by_cases hc : c = p
    · subst hc
      by_cases hpart : part = partName
      · subst hpart
        by_cases hname : name = portName
        · subst hname
          simp only [Function.update_self] at h
          exact (List.mem_append.mp h).imp_right fun h => ⟨rfl, rfl, rfl, List.mem_singleton.mp h⟩
        · simp only [Function.update_self, Function.update_of_ne hname] at h
          exact .inl h
      · simp only [Function.update_self, Function.update_of_ne hpart] at h
        exact .inl h
    · simp only [Function.update_of_ne hc] at h
      exact .inl h

theorem Inv.update (h : Inv past s) {portName : Text} {socket : Socket}
    (hright : Right past p partName portName socket) : Inv past (s.update p partName portName socket) := by
  have hframe : (s.update p partName portName socket).servers = s.servers ∧
      (s.update p partName portName socket).puts = s.puts ∧
      (s.update p partName portName socket).channels = s.channels ∧
      (s.update p partName portName socket).mail = s.mail ∧
      (s.update p partName portName socket).control = s.control ∧
      (s.update p partName portName socket).raised = s.raised := by
    rw [Connecting.update]
    split_ifs <;> exact ⟨rfl, rfl, rfl, rfl, rfl, rfl⟩
  obtain ⟨hservers, hputs, hchannels, hmail, hcontrol, hraised⟩ := hframe
  exact {
    honest := fun i => by
      rw [server, hservers, hputs]
      exact h.honest i
    socks := by
      rw [hservers, hchannels]
      exact h.socks
    mail := by
      rw [hmail, hchannels]
      exact h.mail
    control := by
      rw [hcontrol]
      exact h.control
    connections := fun c part name socket' hs => by
      rcases mem_connections_update hs with hs | ⟨rfl, rfl, rfl, rfl⟩
      · exact h.connections c part name socket' hs
      · exact hright
    raised := hraised.trans h.raised }

theorem Inv.portUpdate (h : Inv past s) {portName : Text} {socket : Socket}
    (hright : Right past p partName portName socket) : Inv past (s.portUpdate p partName portName socket) := by
  rw [Connecting.portUpdate]
  split
  · rename_i info hfind
    have hclient : info.portKind.isClient = true := by
      obtain ⟨port, -, -, hsought, rfl, -⟩ := hright
      exact hsought.connects hfind
    rw [if_pos hclient]
    exact h.update hright
  · split_ifs
    · exact h.update hright
    · exact h

/-- **One event** keeps the invariant. -/
theorem Inv.step (h : Inv past s) {e : Event n} (he : e ∈ past) (hpossible : Possible s e) :
    Inv past (step dht s e) := by
  cases e with
  | ask p q => exact h.ask he hpossible
  | joinGroup p partName groupName => exact ⟨h.honest, h.socks, h.mail, h.control, h.connections, h.raised⟩
  | leaveGroup p partName groupName =>
    refine ⟨h.honest, h.socks, h.mail, h.control, fun c part name socket hsocket => ?_, h.raised⟩
    exact h.connections c part name socket (mem_connections_leaveGroup hsocket)
  | timeout i =>
    exact h.post_serve dht ⟨fun _ hc => absurd hc List.not_mem_nil, fun _ _ _ he => by cases he⟩ trivial fun _ _ => rfl
  | dhtValueCallback i key value expired =>
    refine h.silent ⟨fun _ hc => absurd hc List.not_mem_nil, fun _ _ _ he => ?_⟩ trivial fun _ _ => rfl
    obtain ⟨rfl, rfl, rfl⟩ := DiscoService.Event.dhtValueCallback.inj he
    exact hpossible
  | dhtRepublish i event =>
    exact h.silent ⟨fun _ hc => absurd hc List.not_mem_nil, fun _ _ _ he => by cases he⟩ trivial fun _ _ => rfl
  | receive p =>
    simp only [Connecting.step]
    cases hsock : s.channels p with
    | none => exact h
    | some sock =>
      cases hmail : s.mail p.host sock with
      | nil =>
        simp only [hmail]
        exact h
      | cons upd rest =>
        simp only [hmail]
        have hdue := h.mail p.host sock upd (by rw [hmail]; exact List.mem_cons_self)
        have hinv : Inv past
            { s with mail := Function.update s.mail p.host (Function.update (s.mail p.host) sock rest) } := by
          refine ⟨h.honest, h.socks, fun j sock' upd' hupd => ?_, h.control, h.connections, h.raised⟩
          exact h.mail j sock' upd' (mem_of_mem_update₂ (by rw [hmail]; exact List.subset_cons_self ..) hupd)
        exact hinv.receive hdue hsock
  | runCommand p partName =>
    simp only [Connecting.step]
    cases hcontrol : s.control p partName with
    | nil => exact h
    | cons m rest =>
      have hright := h.control p partName m (by rw [hcontrol]; exact List.mem_cons_self)
      have hinv : Inv past
          { s with control := Function.update s.control p (Function.update (s.control p) partName rest) } := by
        refine ⟨h.honest, h.socks, h.mail, fun c part m' hm => ?_, h.connections, h.raised⟩
        exact h.control c part m' (mem_of_mem_update₂ (by rw [hcontrol]; exact List.subset_cons_self ..) hm)
      exact hinv.portUpdate hright

theorem inv_run (n : Network ι) (dht : Dht) {events : List (Event n)}
    (hpossible : AllSteps (Connecting.step dht) Possible (.init n) events) :
    Inv events (run (Connecting.step dht) (.init n) events) := by
  induction events using List.reverseRecOn with
  | nil => exact .init n
  | append_singleton events e ih =>
    rw [run_append, run_cons, run_nil]
    have hbefore := ih (hpossible.initial (List.prefix_append _ _))
    have hlast := hpossible events e (List.prefix_refl _)
    exact (hbefore.mono fun _ he => List.mem_append_left _ he).step
      (List.mem_append_right _ (List.mem_singleton_self e)) hlast

/-- **No port is connected to a wrong one.** In every run, whatever a port is connected to is the address of a provider
that was registered by an actor of the same application, with the same message type, of the kind that serves the
port's, in the same scope, on the same host unless that is global and for the same actor if it is internal. And no
part ever gets an update for a port that does not connect, or with the address of another host for a local service. -/
theorem connected_run (n : Network ι) (dht : Dht) (events : List (Event n))
    (hpossible : AllSteps (Connecting.step dht) Possible (.init n) events) :
    (run (Connecting.step dht) (.init n) events).raised = none ∧
      ∀ c partName portName, ∀ socket ∈ (run (Connecting.step dht) (.init n) events).connections c partName portName,
        ∃ port p info, Sought events c partName port ∧ port.portName = portName ∧ Provided events p info ∧
          Serves p info c port ∧ socket = address p info :=
  ⟨(inv_run n dht hpossible).raised, (inv_run n dht hpossible).connections⟩

/-- Two hosts. -/
def hosts₁ (second : Bool) : Host :=
  if second then ⟨['o'], ['n'], by decide, by decide, by decide, by decide⟩ else DiscoService.host₁

/-- An actor with a publisher and a subscriber, on either host. -/
def actor₁ (second : Bool) : Actor where
  appName := ['a']
  name := ['x']
  isDevice := false
  globalHost := (hosts₁ second).hostAddress
  localHost := ['l']
  components := [.part ['c'] [⟨.pub, .global, ['p'], ['t'], 5⟩, ⟨.sub, .global, ['s'], ['t'], 0⟩]]
  groups := []

def network₁ : Network Bool where
  hosts := hosts₁
  localHost := ['l']
  actors second := [actor₁ second]
  mac_inj := by decide
  colon_mac := by decide
  colon_host := by decide
  colon_localHost := by decide
  globalHost_eq := by decide
  localHost_eq := by decide
  appName := by decide
  name := by decide
  parts := by
    intro i a ha partName ports hports
    obtain rfl := List.mem_singleton.mp ha
    simp only [actor₁, Actor.part, List.findSome?_cons, List.findSome?_nil, Option.mem_def] at hports
    split_ifs at hports with hname
    · subst hname
      obtain rfl := Option.some.inj hports
      decide
  key_inj := by
    intro i a ha b hb _
    rw [List.mem_singleton.mp ha, List.mem_singleton.mp hb]

def peer₁ (second : Bool) : Peer network₁ := ⟨second, actor₁ second, List.mem_singleton_self _⟩

/-- The subscriber of the first host looks up, the publishers of both register, and the subscriber is told: of the one
on its host at once, of the other after the table has called. -/
def connecting₁ : List (Event network₁) :=
  [.ask (peer₁ false) (.registerActor 1), .ask (peer₁ true) (.registerActor 1),
    .ask (peer₁ false) (.registerEndpoint ['c'] ⟨.sub, .global, ['s'], ['t'], 0⟩),
    .ask (peer₁ false) (.registerEndpoint ['c'] ⟨.pub, .global, ['p'], ['t'], 5⟩),
    .ask (peer₁ true) (.registerEndpoint ['c'] ⟨.pub, .global, ['p'], ['t'], 5⟩),
    .dhtValueCallback false ['/', 'a', '/', 't', '/', 'p', 'u', 'b'] ['o', ':', '5'] false, .timeout false,
    .receive (peer₁ false), .receive (peer₁ false), .runCommand (peer₁ false) ['c'], .runCommand (peer₁ false) ['c']]

theorem connected_two :
    (run (Connecting.step .inOrder) (.init network₁) connecting₁).connections (peer₁ false) ['c'] ['s'] =
        [⟨['h'], 5⟩, ⟨['o'], 5⟩] ∧
      ∃ port p info, Sought connecting₁ (peer₁ false) ['c'] port ∧ port.portName = ['s'] ∧ Provided connecting₁ p info ∧
        Serves p info (peer₁ false) port ∧ ⟨['o'], 5⟩ = address p info :=
  ⟨by decide +kernel,
    (connected_run network₁ .inOrder connecting₁ (by decide +kernel)).2 (peer₁ false) ['c'] ['s'] ⟨['o'], 5⟩
      (by decide +kernel)⟩

end Connecting

end Riaps.Run
