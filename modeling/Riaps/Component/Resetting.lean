import Mathlib.Data.List.Induction
import Riaps.Component.Wiring

/-!
# Resetting ports

A port that is reset should be as it was: its socket is another one, but it has the options that
`setupSocket` gave it, the timeouts that were set since, and a connection to each server that
the port was told of (`Restored`), and it has taken the place of the old one in the poller and
the maps (`HasSocket`), which have no socket that was closed (`AllOpen`).

`reset` has its own list of options, for each kind of port. For a request port it is empty, so the
socket loses `REQ_RELAXED` and `REQ_CORRELATE`. `Follows` is the invariant of a port over its
calls, and `transparent_iff` says that all the others are as they were.
-/

namespace Riaps.Component.Sockets

open Riaps.Foundation

/-! ### Calls -/

namespace Operation

/-- The timeouts of the options as an operation sets them. -/
def setOption (options : SockOpt → Option OptValue) : Operation → SockOpt → Option OptValue
  | .setRecvTimeout rto => (ComponentThread.timeoutOption rto).elim options fun ms =>
    Function.update options .rcvtimeo (some (.int ms))
  | .setSendTimeout sto => (ComponentThread.timeoutOption sto).elim options fun ms =>
    Function.update options .sndtimeo (some (.int ms))
  | .update _ | .reset => options

/-- An operation that a port of the kind has: a port that connects is told of servers, and a timeout is one that the
socket can have. -/
def Accepted (kind : Kind) : Operation → Prop
  | .update _ => kind.connects
  | .reset => True
  | .setRecvTimeout seconds | .setSendTimeout seconds => (ComponentThread.timeoutOption seconds).isSome

end Operation

/-- The options with their timeouts as last set. -/
def lastSet (ops : List Operation) (options : SockOpt → Option OptValue) : SockOpt → Option OptValue :=
  ops.foldl Operation.setOption options

/-- What a port and its socket have become since the port was `p₀`. -/
structure Follows (p₀ : Port) (ops : List Operation) (p : Port) (s : Socket) : Prop where
  spec : p.toPortSpec = p₀.toPortSpec
  nodup : p.servers.Nodup
  servers : ∀ server, server ∈ p.servers ↔ .update server ∈ ops
  socket : s = p.built (if .reset ∈ ops then p.resetOptions else p.setupOptions)
  options : p.options p.setupOptions = lastSet ops (p₀.options p₀.setupOptions)

theorem lastSet_concat (ops : List Operation) (op : Operation) (options : SockOpt → Option OptValue) :
    lastSet (ops ++ [op]) options = op.setOption (lastSet ops options) := by
  rw [lastSet, lastSet, List.foldl_append]
  rfl

theorem assign_update {sockopts : List (SockOpt × OptValue)} {k : SockOpt} (h : k ∉ sockopts.map Prod.fst)
    (v : Option OptValue) (options : SockOpt → Option OptValue) :
    assign sockopts (Function.update options k v) = Function.update (assign sockopts options) k v := by
  induction sockopts generalizing options with
  | nil => rfl
  | cons o sockopts ih =>
    rw [List.map_cons, List.mem_cons, not_or] at h
    rw [assign, assign, List.foldl_cons, List.foldl_cons, Function.update_comm h.1]
    exact ih h.2 _

theorem assign_of_notMem {sockopts : List (SockOpt × OptValue)} {k : SockOpt} (h : k ∉ sockopts.map Prod.fst)
    (options : SockOpt → Option OptValue) : assign sockopts options k = options k := by
  have hself : Function.update options k (options k) = options := Function.update_eq_self k options
  rw [← hself, assign_update h, Function.update_self, Function.update_self]

namespace Port

/-- The options that are the kind's own, or those of the keys, are not about timeouts. -/
theorem timeout_notMem {p : Port} {k : SockOpt} (hk : k = .rcvtimeo ∨ k = .sndtimeo) :
    k ∉ p.setupOptions.map Prod.fst ∧ k ∉ p.resetOptions.map Prod.fst ∧ k ∉ (p.curve false).map Prod.fst := by
  refine ⟨?_, ?_, ?_⟩
  · rw [setupOptions]
    cases p.kind <;> rcases hk with rfl | rfl <;> simp
  · rw [resetOptions, setupOptions]
    cases p.kind <;> rcases hk with rfl | rfl <;> simp
  · rw [curve]
    cases p.publicKey <;> cases p.privateKey <;> rcases hk with rfl | rfl <;> simp

/-- A request port loses an option when it is reset. -/
theorem options_reset_ne {p : Port} (h : p.kind = .req) :
    p.options p.resetOptions .reqRelaxed ≠ p.options p.setupOptions .reqRelaxed := by
  have hcurve : SockOpt.reqRelaxed ∉ (p.curve false).map Prod.fst := by
    rw [curve]
    cases p.publicKey <;> cases p.privateKey <;> simp
  rw [options, options, assign_of_notMem hcurve, assign_of_notMem hcurve]
  simp [resetOptions, setupOptions, sockoptions, assign, h]

theorem options_recvTimeout {p : Port} {sockopts : List (SockOpt × OptValue)}
    (h : .rcvtimeo ∉ sockopts.map Prod.fst) (ms : Int32) :
    { p with recvTimeout := ms }.options sockopts =
      Function.update (p.options sockopts) .rcvtimeo (some (.int ms)) := by
  have hset : assign { p with recvTimeout := ms }.sockoptions (fun _ => none) =
      Function.update (assign p.sockoptions fun _ => none) .rcvtimeo (some (.int ms)) := by
    funext k
    cases k <;> rfl
  rw [options, hset, assign_update h]
  exact assign_update (timeout_notMem (.inl rfl)).2.2 _ _

theorem options_sendTimeout {p : Port} {sockopts : List (SockOpt × OptValue)}
    (h : .sndtimeo ∉ sockopts.map Prod.fst) (ms : Int32) :
    { p with sendTimeout := ms }.options sockopts =
      Function.update (p.options sockopts) .sndtimeo (some (.int ms)) := by
  have hset : assign { p with sendTimeout := ms }.sockoptions (fun _ => none) =
      Function.update (assign p.sockoptions fun _ => none) .sndtimeo (some (.int ms)) := by
    funext k
    cases k <;> rfl
  rw [options, hset, assign_update h]
  exact assign_update (timeout_notMem (.inr rfl)).2.2 _ _

end Port

namespace Follows

variable {p₀ p : Port} {s : Socket} {ops : List Operation}

theorem start (hnew : p₀.servers = []) : Follows p₀ [] p₀ (p₀.built p₀.setupOptions) :=
  ⟨rfl, by simp [hnew], by simp [hnew], rfl, rfl⟩

/-- The server is known. -/
theorem update_mem (h : Follows p₀ ops p s) {server : Server} (hmem : server ∈ p.servers) :
    Follows p₀ (ops ++ [.update server]) p s := by
  refine ⟨h.spec, h.nodup, fun server' => ?_, ?_, ?_⟩
  · rw [h.servers, List.mem_append, List.mem_singleton, Operation.update.injEq]
    refine ⟨.inl, fun hor => hor.elim id ?_⟩
    rintro rfl
    exact (h.servers _).mp hmem
  · simpa using h.socket
  · rw [lastSet_concat]
    exact h.options

/-- The server is new. -/
theorem update (h : Follows p₀ ops p s) {server : Server} (hmem : server ∉ p.servers) :
    Follows p₀ (ops ++ [.update server]) { p with servers := p.servers ++ [server] }
      { s with connections := s.connections ++ [srvPort server] } := by
  refine ⟨h.spec, h.nodup.append (List.nodup_singleton _) (by simpa using hmem), fun server' => ?_, ?_, ?_⟩
  · simp [h.servers]
  · rw [h.socket]
    simp [Port.built, Port.options, Port.setupOptions, Port.resetOptions, Port.sockoptions, Port.curve]
  · rw [lastSet_concat]
    exact h.options

/-- The socket is built again. -/
theorem reset (h : Follows p₀ ops p s) (i : ℕ) :
    Follows p₀ (ops ++ [.reset]) { p with socket := some i } (p.built p.resetOptions) := by
  refine ⟨h.spec, h.nodup, fun server' => ?_, ?_, ?_⟩
  · simp [h.servers]
  · rw [if_pos (by simp)]
    rfl
  · rw [lastSet_concat]
    exact h.options

/-- A timeout is set. -/
theorem setTimeout (h : Follows p₀ ops p s) {p' : Port} {op : Operation} {k : SockOpt} {ms : Int32}
    (hk : k = .rcvtimeo ∨ k = .sndtimeo) (hspec : p'.toPortSpec = p.toPortSpec) (hservers : p'.servers = p.servers)
    (hoptions : ∀ sockopts : List (SockOpt × OptValue), k ∉ sockopts.map Prod.fst →
      p'.options sockopts = Function.update (p.options sockopts) k (some (.int ms)))
    (hop : ∀ options, op.setOption options = Function.update options k (some (.int ms)))
    (hupdate : ∀ server, op ≠ .update server) (hreset : op ≠ .reset) :
    Follows p₀ (ops ++ [op]) p' { s with options := Function.update s.options k (some (.int ms)) } := by
  have hkind : p'.kind = p.kind := congrArg PortSpec.kind hspec
  have hsetup : p'.setupOptions = p.setupOptions := by
    rw [Port.setupOptions, Port.setupOptions, hkind, congrArg PortSpec.identity hspec]
  have hresetOptions : p'.resetOptions = p.resetOptions := by rw [Port.resetOptions, Port.resetOptions, hkind, hsetup]
  obtain ⟨hs, hr, -⟩ := p.timeout_notMem hk
  refine ⟨hspec.trans h.spec, by rw [hservers]; exact h.nodup, fun server => ?_, ?_, ?_⟩
  · rw [hservers, h.servers, List.mem_append, List.mem_singleton]
    exact ⟨.inl, fun hor => hor.resolve_right fun e => hupdate server e.symm⟩
  · have hmem : .reset ∈ ops ++ [op] ↔ .reset ∈ ops := by simp [Ne.symm hreset]
    have hnot : k ∉ (if .reset ∈ ops then p.resetOptions else p.setupOptions).map Prod.fst := by
      by_cases hin : .reset ∈ ops
      · rwa [if_pos hin]
      · rwa [if_neg hin]
    simp only [hmem, hresetOptions, hsetup]
    rw [Port.built, hoptions _ hnot, hkind, hservers, h.socket]
    rfl
  · rw [lastSet_concat, hop, ← h.options, hsetup]
    exact hoptions _ hs

theorem setRecvTimeout (h : Follows p₀ ops p s) {rto : Option ℚ} {ms : Int32}
    (hms : ComponentThread.timeoutOption rto = some ms) :
    Follows p₀ (ops ++ [.setRecvTimeout rto]) { p with recvTimeout := ms }
      { s with options := Function.update s.options .rcvtimeo (some (.int ms)) } :=
  h.setTimeout (.inl rfl) rfl rfl (fun _ hnot => Port.options_recvTimeout hnot ms)
    (fun options => by rw [Operation.setOption, hms]; rfl) (by simp) (by simp)

theorem setSendTimeout (h : Follows p₀ ops p s) {sto : Option ℚ} {ms : Int32}
    (hms : ComponentThread.timeoutOption sto = some ms) :
    Follows p₀ (ops ++ [.setSendTimeout sto]) { p with sendTimeout := ms }
      { s with options := Function.update s.options .sndtimeo (some (.int ms)) } :=
  h.setTimeout (.inr rfl) rfl rfl (fun _ hnot => Port.options_sendTimeout hnot ms)
    (fun options => by rw [Operation.setOption, hms]; rfl) (by simp) (by simp)

end Follows

/-! ### Runs -/

/-- The operations of a port in a history. -/
def operations (name : Text) (cs : List Call) : List Operation := (cs.filter (·.1 = name)).map Prod.snd

theorem operations_concat_self (cs : List Call) (c : Call) :
    operations c.1 (cs ++ [c]) = operations c.1 cs ++ [c.2] := by
  simp [operations]

theorem operations_concat_of_ne {name : Text} (cs : List Call) {c : Call} (h : c.1 ≠ name) :
    operations name (cs ++ [c]) = operations name cs := by
  simp [operations, h]

/-- A socket is as `setupSocket` and the updates make it, when `s₀` is the socket that `setupSocket` made. -/
structure Restored (name : Text) (cs : List Call) (s₀ s : Socket) : Prop where
  isOpen : s.closed = false
  zmqType : s.zmqType = s₀.zmqType
  /-- The options, with the timeouts as last set. -/
  options : s.options = lastSet (operations name cs) s₀.options
  /-- It is connected to the servers of the updates, to each once. -/
  nodup : s.connections.Nodup
  connections : ∀ e, e ∈ s.connections ↔ ∃ server, (name, .update server) ∈ cs ∧ srvPort server = e

namespace ComponentThread

variable {t₀ t t' : ComponentThread} {name : Text} {p p' : Port} {s s' : Socket} {cs : List Call} {c : Call}

theorem reset_of_connects (h : p.kind.connects) (t : ComponentThread) :
    t.reset p = t.resetConnSocket p p.kind.zmqType p.resetOptions := by
  rw [reset, Port.resetOptions, Port.setupOptions]
  cases hk : p.kind with
  | sub | clt | req | qry => rfl
  | pub | srv | rep | ans | tim | ins => simp [hk, Kind.connects] at h

theorem reset_of_not_connects (h : ¬p.kind.connects) (t : ComponentThread) : t.reset p = some t := by
  rw [reset]
  cases hk : p.kind with
  | sub | clt | req | qry => simp [hk, Kind.connects] at h
  | pub | srv | rep | ans | tim | ins => rfl

/-- What a call does to the port, to its socket and to the maps. -/
theorem Wired.call (h : Wired t) (hview : t.view c.1 = some (p, s)) (haccepted : c.2.Accepted p.kind) {p₀ : Port}
    {ops : List Operation} (hfollows : p.kind.connects → Follows p₀ ops p s) :
    ∃ t' p' s', t.call c = some t' ∧ Wired t' ∧ t'.view = Function.update t.view c.1 (some (p', s')) ∧
      p'.toPortSpec = p.toPortSpec ∧ (p.kind.connects → Follows p₀ (ops ++ [c.2]) p' s') := by
  obtain ⟨name, op⟩ := c
  obtain ⟨hp, i, hi, hs⟩ := view_eq_some.mp hview
  obtain ⟨i', s', hi', -, hs', hopen⟩ := h.look hp
  obtain rfl := Option.some.inj (hi'.symm.trans hi)
  obtain rfl := Option.some.inj (hs'.symm.trans hs)
  have hsame : t.view = Function.update t.view name (some (p, s')) := by rw [← hview, Function.update_eq_self]
  rw [ComponentThread.call, hp, Option.bind_eq_bind, Option.bind_some]
  cases op with
  | update server =>
    have hconn : p.kind.connects := haccepted
    have hfol := hfollows hconn
    simp only [ComponentThread.update, hconn, not_true_eq_false, if_false]
    by_cases hmem : server ∈ p.servers
    · rw [if_pos hmem]
      exact ⟨t, p, s', rfl, h, hsame, rfl, fun _ => hfol.update_mem hmem⟩
    · rw [if_neg hmem]
      obtain ⟨t', ht', hw, hv⟩ := h.change { p with servers := p.servers ++ [server] }
        { s' with connections := s'.connections ++ [srvPort server] } hp rfl rfl hview
        (f := fun s => s.connect (srvPort server)) (by simp [Socket.connect, hopen]) hopen
      exact ⟨t', _, _, ht', hw, hv, rfl, fun _ => hfol.update hmem⟩
  | reset =>
    by_cases hconn : p.kind.connects
    · have hfol := hfollows hconn
      have hconns : s'.connections = p.servers.map srvPort := by rw [hfol.socket]; rfl
      obtain ⟨t', ht', hw, hv⟩ := h.resetConnSocket hview hconns p.resetOptions
      exact ⟨t', _, _, by rw [← ht']; exact reset_of_connects hconn t, hw, hv, rfl, fun _ => hfol.reset _⟩
    · exact ⟨t, p, s', reset_of_not_connects hconn t, h, hsame, rfl, fun hc => absurd hc hconn⟩
  | setRecvTimeout rto =>
    obtain ⟨ms, hms⟩ := Option.isSome_iff_exists.mp haccepted
    obtain ⟨t', ht', hw, hv⟩ := h.change { p with recvTimeout := ms }
      { s' with options := Function.update s'.options .rcvtimeo (some (.int ms)) } hp rfl rfl hview
      (f := fun s => s.setsockopt .rcvtimeo (.int ms)) (by simp [Socket.setsockopt, hopen]) hopen
    refine ⟨t', _, _, ?_, hw, hv, rfl, fun hc => (hfollows hc).setRecvTimeout hms⟩
    simp only [ComponentThread.setRecvTimeout, hms, Option.bind_eq_bind, Option.bind_some]
    exact ht'
  | setSendTimeout sto =>
    obtain ⟨ms, hms⟩ := Option.isSome_iff_exists.mp haccepted
    obtain ⟨t', ht', hw, hv⟩ := h.change { p with sendTimeout := ms }
      { s' with options := Function.update s'.options .sndtimeo (some (.int ms)) } hp rfl rfl hview
      (f := fun s => s.setsockopt .sndtimeo (.int ms)) (by simp [Socket.setsockopt, hopen]) hopen
    refine ⟨t', _, _, ?_, hw, hv, rfl, fun hc => (hfollows hc).setSendTimeout hms⟩
    simp only [ComponentThread.setSendTimeout, hms, Option.bind_eq_bind, Option.bind_some]
    exact ht'

/-- A call of a port of the component, which the port has. -/
def Accepts (t : ComponentThread) (c : Call) : Prop := ∃ p, t.ports.get? c.1 = some p ∧ c.2.Accepted p.kind

/-- What the ports and their sockets have become. -/
def Tracks (t₀ : ComponentThread) (cs : List Call) (t : ComponentThread) : Prop :=
  ∀ name p₀, t₀.ports.get? name = some p₀ → ∃ p s, t.view name = some (p, s) ∧ p.toPortSpec = p₀.toPortSpec ∧
    (p₀.kind.connects → Follows p₀ (operations name cs) p s)

theorem Tracks.call (hwired : Wired t) (htracks : Tracks t₀ cs t) (haccepts : t₀.Accepts c) :
    ∃ t', t.call c = some t' ∧ Wired t' ∧ Tracks t₀ (cs ++ [c]) t' := by
  obtain ⟨p₀, hp₀, haccepted⟩ := haccepts
  obtain ⟨p, s, hview, hspec, hfollows⟩ := htracks c.1 p₀ hp₀
  have hkind : p.kind = p₀.kind := congrArg PortSpec.kind hspec
  rw [← hkind] at haccepted hfollows
  obtain ⟨t', p', s', ht', hwired', hview', hspec', hfollows'⟩ := hwired.call hview haccepted hfollows
  refine ⟨t', ht', hwired', fun name q₀ hq₀ => ?_⟩
  rw [hview']
  by_cases hname : name = c.1
  · subst hname
    obtain rfl := Option.some.inj (hp₀.symm.trans hq₀)
    refine ⟨p', s', Function.update_self .., hspec'.trans hspec, fun hconn => ?_⟩
    rw [operations_concat_self]
    exact hfollows' (hkind ▸ hconn)
  · obtain ⟨q, r, hq, hqspec, hqfollows⟩ := htracks name q₀ hq₀
    refine ⟨q, r, (Function.update_of_ne hname ..).trans hq, hqspec, fun hconn => ?_⟩
    rw [operations_concat_of_ne cs (Ne.symm hname)]
    exact hqfollows hconn

/-- Every history of such calls goes through. -/
theorem Tracks.calls (hwired : Wired t₀) (htracks : Tracks t₀ [] t₀) (haccepts : ∀ c ∈ cs, t₀.Accepts c) :
    ∃ t, t₀.calls cs = some t ∧ Wired t ∧ Tracks t₀ cs t := by
  induction cs using List.reverseRecOn with
  | nil => exact ⟨t₀, rfl, hwired, htracks⟩
  | append_singleton cs c ih =>
    obtain ⟨t, ht, hw, htr⟩ := ih fun d hd => haccepts d (by simp [hd])
    obtain ⟨t', ht', hw', htr'⟩ := htr.call hw (haccepts c (by simp))
    refine ⟨t', ?_, hw', htr'⟩
    rw [ComponentThread.calls] at ht
    rw [ComponentThread.calls, List.foldlM_append, ht]
    simpa using ht'

/-! ### Transparency -/

/-- The poller and the maps have the socket `i` for a port, and no other. -/
structure HasSocket (t : ComponentThread) (p : Port) (i : ℕ) : Prop where
  poller : i ∈ t.poller ↔ p.kind.inSocket
  port : ∀ j, t.sock2PortMap.get? j = some p.name ↔ j = i
  name : t.sock2NameMap.get? i = if p.kind.inSocket then some p.name else none
  prio : t.sock2PrioMap.get? i = if p.kind.inSocket then some p.index else none

/-- The sockets that the poller and the maps have are open. -/
def AllOpen (t : ComponentThread) : Prop :=
  ∀ i, i ∈ t.poller ∨ i ∈ t.sock2PortMap ∨ i ∈ t.sock2NameMap ∨ i ∈ t.sock2PrioMap →
    ∃ s, t.sockets[i]? = some s ∧ s.closed = false

/-- The resets of a port cannot be seen. -/
def Transparent (t₀ : ComponentThread) (cs : List Call) (t : ComponentThread) (name : Text) : Prop :=
  (∃ p s p₀ s₀, t.view name = some (p, s) ∧ t₀.view name = some (p₀, s₀) ∧ Restored name cs s₀ s ∧
    ∃ i, p.socket = some i ∧ HasSocket t p i) ∧ AllOpen t

theorem Wired.allOpen (h : Wired t) : AllOpen t := by
  have hopen : ∀ {i spec}, (i, spec) ∈ wiring t.ports → ∃ s, t.sockets[i]? = some s ∧ s.closed = false := by
    rintro i spec ⟨name, p, hp, hi, -⟩
    obtain ⟨i', s, hi', -, hs, hopen⟩ := h.look hp
    obtain rfl := Option.some.inj (hi'.symm.trans hi)
    exact ⟨s, hs, hopen⟩
  rintro i (hi | hi | hi | hi)
  · rw [h.registered.poller] at hi
    obtain rfl | ⟨spec, hspec, -⟩ := hi
    exacts [h.control, hopen hspec]
  · obtain ⟨name, hname⟩ := Dict.mem_iff_exists_get?.mp hi
    obtain ⟨spec, hspec, -⟩ := (h.registered.ports i name).mp hname
    exact hopen hspec
  · obtain ⟨name, hname⟩ := Dict.mem_iff_exists_get?.mp hi
    obtain ⟨rfl, -⟩ | ⟨spec, hspec, -⟩ := (h.registered.names i name).mp hname
    exacts [h.control, hopen hspec]
  · obtain ⟨index, hindex⟩ := Dict.mem_iff_exists_get?.mp hi
    obtain ⟨spec, hspec, -⟩ := (h.registered.prios i index).mp hindex
    exact hopen hspec

theorem Wired.hasSocket (h : Wired t) (hp : t.ports.get? name = some p) {i : ℕ} (hi : p.socket = some i) :
    HasSocket t p i := by
  obtain ⟨i', s, hi', hpos, -⟩ := h.look hp
  obtain rfl := Option.some.inj (hi'.symm.trans hi)
  have hmem : (i', p.toPortSpec) ∈ wiring t.ports := ⟨name, p, hp, hi, rfl⟩
  have hone : ∀ Q : PortSpec → Prop, (∃ spec, (i', spec) ∈ wiring t.ports ∧ Q spec) ↔ Q p.toPortSpec := by
    refine fun Q => ⟨?_, fun hq => ⟨_, hmem, hq⟩⟩
    rintro ⟨spec, hspec, hq⟩
    rwa [h.one hp hi spec hspec] at hq
  refine ⟨?_, fun j => ?_, ?_, ?_⟩
  · rw [h.registered.poller, hone]
    simp [hpos]
  · rw [h.registered.ports]
    constructor
    · rintro ⟨spec, ⟨m, q, hq, hj, rfl⟩, hname⟩
      have hm : m = name := (h.named hq).symm.trans (hname.trans (h.named hp))
      subst hm
      obtain rfl := Option.some.inj (hq.symm.trans hp)
      exact Option.some.inj (hj.symm.trans hi)
    · rintro rfl
      exact ⟨_, hmem, rfl⟩
  · ext n
    rw [h.registered.names, hone]
    by_cases hin : p.kind.inSocket <;> simp [hpos, hin]
  · ext index
    rw [h.registered.prios, hone]
    by_cases hin : p.kind.inSocket <;> simp [hin]

end ComponentThread

/-- The text of an endpoint has the host and the port: there is no colon in the port, which is behind the last one. -/
theorem srvPort_injective : Function.Injective srvPort := by
  rintro ⟨host, port⟩ ⟨host', port'⟩ h
  have hrev := congrArg List.reverse h
  simp only [srvPort, List.reverse_append, List.reverse_cons, List.append_assoc, List.singleton_append] at hrev
  obtain ⟨hport, hhost⟩ := (append_separator_inj (by simpa using colon_notMem_strInt port)
    (by simpa using colon_notMem_strInt port')).mp hrev
  have hint : port = port' := Option.some.inj (by
    rw [← readInt_strInt, ← readInt_strInt, List.reverse_inj.mp hport])
  rw [List.reverse_inj.mp (List.append_cancel_right hhost), hint]

theorem mem_operations {name : Text} {op : Operation} {cs : List Call} :
    op ∈ operations name cs ↔ (name, op) ∈ cs := by
  simp [operations]

namespace Follows

variable {p₀ p : Port} {s : Socket} {name : Text} {cs : List Call}

/-- Where the options are the same, everything is. -/
theorem restored (h : Follows p₀ (operations name cs) p s)
    (hsame : s.options = p.options p.setupOptions) : Restored name cs (p₀.built p₀.setupOptions) s := by
  have hconns : s.connections = p.servers.map srvPort := by
    rw [h.socket]
    rfl
  refine ⟨?_, ?_, hsame.trans h.options, ?_, fun e => ?_⟩
  · rw [h.socket]
    rfl
  · rw [h.socket]
    exact congrArg (fun spec => spec.kind.zmqType) h.spec
  · rw [hconns]
    exact h.nodup.map srvPort_injective
  · rw [hconns, List.mem_map]
    simp only [h.servers, mem_operations]

/-- Those of a request port are not the same after a reset. -/
theorem options_eq_iff (h : Follows p₀ (operations name cs) p s) :
    s.options = p.options p.setupOptions ↔ (p.kind = .req → (name, .reset) ∉ cs) := by
  rw [h.socket, ← mem_operations]
  by_cases hreset : .reset ∈ operations name cs
  · rw [if_pos hreset]
    by_cases hreq : p.kind = .req
    · have hlost := Port.options_reset_ne hreq
      exact iff_of_false (fun heq => hlost (congrFun heq .reqRelaxed)) fun hno => hno hreq hreset
    · refine iff_of_true ?_ fun hc => absurd hc hreq
      rw [Port.built, Port.resetOptions, if_neg hreq]
  · rw [if_neg hreset]
    exact iff_of_true rfl fun _ => hreset

end Follows

namespace ComponentThread

/-- **A reset is transparent exactly of the ports that are not request ports**: every history of calls of the ports
goes through, and after it every connecting port has a socket as it was set up, with its timeouts as last set and
connected to the servers that it was told of, which the poller and the maps have in the place of the old ones, unless it
is a request port that was reset. -/
theorem transparent_iff (settings : Settings) (portSpecs : List PortSpec) :
    ∃ t₀, setup settings portSpecs = some t₀ ∧ ∀ cs, (∀ c ∈ cs, t₀.Accepts c) →
      ∃ t, t₀.calls cs = some t ∧ ∀ name p, t₀.ports.get? name = some p → p.kind.connects →
        (Transparent t₀ cs t name ↔ (p.kind = .req → (name, .reset) ∉ cs)) := by
  obtain ⟨t₀, hsetup, hwired₀, hnew⟩ := setup_eq settings portSpecs
  refine ⟨t₀, hsetup, fun cs haccepts => ?_⟩
  have hstart : Tracks t₀ [] t₀ := by
    intro name p₀ hp₀
    obtain ⟨i, s, hi, -, hs, -⟩ := hwired₀.look hp₀
    refine ⟨p₀, s, view_eq_some.mpr ⟨hp₀, i, hi, hs⟩, rfl, fun hconn => ?_⟩
    obtain ⟨hservers, hbuilt⟩ := hnew name p₀ hp₀
    obtain ⟨-, i', hi', hs'⟩ := view_eq_some.mp (hbuilt hconn)
    obtain rfl := Option.some.inj (hi'.symm.trans hi)
    obtain rfl := Option.some.inj (hs'.symm.trans hs)
    exact .start hservers
  obtain ⟨t, ht, hwired, htracks⟩ := hstart.calls hwired₀ haccepts
  refine ⟨t, ht, fun name p₀ hp₀ hconn => ?_⟩
  obtain ⟨p, s, hview, hspec, hfollows⟩ := htracks name p₀ hp₀
  have hfol := hfollows hconn
  have hbuilt := (hnew name p₀ hp₀).2 hconn
  rw [show p₀.kind = p.kind from (congrArg PortSpec.kind hspec).symm, ← hfol.options_eq_iff]
  constructor
  · rintro ⟨⟨q, r, q₀, r₀, hq, hq₀, hrestored, -⟩, -⟩
    obtain ⟨rfl, rfl⟩ := Prod.mk.inj (Option.some.inj (hview.symm.trans hq))
    obtain ⟨rfl, rfl⟩ := Prod.mk.inj (Option.some.inj (hbuilt.symm.trans hq₀))
    exact hrestored.options.trans hfol.options.symm
  · intro hsame
    obtain ⟨hp, i, hi, -⟩ := view_eq_some.mp hview
    exact ⟨⟨p, s, p₀, _, hview, hbuilt, hfol.restored hsame, i, hi, hwired.hasSocket hp hi⟩, hwired.allOpen⟩

/-- The settings as they are by default, without keys. -/
def defaults : Settings := ⟨-1, -1, 100, 100, none, none⟩

/-- A component with one request port. -/
def requester : List PortSpec := [⟨['r'], .req, some 0, ['1']⟩]

/-- After a reset the socket of a request port has lost `REQ_RELAXED` and `REQ_CORRELATE`. -/
theorem not_transparent : ∃ t₀ t, setup defaults requester = some t₀ ∧ t₀.Accepts (['r'], .reset) ∧
    t₀.calls [(['r'], .reset)] = some t ∧ ¬Transparent t₀ [(['r'], .reset)] t ['r'] := by
  refine ⟨_, _, rfl, ⟨_, rfl, trivial⟩, rfl, ?_⟩
  rintro ⟨⟨p, s, p₀, s₀, hview, hview₀, hrestored, -⟩, -⟩
  obtain ⟨rfl, rfl⟩ := Prod.mk.inj (Option.some.inj hview)
  obtain ⟨rfl, rfl⟩ := Prod.mk.inj (Option.some.inj hview₀)
  exact absurd (congrFun hrestored.options .reqRelaxed) (by decide)

end ComponentThread

end Riaps.Component.Sockets
