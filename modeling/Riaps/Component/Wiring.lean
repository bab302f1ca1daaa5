import Riaps.Component.Ports

/-!
# The sockets that a thread has

What becomes of the sockets when the thread sets them up, and when a port is reset. `built` is
the socket of a connecting port with its options set and its servers connected: `setupSocket`
makes it with one list of options, and `reset` with another, which is the same for every kind
of port but one.

`Wired` is the invariant of the thread: every port has a socket of its own, which is open, and
the poller and the maps have these and the control socket, and no others. It holds when the
poller is set up (`setup_eq`), and is kept when the socket of a port is changed
(`Wired.change`) and when the port gets another (`Wired.resetConnSocket`). Both say what the
ports and their sockets are then (`view`).
-/

namespace Riaps.Component.Sockets

open Riaps.Foundation

/-! ### What is made of a socket -/

/-- The options after a list of settings. -/
def assign (sockopts : List (SockOpt × OptValue)) (options : SockOpt → Option OptValue) : SockOpt → Option OptValue :=
  sockopts.foldl (fun options o => Function.update options o.1 (some o.2)) options

namespace Socket

theorem setsockopts_of_open {s : Socket} (h : s.closed = false) (sockopts : List (SockOpt × OptValue)) :
    s.setsockopts sockopts = some { s with options := assign sockopts s.options } := by
  induction sockopts generalizing s with
  | nil => rfl
  | cons o sockopts ih =>
    have hset : s.setsockopt o.1 o.2 = some { s with options := Function.update s.options o.1 (some o.2) } := by
      simp [setsockopt, h]
    rw [setsockopts, List.foldlM_cons, hset]
    exact ih h

theorem connect_all {s : Socket} (h : s.closed = false) (servers : List Server) :
    servers.foldlM (fun s server => s.connect (srvPort server)) s =
      some { s with connections := s.connections ++ servers.map srvPort } := by
  induction servers generalizing s with
  | nil => simp
  | cons server servers ih =>
    have hconn : s.connect (srvPort server) = some { s with connections := s.connections ++ [srvPort server] } := by
      simp [connect, h]
    rw [List.foldlM_cons, hconn]
    refine (ih (s := { s with connections := s.connections ++ [srvPort server] }) h).trans ?_
    simp

theorem disconnect_all {s : Socket} (h : s.closed = false) {servers : List Server}
    (hs : s.connections = servers.map srvPort) :
    servers.foldlM (fun s server => s.disconnect (srvPort server)) s = some { s with connections := [] } := by
  induction servers generalizing s with
  | nil =>
    cases s
    obtain rfl := hs
    rfl
  | cons server servers ih =>
    have hdis : s.disconnect (srvPort server) = some { s with connections := servers.map srvPort } := by
      simp [disconnect, h, hs]
    rw [List.foldlM_cons, hdis]
    exact ih h rfl

end Socket

namespace Kind

/-- The type of the socket of a connecting port. -/
def zmqType : Kind → ZmqType
  | .sub => .sub
  | .qry => .dealer
  | _ => .req

end Kind

namespace Port

/-- The options that `setupSocket` gives to a connecting port. -/
def setupOptions (p : Port) : List (SockOpt × OptValue) :=
  match p.kind with
  | .sub => [(.subscribe, .str [])]
  | .req => [(.reqRelaxed, .int 1), (.reqCorrelate, .int 1)]
  | .qry => [(.identity, .str p.identity)]
  | _ => []

/-- The options that `reset` gives to it: those of a request port are not among them. -/
def resetOptions (p : Port) : List (SockOpt × OptValue) := if p.kind = .req then [] else p.setupOptions

/-- The options of a socket of the port. -/
def options (p : Port) (sockopts : List (SockOpt × OptValue)) : SockOpt → Option OptValue :=
  assign (p.curve false) (assign sockopts (assign p.sockoptions fun _ => none))

/-- The socket of a connecting port, with its options set and its servers connected. -/
def built (p : Port) (sockopts : List (SockOpt × OptValue)) : Socket where
  zmqType := p.kind.zmqType
  options := p.options sockopts
  connections := p.servers.map srvPort
  closed := false

variable {p : Port}

theorem setSockoptions_of_open {s : Socket} (h : s.closed = false) (sockopts : List (SockOpt × OptValue)) :
    p.setSockoptions sockopts s = some { s with options := assign sockopts (assign p.sockoptions s.options) } := by
  rw [setSockoptions, Socket.setsockopts_of_open h, Option.bind_eq_bind, Option.bind_some]
  exact Socket.setsockopts_of_open (s := { s with options := assign p.sockoptions s.options }) h sockopts

theorem setupConnSocket_eq (zmqType : ZmqType) (sockopts : List (SockOpt × OptValue)) :
    p.setupConnSocket zmqType sockopts = some { Socket.new zmqType with options := p.options sockopts } := by
  rw [setupConnSocket, setSockoptions_of_open rfl, Option.bind_eq_bind, Option.bind_some]
  exact Socket.setsockopts_of_open rfl _

theorem setupBindSocket_eq (zmqType : ZmqType) (sockopts : List (SockOpt × OptValue)) :
    ∃ options, p.setupBindSocket zmqType sockopts = some { Socket.new zmqType with options := options } := by
  rw [setupBindSocket, setSockoptions_of_open rfl, Option.bind_eq_bind, Option.bind_some]
  exact ⟨_, Socket.setsockopts_of_open rfl _⟩

/-- Every kind of port gets an open socket. -/
theorem setupSocket_eq_some (p : Port) : ∃ s, p.setupSocket = some s ∧ s.closed = false := by
  have hbind : ∀ zmqType sockopts, ∃ s, p.setupBindSocket zmqType sockopts = some s ∧ s.closed = false := by
    intro zmqType sockopts
    obtain ⟨options, heq⟩ := p.setupBindSocket_eq zmqType sockopts
    exact ⟨_, heq, rfl⟩
  have hconn : ∀ zmqType sockopts, ∃ s, p.setupConnSocket zmqType sockopts = some s ∧ s.closed = false :=
    fun zmqType sockopts => ⟨_, p.setupConnSocket_eq zmqType sockopts, rfl⟩
  rw [setupSocket]
  cases p.kind with
  | pub | srv | rep | ans => exact hbind _ _
  | sub | clt | req | qry => exact hconn _ _
  | tim | ins => exact ⟨_, rfl, rfl⟩

theorem setupSocket_of_connects (h : p.kind.connects) (hnew : p.servers = []) :
    p.setupSocket = some (p.built p.setupOptions) := by
  cases hk : p.kind <;> simp [hk, Kind.connects] at h <;>
    simp [setupSocket, setupConnSocket_eq, built, setupOptions, hk, hnew, Socket.new, Kind.zmqType]

end Port

namespace ComponentThread

variable {t t' : ComponentThread} {name : Text} {p p' : Port} {s s' : Socket} {i j : ℕ} {done : Set Text}

/-! ### Ports and their sockets -/

/-- A port with its socket. -/
def view (t : ComponentThread) (name : Text) : Option (Port × Socket) := do
  let p ← t.ports.get? name
  let i ← p.socket
  let s ← t.sockets[i]?
  pure (p, s)

theorem view_eq_some : t.view name = some (p, s) ↔
    t.ports.get? name = some p ∧ ∃ i, p.socket = some i ∧ t.sockets[i]? = some s := by
  simp only [view, Option.bind_eq_bind, Option.bind_eq_some_iff, Option.pure_def, Option.some.injEq, Prod.mk.injEq]
  constructor
  · rintro ⟨q, hq, i, hi, s', hs, rfl, rfl⟩
    exact ⟨hq, i, hi, hs⟩
  · rintro ⟨hp, i, hi, hs⟩
    exact ⟨p, hp, i, hi, s, hs, rfl, rfl⟩

theorem onSocket_eq {f : Socket → Option Socket} (hs : t.sockets[i]? = some s) (hf : f s = some s') :
    t.onSocket i f = some { t with sockets := t.sockets.set i s' } := by
  simp [onSocket, hs, hf]

/-- The control socket is there, and the ports of `done` have open sockets, each its own. -/
structure Plugged (done : Set Text) (t : ComponentThread) : Prop where
  control : ∃ s, t.sockets[0]? = some s ∧ s.closed = false
  named : ∀ {name p}, t.ports.get? name = some p → p.name = name
  live : ∀ {name p}, t.ports.get? name = some p → name ∈ done →
    ∃ i s, p.socket = some i ∧ i ≠ 0 ∧ t.sockets[i]? = some s ∧ s.closed = false
  fresh : ∀ {name p}, t.ports.get? name = some p → name ∉ done → p.socket = none
  apart : ∀ {name name' p p' i}, t.ports.get? name = some p → t.ports.get? name' = some p' →
    p.socket = some i → p'.socket = some i → name = name'

/-- The control socket, and the sockets of the other ports. -/
def others (t : ComponentThread) (name : Text) : Set ℕ :=
  {j | j = 0 ∨ ∃ name' p', name' ≠ name ∧ t.ports.get? name' = some p' ∧ p'.socket = some j}

theorem Plugged.others_open (h : Plugged done t) (hj : j ∈ t.others name) :
    ∃ s, t.sockets[j]? = some s ∧ s.closed = false := by
  obtain rfl | ⟨name', p', -, hp', hsock⟩ := hj
  · exact h.control
  · by_cases hdone : name' ∈ done
    · obtain ⟨i, s, hi, -, hs, hopen⟩ := h.live hp' hdone
      obtain rfl := Option.some.inj (hi.symm.trans hsock)
      exact ⟨s, hs, hopen⟩
    · simp [h.fresh hp' hdone] at hsock

theorem Plugged.lt_of_mem_others (h : Plugged done t) (hj : j ∈ t.others name) : j < t.sockets.length := by
  obtain ⟨s, hs, -⟩ := h.others_open hj
  exact (List.getElem?_eq_some_iff.mp hs).1

theorem Plugged.not_mem_others (h : Plugged done t) (hp : t.ports.get? name = some p) (hi : p.socket = some i) :
    i ∉ t.others name := by
  rintro (rfl | ⟨name', p', hne, hp', hi'⟩)
  · by_cases hdone : name ∈ done
    · obtain ⟨i, s, hi', hpos, -⟩ := h.live hp hdone
      exact hpos (Option.some.inj (hi'.symm.trans hi))
    · simp [h.fresh hp hdone] at hi
  · exact hne (h.apart hp' hp hi' hi)

/-- A port gets another socket, or its socket is changed. -/
theorem Plugged.plug (h : Plugged done t) (hports : t'.ports = t.ports.set name p') (hname : p'.name = name)
    (hi : p'.socket = some i) (hs : t'.sockets[i]? = some s') (hopen : s'.closed = false)
    (hothers : ∀ j ∈ t.others name, j ≠ i ∧ t'.sockets[j]? = t.sockets[j]?) :
    Plugged (insert name done) t' := by
  have hget : ∀ m, t'.ports.get? m = if m = name then some p' else t.ports.get? m := by
    intro m
    rw [hports, Dict.get?_set]
  -- the others keep theirs
  have hkeep : ∀ {m q j}, m ≠ name → t.ports.get? m = some q → q.socket = some j →
      j ≠ i ∧ t'.sockets[j]? = t.sockets[j]? := fun hne hq hj => hothers _ (.inr ⟨_, _, hne, hq, hj⟩)
  refine ⟨?_, fun {m q} hq => ?_, fun {m q} hq hm => ?_, fun {m q} hq hm => ?_, fun {m m' q q' j} hq hq' hj hj' => ?_⟩
  · rw [(hothers 0 (.inl rfl)).2]
    exact h.control
  · rw [hget] at hq
    split_ifs at hq with hm
    · obtain rfl := Option.some.inj hq
      exact hname.trans hm.symm
    · exact h.named hq
  · rw [hget] at hq
    split_ifs at hq with hmn
    · obtain rfl := Option.some.inj hq
      exact ⟨i, s', hi, fun h0 => (hothers 0 (.inl rfl)).1 h0.symm, hs, hopen⟩
    · obtain ⟨j, s, hj, hpos, hjs, hjopen⟩ := h.live hq (hm.resolve_left hmn)
      exact ⟨j, s, hj, hpos, (hkeep hmn hq hj).2.trans hjs, hjopen⟩
  · rw [Set.mem_insert_iff, not_or] at hm
    rw [hget, if_neg hm.1] at hq
    exact h.fresh hq hm.2
  · rw [hget] at hq hq'
    split_ifs at hq hq' with hm hm' hm'
    · exact hm.trans hm'.symm
    · obtain rfl := Option.some.inj hq
      exact absurd (Option.some.inj (hj.symm.trans hi)) (hkeep hm' hq' hj').1
    · obtain rfl := Option.some.inj hq'
      exact absurd (Option.some.inj (hj'.symm.trans hi)) (hkeep hm hq hj).1
    · exact h.apart hq hq' hj hj'

theorem view_plug (hports : t'.ports = t.ports.set name p') (hi : p'.socket = some i) (hs : t'.sockets[i]? = some s')
    (hothers : ∀ j ∈ t.others name, j ≠ i ∧ t'.sockets[j]? = t.sockets[j]?) :
    t'.view = Function.update t.view name (some (p', s')) := by
  funext m
  by_cases hm : m = name
  · subst hm
    rw [Function.update_self, view_eq_some, hports, Dict.get?_set_self]
    exact ⟨rfl, i, hi, hs⟩
  · rw [Function.update_of_ne hm, view, view, hports, Dict.get?_set_of_ne _ _ hm]
    cases hq : t.ports.get? m with
    | none => rfl
    | some q =>
      cases hj : q.socket with
      | none => simp [hj]
      | some j => simp [hj, (hothers j (.inr ⟨m, q, hm, hq, hj⟩)).2]

/-- The sockets of the ports, with what these were made from. -/
def wiring (ports : Dict Text Port) : Set (ℕ × PortSpec) :=
  {w | ∃ name p, ports.get? name = some p ∧ p.socket = some w.1 ∧ p.toPortSpec = w.2}

theorem wiring_set (h : Plugged done t) (hp : t.ports.get? name = some p) (hi : p.socket = some i)
    (hj : p'.socket = some j) :
    wiring (t.ports.set name p') = insert (j, p'.toPortSpec) (wiring t.ports \ {(i, p.toPortSpec)}) := by
  ext w
  simp only [wiring, Set.mem_ofPred_eq, Set.mem_insert_iff, Set.mem_sdiff, Set.mem_singleton_iff]
  constructor
  · rintro ⟨m, q, hq, hw, hspec⟩
    rw [Dict.get?_set] at hq
    split_ifs at hq with hm
    · obtain rfl := Option.some.inj hq
      exact .inl (Prod.ext (Option.some.inj (hw.symm.trans hj)) hspec.symm)
    · refine .inr ⟨⟨m, q, hq, hw, hspec⟩, ?_⟩
      rintro rfl
      exact hm (h.apart hq hp hw hi)
  · rintro (rfl | ⟨⟨m, q, hq, hw, hspec⟩, hne⟩)
    · exact ⟨name, p', Dict.get?_set_self _ _ _, hj, rfl⟩
    · have hm : m ≠ name := by
        rintro rfl
        obtain rfl := Option.some.inj (hq.symm.trans hp)
        exact hne (Prod.ext (Option.some.inj (hw.symm.trans hi)) hspec.symm)
      exact ⟨m, q, (Dict.get?_set_of_ne _ _ hm).trans hq, hw, hspec⟩

/-- Every port has its own socket, open, and the poller and the maps have these. -/
structure Wired (t : ComponentThread) : Prop extends Plugged Set.univ t where
  registered : Registered (wiring t.ports) t

theorem Wired.look (h : Wired t) (hp : t.ports.get? name = some p) :
    ∃ i s, p.socket = some i ∧ i ≠ 0 ∧ t.sockets[i]? = some s ∧ s.closed = false := h.live hp trivial

/-- No other port has the socket. -/
theorem Wired.one (h : Wired t) (hp : t.ports.get? name = some p) (hi : p.socket = some i) :
    ∀ spec, (i, spec) ∈ wiring t.ports → spec = p.toPortSpec := by
  rintro spec ⟨m, q, hq, hj, hspec⟩
  obtain rfl := h.apart hq hp hj hi
  obtain rfl := Option.some.inj (hq.symm.trans hp)
  exact hspec.symm

/-- The socket of a port is changed. -/
theorem Wired.change (h : Wired t) (p' : Port) (s' : Socket) (hp : t.ports.get? name = some p)
    (hspec : p'.toPortSpec = p.toPortSpec)
    (hsock : p'.socket = p.socket) (hview : t.view name = some (p, s)) {f : Socket → Option Socket}
    (hf : f s = some s') (hopen : s'.closed = false) :
    ∃ t', (do
        let t := { t with ports := t.ports.set p.name p' }
        let socket ← p.socket
        t.onSocket socket f) = some t' ∧
      Wired t' ∧ t'.view = Function.update t.view name (some (p', s')) := by
  obtain ⟨-, i, hi, hs⟩ := view_eq_some.mp hview
  have hname := h.named hp
  have hlt : i < t.sockets.length := (List.getElem?_eq_some_iff.mp hs).1
  have hself : (t.sockets.set i s')[i]? = some s' := by simp [hlt]
  have hothers : ∀ j ∈ t.others name, j ≠ i ∧ (t.sockets.set i s')[j]? = t.sockets[j]? := by
    intro j hj
    have hji : j ≠ i := fun e => h.not_mem_others hp hi (e ▸ hj)
    exact ⟨hji, List.getElem?_set_ne (Ne.symm hji)⟩
  have hi' : p'.socket = some i := hsock.trans hi
  have hname' : p'.name = name := (congrArg PortSpec.name hspec).trans hname
  refine ⟨{ t with ports := t.ports.set name p', sockets := t.sockets.set i s' }, ?_, ⟨?_, ?_⟩, ?_⟩
  · rw [hi, hname]
    exact onSocket_eq (t := { t with ports := t.ports.set name p' }) hs hf
  · have hplug : Plugged (insert name Set.univ)
        { t with ports := t.ports.set name p', sockets := t.sockets.set i s' } :=
      h.plug rfl hname' hi' hself hopen hothers
    rwa [Set.insert_eq_of_mem (Set.mem_univ name)] at hplug
  · have hmem : (i, p.toPortSpec) ∈ wiring t.ports := ⟨name, p, hp, hi, rfl⟩
    have hwiring : wiring (t.ports.set name p') = wiring t.ports := by
      rw [wiring_set h.toPlugged hp hi hi', hspec, Set.insert_sdiff_self_of_mem hmem]
    rw [hwiring]
    exact h.registered.of_maps _ _
  · exact view_plug rfl hi' hself hothers

/-- A reset, step by step: the old socket is disconnected and closed, the new one is built. -/
theorem resetConnSocket_eq (hreg : Registered (wiring t.ports) t) (hp : t.ports.get? name = some p)
    (hi : p.socket = some i) (hs : t.sockets[i]? = some s) (hopen : s.closed = false)
    (hconns : s.connections = p.servers.map srvPort) (sockopts : List (SockOpt × OptValue)) :
    ∃ sockets, t.resetConnSocket p p.kind.zmqType sockopts = some { (t.forget p i).register p t.sockets.length with
        sockets := sockets
        ports := t.ports.set p.name { p with socket := some t.sockets.length } } ∧
      sockets[t.sockets.length]? = some (p.built sockopts) ∧
      ∀ j < t.sockets.length, j ≠ i → sockets[j]? = t.sockets[j]? := by
  have hlt : i < t.sockets.length := (List.getElem?_eq_some_iff.mp hs).1
  have hne : t.sockets.length ≠ i := by omega
  have hmem : (i, p.toPortSpec) ∈ wiring t.ports := ⟨name, p, hp, hi, rfl⟩
  -- the old socket
  let s₁ : Socket := { s with options := Function.update s.options .linger (some (.int 0)) }
  let s₂ : Socket := { s₁ with connections := [] }
  have h₁ : s.setsockopt .linger (.int 0) = some s₁ := by simp [Socket.setsockopt, hopen, s₁]
  have h₂ : p.servers.foldlM (fun s server => s.disconnect (srvPort server)) s₁ = some s₂ :=
    Socket.disconnect_all (s := s₁) hopen hconns
  -- the new socket
  let n₁ : Socket := { Socket.new p.kind.zmqType with options := assign sockopts (assign p.sockoptions fun _ => none) }
  let n₂ : Socket := { Socket.new p.kind.zmqType with options := p.options sockopts }
  have h₃ : p.setSockoptions sockopts (.new p.kind.zmqType) = some n₁ := Port.setSockoptions_of_open rfl sockopts
  have h₄ : p.setupCurve false n₁ = some n₂ := Socket.setsockopts_of_open rfl _
  have h₅ : p.servers.foldlM (fun s server => s.connect (srvPort server)) n₂ = some (p.built sockopts) :=
    Socket.connect_all rfl p.servers
  -- where they are among the sockets
  have hold : (t.sockets ++ [Socket.new p.kind.zmqType])[i]? = some s := (List.getElem?_append_left hlt).trans hs
  have hset : ∀ x, ((t.sockets ++ [Socket.new p.kind.zmqType]).set i x)[i]? = some x := by
    intro x
    exact List.getElem?_set_self (by simp; omega)
  have hnew : ((t.sockets ++ [Socket.new p.kind.zmqType]).set i s₂.close)[t.sockets.length]? =
      some (.new p.kind.zmqType) := by
    rw [List.getElem?_set_ne hne.symm, List.getElem?_concat_length]
  have hset' : ∀ x, (((t.sockets ++ [Socket.new p.kind.zmqType]).set i s₂.close).set t.sockets.length
      x)[t.sockets.length]? = some x := by
    intro x
    exact List.getElem?_set_self (by simp)
  refine ⟨_, ?_, hset' (p.built sockopts), fun j hj hji => ?_⟩
  case refine_2 =>
    rw [List.getElem?_set_ne (by omega), List.getElem?_set_ne hji.symm, List.getElem?_append_left hj]
  simp only [resetConnSocket, replaceSocket, hi, Option.bind_eq_bind, Option.bind_some]
  rw [onSocket_eq hold h₁, Option.bind_some, onSocket_eq (hset s₁) h₂, Option.bind_some]
  simp only [List.set_set]
  rw [(hreg.of_maps _ t.ports).unregister hmem, Option.bind_some, forget_sockets]
  dsimp only
  rw [onSocket_eq (f := fun s => some s.close) (hset s₂) rfl, Option.bind_some]
  simp only [Option.pure_def, Option.bind_some, List.set_set]
  rw [register_sockets]
  dsimp only
  rw [onSocket_eq hnew h₃, Option.bind_some, onSocket_eq (hset' n₁) h₄, Option.bind_some]
  simp only [List.set_set]
  rw [onSocket_eq (hset' n₂) h₅]
  simp only [List.set_set, ports_register, ports_forget]

/-- After a reset the port has a new socket, with the options of the reset and all its servers connected. -/
theorem Wired.resetConnSocket (h : Wired t) (hview : t.view name = some (p, s))
    (hconns : s.connections = p.servers.map srvPort) (sockopts : List (SockOpt × OptValue)) :
    ∃ t', t.resetConnSocket p p.kind.zmqType sockopts = some t' ∧ Wired t' ∧
      t'.view = Function.update t.view name (some ({ p with socket := some t.sockets.length }, p.built sockopts)) := by
  obtain ⟨hp, i, hi, hs⟩ := view_eq_some.mp hview
  obtain ⟨i', s', hi', hpos, hs', hopen⟩ := h.look hp
  obtain rfl := Option.some.inj (hi'.symm.trans hi)
  obtain rfl := Option.some.inj (hs'.symm.trans hs)
  have hlt : i' < t.sockets.length := (List.getElem?_eq_some_iff.mp hs).1
  have hname := h.named hp
  obtain ⟨sockets, hreset, hself, hkeep⟩ := resetConnSocket_eq h.registered hp hi hs hopen hconns sockopts
  rw [hname] at hreset
  have hothers : ∀ j ∈ t.others name, j ≠ t.sockets.length ∧ sockets[j]? = t.sockets[j]? := by
    intro j hj
    have hjlt := h.lt_of_mem_others hj
    exact ⟨by omega, hkeep j hjlt fun e => h.not_mem_others hp hi (e ▸ hj)⟩
  refine ⟨_, hreset, ⟨?_, ?_⟩, view_plug rfl rfl hself hothers⟩
  · have hplug : Plugged (insert name Set.univ) { (t.forget p i').register p t.sockets.length with
        sockets := sockets
        ports := t.ports.set name { p with socket := some t.sockets.length } } :=
      h.plug rfl hname rfl hself rfl hothers
    rwa [Set.insert_eq_of_mem (Set.mem_univ name)] at hplug
  · rw [wiring_set h.toPlugged hp hi rfl]
    -- no port has the new socket yet
    have hnew : ∀ spec, (t.sockets.length, spec) ∉ wiring t.ports \ {(i', p.toPortSpec)} := by
      rintro spec ⟨⟨m, q, hq, hj, -⟩, -⟩
      obtain ⟨j, s', hj', -, hs', -⟩ := h.look hq
      have hlen : j = t.sockets.length := Option.some.inj (hj'.symm.trans hj)
      simp [hlen] at hs'
    have hforget := h.registered.forget hpos (h.one hp hi)
    exact (hforget.register (by omega) hnew).of_maps _ _

/-! ### Setting up -/

/-- As far as the sockets are set up: those of connecting ports have their options, and no servers yet. -/
structure Starting (done : Set Text) (t : ComponentThread) : Prop extends Plugged done t where
  servers : ∀ {name p}, t.ports.get? name = some p → p.servers = []
  built : ∀ {name p s}, t.view name = some (p, s) → p.kind.connects → s = p.built p.setupOptions

theorem Starting.setupSocket (h : Starting done t) (hname : name ∈ t.ports) (hdone : name ∉ done) :
    ∃ t', t.setupSocket name = some t' ∧ Starting (insert name done) t' ∧ t'.ports.keys = t.ports.keys := by
  obtain ⟨p, hp⟩ := Dict.mem_iff_exists_get?.mp hname
  obtain ⟨s, hs, hopen⟩ := p.setupSocket_eq_some
  let p' : Port := { p with socket := some t.sockets.length }
  let t' : ComponentThread := { t with sockets := t.sockets ++ [s], ports := t.ports.set name p' }
  have hname' : p'.name = name := h.named (p := p) hp
  have hservers : p'.servers = [] := h.servers (p := p) hp
  have hself : t'.sockets[t.sockets.length]? = some s := List.getElem?_concat_length
  have hothers : ∀ j ∈ t.others name, j ≠ t.sockets.length ∧ t'.sockets[j]? = t.sockets[j]? := by
    intro j hj
    have hlt := h.lt_of_mem_others hj
    exact ⟨by omega, List.getElem?_append_left hlt⟩
  refine ⟨t', by simp [ComponentThread.setupSocket, hp, hs, t', p'],
    ⟨h.plug rfl hname' rfl hself hopen hothers, fun {m q} hq => ?_, fun {m q r} hview hconn => ?_⟩, ?_⟩
  · rw [Dict.get?_set_eq_some] at hq
    obtain ⟨rfl, rfl⟩ | ⟨-, hq⟩ := hq
    · exact hservers
    · exact h.servers hq
  · have hviews : t'.view = Function.update t.view name (some (p', s)) := view_plug rfl rfl hself hothers
    rw [hviews] at hview
    by_cases hm : m = name
    · subst hm
      rw [Function.update_self] at hview
      obtain ⟨rfl, rfl⟩ := Prod.mk.inj (Option.some.inj hview)
      have hbuilt := Port.setupSocket_of_connects (p := p) hconn (h.servers hp)
      exact Option.some.inj (hs.symm.trans hbuilt)
    · rw [Function.update_of_ne hm] at hview
      exact h.built hview hconn
  · rw [Dict.keys_set, if_pos hname]

theorem Starting.setupSockets (h : Starting done t) {names : List Text} (hnames : ∀ name ∈ names, name ∈ t.ports)
    (hnodup : names.Nodup) (hdone : ∀ name ∈ names, name ∉ done) :
    ∃ t', names.foldlM (fun t name => t.setupSocket name) t = some t' ∧ Starting (done ∪ {name | name ∈ names}) t' ∧
      t'.ports.keys = t.ports.keys := by
  induction names generalizing t done with
  | nil => exact ⟨t, rfl, by simpa using h, rfl⟩
  | cons name names ih =>
    rw [List.nodup_cons] at hnodup
    obtain ⟨t₁, h₁, hstart, hkeys⟩ := h.setupSocket (hnames name (by simp)) (hdone name (by simp))
    have hnames₁ : ∀ name' ∈ names, name' ∈ t₁.ports := by
      intro name' hmem
      rw [Dict.mem_iff_mem_keys, hkeys]
      exact hnames name' (by simp [hmem])
    have hdone₁ : ∀ name' ∈ names, name' ∉ insert name done := by
      rintro name' hmem (rfl | hin)
      · exact hnodup.1 hmem
      · exact hdone name' (by simp [hmem]) hin
    obtain ⟨t', h', hstart', hkeys'⟩ := ih hstart hnames₁ hnodup.2 hdone₁
    refine ⟨t', by rw [List.foldlM_cons, h₁]; exact h', ?_, hkeys'.trans hkeys⟩
    have hset : insert name done ∪ {name' | name' ∈ names} = done ∪ {name' | name' ∈ name :: names} := by
      ext m
      simp only [Set.mem_union, Set.mem_insert_iff, Set.mem_ofPred_eq, List.mem_cons]
      tauto
    rwa [hset] at hstart'

/-- The sockets of some ports. -/
def wiringOf (items : List (Text × Port)) : Set (ℕ × PortSpec) :=
  {w | ∃ item ∈ items, item.2.socket = some w.1 ∧ item.2.toPortSpec = w.2}

theorem Registered.addPorts {wired : Set (ℕ × PortSpec)} (h : Registered wired t) {items : List (Text × Port)}
    (hitems : ∀ item ∈ items, ∃ i, item.2.socket = some i ∧ i ≠ 0 ∧ ∀ spec, (i, spec) ∉ wired)
    (hapart : items.Pairwise fun item item' => item.2.socket ≠ item'.2.socket) :
    Registered (wired ∪ wiringOf items) (items.foldl addPort t) ∧
      (items.foldl addPort t).sockets = t.sockets ∧ (items.foldl addPort t).ports = t.ports := by
  induction items generalizing t wired with
  | nil => exact ⟨by simpa [wiringOf] using h, rfl, rfl⟩
  | cons item items ih =>
    obtain ⟨i, hi, hpos, hnew⟩ := hitems item (by simp)
    rw [List.pairwise_cons] at hapart
    have hadd : t.addPort item = t.register item.2 i := by simp [addPort, hi]
    have hitems' : ∀ item' ∈ items, ∃ j, item'.2.socket = some j ∧ j ≠ 0 ∧
        ∀ spec, (j, spec) ∉ insert (i, item.2.toPortSpec) wired := by
      intro item' hmem
      obtain ⟨j, hj, hjpos, hjnew⟩ := hitems item' (by simp [hmem])
      refine ⟨j, hj, hjpos, fun spec hspec => ?_⟩
      rcases hspec with heq | hspec
      · exact hapart.1 item' hmem (by rw [hi, hj, (Prod.mk.inj heq).1])
      · exact hjnew spec hspec
    obtain ⟨hreg, hsockets, hports⟩ := ih (h.register (p := item.2) hpos hnew) hitems' hapart.2
    rw [List.foldl_cons, hadd]
    refine ⟨?_, hsockets.trans (sockets_register ..), hports.trans (ports_register ..)⟩
    have hset : insert (i, item.2.toPortSpec) wired ∪ wiringOf items = wired ∪ wiringOf (item :: items) := by
      ext ⟨j, spec⟩
      simp only [wiringOf, Set.mem_union, Set.mem_insert_iff, Set.mem_ofPred_eq, List.mem_cons, exists_eq_or_imp, hi,
        Prod.mk.injEq, Option.some.injEq, eq_comm (a := j), eq_comm (a := spec)]
      tauto
    rwa [hset] at hreg

theorem wiringOf_items (ports : Dict Text Port) : wiringOf ports.items = wiring ports := by
  ext w
  simp only [wiringOf, wiring, Set.mem_ofPred_eq, Prod.exists, ← Dict.get?_eq_some_iff]

theorem Plugged.congr (h : Plugged done t) (hsockets : t'.sockets = t.sockets) (hports : t'.ports = t.ports) :
    Plugged done t' := by
  constructor
  · rw [hsockets]
    exact h.control
  · rw [hports]
    exact h.named
  · rw [hsockets, hports]
    exact h.live
  · rw [hports]
    exact h.fresh
  · rw [hports]
    exact h.apart

theorem registered_newPoller (t : ComponentThread) : Registered ∅ t.newPoller := by
  refine ⟨List.nodup_singleton 0, fun i => ?_, fun i name => ?_, fun i name => ?_, fun i index => ?_⟩
  · simp [newPoller, pollerRegister]
  · simp [newPoller]
  · simp [newPoller, Dict.get?_set_eq_some]
  · simp [newPoller]

theorem Plugged.setupPoller (h : Plugged Set.univ t) : Wired t.setupPoller ∧ t.setupPoller.view = t.view := by
  have hitems : ∀ item ∈ t.ports.items, ∃ i, item.2.socket = some i ∧ i ≠ 0 ∧
      ∀ spec, (i, spec) ∉ (∅ : Set (ℕ × PortSpec)) := by
    rintro ⟨name, p⟩ hmem
    obtain ⟨i, s, hi, hpos, -⟩ := h.live (Dict.get?_eq_some_iff.mpr hmem) trivial
    exact ⟨i, hi, hpos, fun spec => Set.notMem_empty _⟩
  have hapart : t.ports.items.Pairwise fun item item' => item.2.socket ≠ item'.2.socket := by
    have hkeys : t.ports.items.Pairwise fun item item' => item.1 ≠ item'.1 := List.pairwise_map.mp t.ports.nodup
    refine hkeys.imp_of_mem fun {item item'} hmem hmem' hne heq => hne ?_
    obtain ⟨i, s, hi, -⟩ := h.live (Dict.get?_eq_some_iff.mpr hmem) trivial
    exact h.apart (Dict.get?_eq_some_iff.mpr hmem) (Dict.get?_eq_some_iff.mpr hmem') hi (heq.symm.trans hi)
  obtain ⟨hreg, hsockets, hports⟩ := (registered_newPoller t).addPorts hitems hapart
  rw [Set.empty_union, wiringOf_items] at hreg
  have hports' : t.setupPoller.ports = t.ports := hports
  refine ⟨⟨h.congr hsockets hports, ?_⟩, ?_⟩
  · rw [hports']
    exact hreg
  · funext name
    rw [view, view, ComponentThread.setupPoller, hsockets, hports]
    rfl

/-- The ports as they are built. -/
theorem get?_buildPorts {settings : Settings} {portSpecs : List PortSpec} {name : Text} {p : Port}
    (hp : (buildPorts settings portSpecs).get? name = some p) :
    p.name = name ∧ p.servers = [] ∧ p.socket = none := by
  have hrun : ∀ (specs : List PortSpec) (res : Dict Text Port),
      (∀ name p, res.get? name = some p → p.name = name ∧ p.servers = [] ∧ p.socket = none) →
      ∀ name p, (specs.foldl (fun res spec => res.set spec.name (.init settings spec)) res).get? name = some p →
        p.name = name ∧ p.servers = [] ∧ p.socket = none := by
    intro specs
    induction specs with
    | nil => exact fun res h => h
    | cons spec specs ih =>
      intro res h
      refine ih _ fun name p hp => ?_
      rcases Dict.get?_set_eq_some.mp hp with ⟨rfl, rfl⟩ | ⟨-, hp⟩
      · exact ⟨rfl, rfl, rfl⟩
      · exact h name p hp
  exact hrun portSpecs .empty (by simp) name p hp

/-- The thread is set up: every port has its socket. -/
theorem setup_eq (settings : Settings) (portSpecs : List PortSpec) :
    ∃ t, setup settings portSpecs = some t ∧ Wired t ∧ ∀ name p, t.ports.get? name = some p →
      p.servers = [] ∧ (p.kind.connects → t.view name = some (p, p.built p.setupOptions)) := by
  let t₀ := init (buildPorts settings portSpecs)
  have hstart : Starting ∅ t₀ := by
    refine ⟨⟨⟨_, rfl, rfl⟩, fun hp => (get?_buildPorts hp).1, fun _ h => absurd h (Set.notMem_empty _),
      fun hp _ => (get?_buildPorts hp).2.2, fun hp _ hi _ => ?_⟩, fun hp => (get?_buildPorts hp).2.1, fun hview => ?_⟩
    · simp [(get?_buildPorts hp).2.2] at hi
    · obtain ⟨hp, i, hi, -⟩ := view_eq_some.mp hview
      simp [(get?_buildPorts hp).2.2] at hi
  obtain ⟨t, ht, hstart', hkeys⟩ := hstart.setupSockets (fun name (h : name ∈ t₀.ports.keys) => h) t₀.ports.nodup
    fun name _ => Set.notMem_empty name
  have hall : ∀ {name p}, t.ports.get? name = some p → name ∈ ∅ ∪ {name | name ∈ t₀.ports.keys} := by
    intro name p hp
    rw [← hkeys]
    exact .inr (Dict.mem_of_get? hp)
  have hplugged : Plugged Set.univ t :=
    ⟨hstart'.control, hstart'.named, fun hp _ => hstart'.live hp (hall hp), fun hp h => absurd trivial h, hstart'.apart⟩
  obtain ⟨hwired, hview⟩ := hplugged.setupPoller
  refine ⟨t.setupPoller, ?_, hwired, fun name p hp => ?_⟩
  · have hsockets : t₀.setupSockets = some t := ht
    simp [setup, t₀, hsockets]
  · obtain ⟨i, s, hi, -, hs, -⟩ := hwired.look hp
    have hps : t.setupPoller.view name = some (p, s) := view_eq_some.mpr ⟨hp, i, hi, hs⟩
    have hps' : t.view name = some (p, s) := hview ▸ hps
    refine ⟨hstart'.servers (view_eq_some.mp hps').1, fun hconn => ?_⟩
    rw [hps, hstart'.built hps' hconn]

end ComponentThread

end Riaps.Component.Sockets
