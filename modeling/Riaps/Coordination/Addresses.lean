import Riaps.Foundation.DottedQuad
import Riaps.Coordination.Safety

/-!
# Where the query ports lead

A leader tells the group the address that its answer port is bound to, the host as a number; the
members that accept it write the number as text again and connect to it. Along any run of a group a
query port is connected to nothing, or to the address, as it was bound, of the answer port of the
member that is taken for the leader: `led_run`. That member is bound there for good.
-/

namespace Riaps.Coordination

open Riaps.Foundation

universe u

variable {Id : Type u}

/-- An address is written as `ipaddress` writes it. -/
theorem compressed_eq_text (host : ℕ) : compressed host = DottedQuad.text host := rfl

namespace GroupThread

/-- `bindAddr`: what the answer port is bound to, on the host with this address. -/
def bindAddr (host : String) (s : GroupThread Id) : Option String :=
  s.ansPort.portNum.map fun portNum => "tcp://" ++ host ++ ":" ++ toString portNum

/-- What the query port is connected to. -/
def connAddrs (s : GroupThread Id) : List String :=
  s.qryPort.conns.map fun server => "tcp://" ++ server.1 ++ ":" ++ toString server.2

variable [DecidableEq Id] {g : Member Id} {s : GroupThread Id} {c : Call Id g}

/-! ### What leaders tell -/

/-- A member tells its own id and host, and the port that it is bound to. -/
structure Truthful (g : Member Id) (s : GroupThread Id) : Prop where
  authority : ∀ term leader host port, .authority term leader host port ∈ published s.sent →
    leader = g.ownId ∧ host = g.host ∧ port ≠ 0 ∧ s.ansPort.portNum = some port
  ldrPort : ∀ port, s.ldrPort = some port → port ≠ 0 ∧ s.ansPort.portNum = some port

/-- An answer port that is bound stays bound, to the same port. -/
theorem portNum_call {port : ℕ} (h : s.ansPort.portNum = some port) : (call g s c).ansPort.portNum = some port := by
  have hseat := congrArg Seat.portNum (seat_call g s c)
  refine hseat.trans ?_
  cases hev : s.event g c with
  | win freePort =>
    rw [(freePort_of_event (.inl hev)).1] at h
    contradiction
  | winFails freePort =>
    cases freePort with
    | none => exact h
    | some p =>
      rw [(freePort_of_event (.inr hev)).1] at h
      contradiction
  | _ => exact h

/-- The port that a winner is bound to. -/
theorem portNum_of_event {port : ℕ} (h : s.event g c = .win port ∨ s.event g c = .winFails (some port)) :
    port ≠ 0 ∧ (call g s c).ansPort.portNum = some port := by
  obtain ⟨-, e, rfl⟩ := freePort_of_event h
  have hpos : e.freePort ≠ 0 := (lt_of_lt_of_le (by decide) e.freePort_mem.1).ne'
  refine ⟨hpos, (congrArg Seat.portNum (seat_call g s c)).trans ?_⟩
  rcases h with h | h <;> rw [h] <;> rfl

/-- **A member tells the truth.** -/
theorem Truthful.call (h : Truthful g s) : Truthful g (call g s c) := by
  constructor
  · intro term leader host port hm
    rw [sent_call, published_append] at hm
    rcases List.mem_append.mp hm with hm | hm
    · obtain ⟨hown, hhost, hport, hbound⟩ := h.authority term leader host port hm
      exact ⟨hown, hhost, hport, portNum_call hbound⟩
    · have hpub : .authority term leader host port ∈ (s.event g c).pubs g s.seat := by
        rw [← elections_sends]
        exact mem_elections.mpr ⟨hm, rfl⟩
      have hg := guard_event g s c
      cases hev : s.event g c with
      | announce port' =>
        rw [hev] at hpub hg
        cases List.mem_singleton.mp hpub
        obtain ⟨hport, hbound⟩ := h.ldrPort port hg.2.2.1
        exact ⟨rfl, rfl, hport, portNum_call hbound⟩
      | win port' =>
        rw [hev] at hpub
        cases List.mem_singleton.mp hpub
        obtain ⟨hport, hbound⟩ := portNum_of_event (.inl hev)
        exact ⟨rfl, rfl, hport, hbound⟩
      | _ =>
        rw [hev] at hpub
        simp [ElectionEvent.pubs] at hpub
  · intro port hport
    have hseat := (congrArg Seat.ldrPort (seat_call g s c)).symm.trans hport
    cases hev : s.event g c with
    | win port' =>
      rw [hev] at hseat
      obtain rfl := Option.some.inj hseat
      exact portNum_of_event (.inl hev)
    | winFails port' =>
      rw [hev] at hseat
      cases port' with
      | none =>
        obtain ⟨hpos, hbound⟩ := h.ldrPort port hseat
        exact ⟨hpos, portNum_call hbound⟩
      | some p =>
        obtain rfl := Option.some.inj hseat
        exact portNum_of_event (.inr hev)
    | _ =>
      rw [hev] at hseat
      obtain ⟨hpos, hbound⟩ := h.ldrPort port hseat
      exact ⟨hpos, portNum_call hbound⟩

omit [DecidableEq Id] in
theorem truthful_start (g : Member Id) (e : Env g.toGroupParams) : Truthful g (start g e) := by
  constructor
  · intro term leader host port hm
    rcases sent_start g e with h | h <;> rw [h] at hm <;> simp at hm
  · intro port hport
    have hseat := congrArg Seat.ldrPort (seat_start g e)
    rw [show (start g e).seat.ldrPort = some port from hport] at hseat
    contradiction

/-! ### Where a call leads -/

/-- The query port leads nowhere, and there is no leader other than the member itself; or it leads to the server of the
leader, which is one of `servers`. -/
def Led (g : Member Id) (servers : Id → String × ℕ → Prop) (s : GroupThread Id) : Prop :=
  (s.qryPort.conns = [] ∧ (s.exc = none → s.leader = none ∨ s.leader = some g.ownId)) ∨
    ∃ leader server, s.state = .follower ∧ s.leader = some leader ∧ servers leader server ∧ s.qryPort.conns = [server]

omit [DecidableEq Id] in
theorem Led.mono {servers servers' : Id → String × ℕ → Prop} (h : Led g servers s)
    (hsub : ∀ leader server, servers leader server → servers' leader server) : Led g servers' s := by
  rcases h with h | ⟨leader, server, hst, hl, hserver, hconns⟩
  · exact .inl h
  · exact .inr ⟨leader, server, hst, hl, hsub _ _ hserver, hconns⟩

/-- A call that leaves leader and query port alone, and with them a follower, leads where it led. -/
theorem Led.of_eq {servers : Id → String × ℕ → Prop} (h : Led g servers s)
    (hst : s.state = .follower → (call g s c).state = .follower) (hl : (call g s c).leader = s.leader)
    (hq : (call g s c).qryPort = s.qryPort) : Led g servers (call g s c) := by
  rcases h with ⟨hconns, hno⟩ | ⟨leader, server, hfollower, hleader, hserver, hconns⟩
  · exact .inl ⟨by rw [hq, hconns], fun hexc => by rw [hl]; exact hno (exc_of_call hexc)⟩
  · exact .inr ⟨leader, server, hst hfollower, hl.trans hleader, hserver, by rw [hq, hconns]⟩

/-- **A call leads where the leader is**, when the `AUTHORITY` that comes names a server. -/
theorem Led.call {servers : Id → String × ℕ → Prop} (h : Led g servers s)
    (hc : ∀ e term leader host port, c = .net e (.authority term leader host port) →
      port ≠ 0 ∧ servers leader (compressed host, port)) : Led g servers (call g s c) := by
  have hseat := seat_call g s c
  have hstate := congrArg Seat.state hseat
  have hleader := congrArg Seat.leader hseat
  have hqry := congrArg Seat.qryPort hseat
  have hg := guard_event g s c
  -- what a member that has no server does without one
  have hnowhere : s.state ≠ .follower → s.qryPort.conns = [] := by
    intro hne
    rcases h with h | ⟨_, _, hst, _⟩
    · exact h.1
    · exact absurd hst hne
  cases hev : s.event g c with
  | candidacy =>
    rw [hev] at hleader hqry
    exact .inl ⟨(congrArg GroupQryPort.conns hqry).trans (GroupQryPort.conns_update_none _), fun _ => .inl hleader⟩
  | candidacyFails =>
    rw [hev] at hqry
    refine .inl ⟨(congrArg GroupQryPort.conns hqry).trans (GroupQryPort.conns_update_none _), fun hexc => ?_⟩
    rw [exc_of_candidacyFails hev] at hexc
    contradiction
  | giveUp =>
    rw [hev] at hleader hqry hg
    exact .inl ⟨(congrArg GroupQryPort.conns hqry).trans (hnowhere (by simp [hg.1])), fun _ => .inl hleader⟩
  | accept term leader server deadline =>
    rw [hev] at hstate hleader hqry hg
    obtain ⟨-, e, host, port, rfl, hserver⟩ := hg
    obtain ⟨hport, hmem⟩ := hc e term leader host port rfl
    rw [hserver hport] at hqry
    exact .inr ⟨leader, (compressed host, port), hstate, hleader, hmem,
      (congrArg GroupQryPort.conns hqry).trans (GroupQryPort.conns_update_some _ _ _)⟩
  | answer term node =>
    rw [hev] at hleader hqry
    exact .inl ⟨(congrArg GroupQryPort.conns hqry).trans (GroupQryPort.conns_update_none _), fun _ => .inl hleader⟩
  | «defer» term node =>
    rw [hev] at hleader hqry
    exact .inl ⟨(congrArg GroupQryPort.conns hqry).trans (GroupQryPort.conns_update_none _), fun _ => .inl hleader⟩
  | win port =>
    rw [hev] at hleader hqry hg
    exact .inl ⟨(congrArg GroupQryPort.conns hqry).trans (hnowhere (by simp [hg.1])), fun _ => .inr hleader⟩
  | winFails port =>
    rw [hev] at hleader hqry hg
    exact .inl ⟨(congrArg GroupQryPort.conns hqry).trans (hnowhere (by simp [hg.1])), fun _ => .inr hleader⟩
  | _ =>
    rw [hev] at hstate hleader hqry
    exact h.of_eq hstate.trans hleader hqry

end GroupThread

/-! ### The group -/

namespace Group

open GroupThread

variable [DecidableEq Id] {ι : Type*} {G : Group ι Id} {n : G.net.Net}

/-- The servers of the members: where their answer ports are bound. -/
def Serves (n : G.net.Net) (leader : Id) (server : String × ℕ) : Prop :=
  ∃ j, (G.member j).ownId = leader ∧ compressed (G.member j).host = server.1 ∧
    (n.node j).ansPort.portNum = some server.2

/-- All members tell the truth, and all query ports lead to leaders. -/
structure Guided (n : G.net.Net) : Prop where
  truthful : ∀ i, (n.node i).Truthful (G.member i)
  led : ∀ i, (n.node i).Led (G.member i) (Serves n)

/-- A member's call keeps the group guided. -/
theorem Guided.of_call [DecidableEq ι] {n' : G.net.Net} {i : ι} {c : Call Id (G.member i)} (h : Guided n)
    (hnode : ∀ k, n'.node k = if k = i then (n.node i).call (G.member i) c else n.node k)
    (hc : ∀ m ∈ heardOf c, ∃ j, m ∈ published (n.node j).sent) : Guided n' := by
  have hserves : ∀ leader server, Serves n leader server → Serves n' leader server := by
    rintro leader server ⟨j, hown, hhost, hport⟩
    refine ⟨j, hown, hhost, ?_⟩
    rw [hnode]
    split
    · next hj =>
      subst hj
      exact GroupThread.portNum_call hport
    · exact hport
  constructor
  · intro k
    rw [hnode]
    split
    · next hk =>
      subst hk
      exact (h.truthful k).call
    · exact h.truthful k
  · intro k
    rw [hnode]
    split
    · next hk =>
      subst hk
      refine ((h.led k).call ?_).mono hserves
      rintro e term leader host port rfl
      obtain ⟨j, hj⟩ := hc (.authority term leader host port) (List.mem_singleton.mpr rfl)
      obtain ⟨hown, hhost, hport, hbound⟩ := (h.truthful j).authority term leader host port hj
      exact ⟨hport, j, hown.symm, by rw [hhost], hbound⟩
    · exact (h.led k).mono hserves

theorem Guided.step [DecidableEq ι] (h : Guided n) (a : Move G.Own fun i => Env (G.member i).toGroupParams) :
    Guided (Broadcast.step n a) := by
  cases a with
  | act i c =>
    refine h.of_call (Broadcast.node_act c) ?_
    rw [heardOf_own]
    exact fun _ hm => absurd hm List.not_mem_nil
  | deliver i j e =>
    cases hm : n.next i j with
    | none => rwa [Broadcast.step_deliver_of_none hm]
    | some m =>
      refine h.of_call (c := .net e m) (Broadcast.node_deliver hm e) ?_
      exact List.forall_mem_singleton.mpr ⟨j, mem_of_next hm⟩
  | lose i j => exact ⟨h.truthful, h.led⟩

theorem guided_start (e : ∀ i, Env (G.member i).toGroupParams) : Guided (G.start e) := by
  refine ⟨fun i => GroupThread.truthful_start (G.member i) (e i), fun i => .inl ?_⟩
  have hseat := GroupThread.seat_start (G.member i) (e i)
  exact ⟨congrArg (fun x => x.qryPort.conns) hseat, fun _ => .inl (congrArg Seat.leader hseat)⟩

/-- **Query ports lead to leaders.** Whatever moves, a member's query port is connected to nothing, and then the member
has no leader but itself, or to one address alone: the one that the answer port of its leader is bound to. -/
theorem led_run [DecidableEq ι] (G : Group ι Id) (iface : ι → String)
    (hiface : ∀ i, DottedQuad.parse (iface i) = some (G.member i).host) (e : ∀ i, Env (G.member i).toGroupParams)
    (moves : List (Move G.Own fun i => Env (G.member i).toGroupParams)) (i : ι) :
    (((run Broadcast.step (G.start e) moves).node i).connAddrs = [] ∧
      (((run Broadcast.step (G.start e) moves).node i).exc = none →
        ((run Broadcast.step (G.start e) moves).node i).leader = none ∨
          ((run Broadcast.step (G.start e) moves).node i).leader = some (G.member i).ownId)) ∨
    ∃ j addr, ((run Broadcast.step (G.start e) moves).node i).state = .follower ∧
      ((run Broadcast.step (G.start e) moves).node i).leader = some (G.member j).ownId ∧
      ((run Broadcast.step (G.start e) moves).node j).bindAddr (iface j) = some addr ∧
      ((run Broadcast.step (G.start e) moves).node i).connAddrs = [addr] := by
  have hguided : Guided (run Broadcast.step (G.start e) moves) :=
    inv_run (I := Guided) (fun n a h => h.step a) (guided_start e) moves
  rcases hguided.led i with ⟨hconns, hno⟩ | ⟨leader, server, hst, hleader, ⟨j, hown, hhost, hport⟩, hconns⟩
  · exact .inl ⟨by rw [GroupThread.connAddrs, hconns]; rfl, hno⟩
  · refine .inr ⟨j, "tcp://" ++ iface j ++ ":" ++ toString server.2, hst, by rw [hown]; exact hleader, ?_, ?_⟩
    · rw [GroupThread.bindAddr, hport]
      rfl
    · rw [compressed_eq_text, DottedQuad.text_of_parse (hiface j)] at hhost
      rw [GroupThread.connAddrs, hconns, hhost]
      rfl

/-- When member 0 of two is elected and member 1 hears of it, member 1 is connected to the first of the free ports. -/
theorem led_run_elected :
    ((run Broadcast.step (started 2) [hears 101 0 0, hears 101 0 1, timesOut 103 0, hears 103 1 0, hears 103 1 0,
      hears 103 0 1, hears 104 1 0]).node 1).connAddrs = ["tcp://127.0.0.1:49152"] := by
  have h := led_run (standard 2) (fun _ => "127.0.0.1") (by decide +kernel) (fun _ => .least _ 100)
    [hears 101 0 0, hears 101 0 1, timesOut 103 0, hears 103 1 0, hears 103 1 0, hears 103 0 1, hears 104 1 0] 1
  rcases h with ⟨hnone, -⟩ | ⟨j, addr, -, hleader, hbound, hconns⟩
  · exact absurd hnone (by decide +kernel)
  · obtain rfl : j = 0 := Fin.ext (Option.some.inj (hleader.symm.trans (by decide +kernel)))
    have haddr : addr = "tcp://127.0.0.1:49152" := Option.some.inj (hbound.symm.trans (by decide +kernel))
    rw [← haddr]
    exact hconns

end Group

end Riaps.Coordination
