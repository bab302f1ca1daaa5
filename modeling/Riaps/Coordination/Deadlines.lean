import Mathlib.Data.List.Perm.Subperm
import Mathlib.Tactic.Linarith
import Riaps.Coordination.Elections

/-!
# The leader deadline

A follower starts an election when its leader deadline has passed, and only
then. After it has voted the deadline is `None`, and nothing that the thread
does by itself sets it: such a follower waits for ever, or until somebody else
leads. So a leaderless follower can start an election, given heartbeats of
enough members, exactly if its deadline is set (`canStart_iff`).

The one direction is an invariant of the runs in which nothing but heartbeats
comes in; for the other such a run is made, pass by pass of the loop.
-/

namespace Riaps.Coordination

open Riaps.Foundation

universe u

variable {Id : Type u} [DecidableEq Id]

namespace GroupThread

/-! ### The membership list -/

/-- A peer last heard from at `heard` is lost at `now`. -/
def lost (g : GroupParams) (now heard : ℚ) : Bool := g.groupPeerTimeout < pyInt ((now - heard) * 1000)

theorem foldl_dropPeer (leavers : List Id) (s : GroupThread Id) (k : Id) :
    (leavers.foldl dropPeer s).peers.get? k = if k ∈ leavers then none else s.peers.get? k := by
  induction leavers generalizing s with
  | nil => simp
  | cons l leavers ih =>
    rw [List.foldl_cons, ih, dropPeer]
    simp only [Dict.get?_del, List.mem_cons]
    by_cases hk : k ∈ leavers
    · simp [hk]
    · by_cases hl : k = l <;> simp [hk, hl]

/-- `updatePeers` takes out the peers that are lost. -/
theorem get?_updatePeers (g : GroupParams) (now : ℚ) (s : GroupThread Id) (k : Id) :
    (s.updatePeers g now).peers.get? k = (s.peers.get? k).filter fun heard => !lost g now heard := by
  have hmem : ∀ k, k ∈ (s.peers.items.filter fun p => g.groupPeerTimeout < pyInt ((now - p.2) * 1000)).map Prod.fst ↔
      ∃ heard, s.peers.get? k = some heard ∧ lost g now heard := by
    intro k
    simp only [List.mem_map, List.mem_filter, Prod.exists, exists_and_right, exists_eq_right, Dict.get?_eq_some_iff,
      lost]
  have hget : (((s.peers.items.filter fun p => g.groupPeerTimeout < pyInt ((now - p.2) * 1000)).map Prod.fst).foldl
      dropPeer s).peers.get? k = (s.peers.get? k).filter fun heard => !lost g now heard := by
    rw [foldl_dropPeer]
    cases hk : s.peers.get? k with
    | none => simp
    | some heard =>
      cases hlost : lost g now heard with
      | true =>
        rw [if_pos ((hmem k).mpr ⟨heard, hk, hlost⟩), Option.filter_some]
        simp [hlost]
      | false =>
        rw [if_neg, Option.filter_some]
        · simp [hlost]
        · intro hin
          obtain ⟨heard', hk', hlost'⟩ := (hmem k).mp hin
          cases hk.symm.trans hk'
          cases hlost.symm.trans hlost'
  unfold updatePeers
  simp only
  split_ifs with h
  · exact hget
  · rw [List.length_pos_iff, not_not] at h
    rw [h] at hget
    exact hget

/-- `numPeers` is the length of the membership list. -/
def Counted (s : GroupThread Id) : Prop := s.numPeers = s.peers.len

theorem counted_updatePeers {g : GroupParams} {now : ℚ} {s : GroupThread Id} (h : Counted s) :
    Counted (s.updatePeers g now) := by
  unfold updatePeers
  simp only
  split_ifs
  · rfl
  · exact h

omit [DecidableEq Id] in
/-- Members on the list are counted. -/
theorem le_numPeers {s : GroupThread Id} (h : Counted s) {ids : List Id} (hids : ids.Nodup)
    (hmem : ∀ i ∈ ids, i ∈ s.peers) : ids.length ≤ s.numPeers := by
  rw [h, Dict.len_eq_length_keys]
  exact (hids.subperm hmem).length_le

/-! ### What can happen to a follower that only hears heartbeats -/

/-- The calls of a thread to which nothing but heartbeats comes in. -/
def isQuietCall {g : Member Id} : Call Id g → Bool
  | .wake _ | .timeout _ | .net _ (.heartbeat _) => true
  | _ => false

/-- The time of a call. -/
def callTime {g : Member Id} : Call Id g → ℚ
  | .wake e | .timeout e | .comp e _ _ | .net e _ | .forLeader e _ _ _ | .forMember e _ => e.now

/-- From `t` on, with heartbeats that keep enough peers on the list at every timeout, and by
nothing else, the thread can become a candidate. -/
def CanStart (g : Member Id) (t : ℚ) (s : GroupThread Id) : Prop :=
  ∃ cs : List (Call Id g), (∀ c ∈ cs, isQuietCall c ∧ t ≤ callTime c) ∧ (cs.map callTime).Pairwise (· ≤ ·) ∧
    AllSteps (call g) (fun s c => ∀ e, c = .timeout e →
      g.groupSize / 2 + 1 < (s.updatePeers g.toGroupParams e.now).numPeers) s cs ∧
    (run (call g) s cs).exc = none ∧ (run (call g) s cs).state = .candidate

/-- The leader deadline is set, as `handleTimeout` reads it. -/
def Armed (s : GroupThread Id) : Prop := ∃ d, s.leaderDeadline = some d ∧ d ≠ 0

/-- What a quiet call does in a follower: nothing, or an election starts. -/
theorem event_quietCall {g : Member Id} {s : GroupThread Id} {c : Call Id g} (hc : isQuietCall c)
    (hst : s.state = .follower) :
    s.event g c = .idle ∨ Armed s ∧
      (s.event g c = .candidacy ∨ s.event g c = .candidacyFails ∨ ∃ d, s.event g c = .rearm d) := by
  unfold event
  by_cases hs : s.exc = none
  swap
  · exact Or.inl (if_pos hs)
  rw [if_neg (not_not.mpr hs)]
  cases c with
  | wake e => exact Or.inl rfl
  | net e m =>
    cases m with
    | heartbeat peer => exact Or.inl rfl
    | _ => cases hc
  | timeout e =>
    simp only [hst]
    by_cases hpast : s.pastLeaderDeadline e.now
    · right
      have harmed : Armed s := by
        unfold pastLeaderDeadline at hpast
        split at hpast
        · rename_i d hd
          exact ⟨d, hd, (of_decide_eq_true hpast).1⟩
        · cases hpast
      refine ⟨harmed, ?_⟩
      simp only [hpast, if_true]
      split_ifs
      · exact Or.inr (Or.inl rfl)
      · exact Or.inl rfl
      · exact Or.inr (Or.inr ⟨_, rfl⟩)
    · exact Or.inl (if_neg hpast)
  | _ => cases hc

/-- A follower without a deadline remains one. -/
theorem not_canStart_of_not_armed {g : Member Id} {s : GroupThread Id} (t : ℚ) (hst : s.state = .follower)
    (h : ¬ Armed s) : ¬ CanStart g t s := by
  rintro ⟨cs, hcs, -, -, -, hcand⟩
  have hall : AllSteps (call g) (fun _ c => isQuietCall c = true) s cs :=
    fun pre c hpre => (hcs c (hpre.subset (by simp))).1
  have hinv : (run (call g) s cs).state = .follower ∧ ¬ Armed (run (call g) s cs) := by
    refine hall.inv (I := fun s => s.state = .follower ∧ ¬ Armed s) (fun s c hs hc => ?_) ⟨hst, h⟩
    have hseat : (call g s c).seat = s.seat := by
      rcases event_quietCall hc hs.1 with hev | ⟨harmed, -⟩
      · rw [seat_call, hev]
        rfl
      · exact absurd harmed hs.2
    refine ⟨(congrArg Seat.state hseat).trans hs.1, ?_⟩
    rintro ⟨d, hd, hne⟩
    exact hs.2 ⟨d, (congrArg Seat.leaderDeadline hseat).symm.trans hd, hne⟩
  cases hinv.1.symm.trans hcand

/-- Nor does a follower become a candidate whose next term does not fit a message. -/
theorem not_canStart_of_last_term {g : Member Id} {s : GroupThread Id} (t : ℚ) (hst : s.state = .follower)
    (h : 2 ^ 32 ≤ s.term + 1) : ¬ CanStart g t s := by
  rintro ⟨cs, hcs, -, -, hexc, hcand⟩
  have hall : AllSteps (call g) (fun _ c => isQuietCall c = true) s cs :=
    fun pre c hpre => (hcs c (hpre.subset (by simp))).1
  have hinv := hall.inv (I := fun s => s.exc = none → s.state = .follower ∧ 2 ^ 32 ≤ s.term + 1) (fun s c hs hc => ?_)
    (fun _ => ⟨hst, h⟩) hexc
  · cases hinv.1.symm.trans hcand
  · intro hexc'
    have hs' : s.exc = none := by
      by_contra hne
      exact hne (by rw [call_of_exc hne] at hexc'; exact hexc')
    obtain ⟨hst', hterm⟩ := hs hs'
    have hg := guard_event g s c
    have hseat := seat_call g s c
    have hstay : (call g s c).state = s.state → (call g s c).term = s.term →
        (call g s c).state = .follower ∧ 2 ^ 32 ≤ (call g s c).term + 1 :=
      fun h₁ h₂ => ⟨h₁.trans hst', h₂ ▸ hterm⟩
    rcases event_quietCall hc hst' with hev | ⟨-, hev | hev | ⟨d, hev⟩⟩
    · rw [hev] at hseat
      exact hstay (congrArg Seat.state hseat) (congrArg Seat.term hseat)
    · rw [hev] at hg
      exact absurd hg.2.1 (Nat.not_lt.mpr hterm)
    · rw [exc_of_candidacyFails hev] at hexc'
      cases hexc'
    · rw [hev] at hseat
      exact hstay (congrArg Seat.state hseat) (congrArg Seat.term hseat)

/-! ### A run that starts an election -/

/-- Passes of the loop in which heartbeats come in. -/
def heartbeats {g : Member Id} (e : Env g.toGroupParams) (ids : List Id) : List (Call Id g) :=
  ids.flatMap fun i => [.wake e, .net e (.heartbeat i)]

omit [DecidableEq Id] in
theorem mem_heartbeats {g : Member Id} {e : Env g.toGroupParams} {ids : List Id} {c : Call Id g}
    (h : c ∈ heartbeats e ids) : isQuietCall c ∧ callTime c = e.now ∧ ∀ e', c ≠ .timeout e' := by
  obtain ⟨i, -, hc⟩ := List.mem_flatMap.mp h
  rcases List.mem_cons.mp hc with rfl | hc
  · exact ⟨rfl, rfl, fun _ => by rintro ⟨⟩⟩
  · obtain rfl := List.mem_singleton.mp hc
    exact ⟨rfl, rfl, fun _ => by rintro ⟨⟩⟩

theorem lost_now (g : GroupParams) (now : ℚ) : lost g now now = false := by
  have := g.peer_pos
  simp only [lost, sub_self, zero_mul, pyInt, le_refl, if_true, Int.floor_zero]
  simp [this.le]

theorem handleHeartbeat_fields (g : Member Id) (e : Env g.toGroupParams) (peer : Id) (s : GroupThread Id) :
    (s.handleNetMessage g e (.heartbeat peer)).exc = s.exc ∧
      (s.handleNetMessage g e (.heartbeat peer)).peers = s.peers.set peer e.now ∧
      Counted (s.handleNetMessage g e (.heartbeat peer)) := by
  unfold handleNetMessage
  simp only
  split <;> exact ⟨rfl, rfl, rfl⟩

theorem peers_wake (g : Member Id) (now : ℚ) (s : GroupThread Id) (k : Id) :
    (s.wake g now).peers.get? k = (s.peers.get? k).filter fun heard => !lost g.toGroupParams now heard := by
  have hpeers : (s.heartbeat g now).peers = s.peers := by
    unfold heartbeat
    split <;> rfl
  rw [wake, get?_updatePeers, hpeers]

theorem counted_wake {g : Member Id} {now : ℚ} {s : GroupThread Id} (h : Counted s) : Counted (s.wake g now) := by
  refine counted_updatePeers ?_
  unfold heartbeat
  split <;> exact h

/-- The pass of the loop in which a heartbeat comes in. -/
theorem run_heartbeat {g : Member Id} (e : Env g.toGroupParams) (i : Id) {s : GroupThread Id} (hs : s.exc = none) :
    (run (call g) s [.wake e, .net e (.heartbeat i)]).exc = none ∧
      (run (call g) s [.wake e, .net e (.heartbeat i)]).seat = s.seat ∧
      (∀ k, k = i ∨ s.peers.get? k = some e.now →
        (run (call g) s [.wake e, .net e (.heartbeat i)]).peers.get? k = some e.now) ∧
      Counted (run (call g) s [.wake e, .net e (.heartbeat i)]) := by
  have hrun : run (call g) s [.wake e, .net e (.heartbeat i)] =
      (s.wake g e.now).handleNetMessage g e (.heartbeat i) := by
    simp [call, hs, show (s.wake g e.now).exc = none from (exc_wake g e.now s).trans hs]
  have hseat : (run (call g) s [.wake e, .net e (.heartbeat i)]).seat = s.seat := by
    have hidle : ∀ t : GroupThread Id, t.event g (.net e (.heartbeat i)) = .idle := by
      intro t
      unfold event
      split <;> rfl
    rw [run_cons, run_cons, run_nil, seat_call, hidle]
    exact seat_wake e s
  obtain ⟨hexc, hpeers, hcounted⟩ := handleHeartbeat_fields g e i (s.wake g e.now)
  refine ⟨?_, hseat, fun k hk => ?_, hrun ▸ hcounted⟩
  · rw [hrun, hexc, exc_wake, hs]
  · rw [hrun, hpeers, Dict.get?_set]
    split_ifs with hki
    · rfl
    · rw [peers_wake, hk.resolve_left hki, Option.filter_some, lost_now]
      rfl

/-- After the heartbeats the members they are from are on the list, and they are counted. -/
theorem run_heartbeats {g : Member Id} (e : Env g.toGroupParams) (ids : List Id) {s : GroupThread Id}
    (hs : s.exc = none) :
    (run (call g) s (heartbeats e ids)).exc = none ∧ (run (call g) s (heartbeats e ids)).seat = s.seat ∧
      (∀ i, i ∈ ids ∨ s.peers.get? i = some e.now → (run (call g) s (heartbeats e ids)).peers.get? i = some e.now) ∧
      (ids ≠ [] ∨ Counted s → Counted (run (call g) s (heartbeats e ids))) := by
  induction ids generalizing s with
  | nil => simp [heartbeats, hs]
  | cons i ids ih =>
    obtain ⟨hexc, hseat, hheard, hcounted⟩ := run_heartbeat e i hs
    obtain ⟨hexc', hseat', hheard', hcounted'⟩ := ih hexc
    have hsplit : run (call g) s (heartbeats e (i :: ids)) =
        run (call g) (run (call g) s [.wake e, .net e (.heartbeat i)]) (heartbeats e ids) := by
      rw [← run_append]
      rfl
    rw [hsplit]
    refine ⟨hexc', hseat'.trans hseat, fun k hk => hheard' k ?_, fun _ => hcounted' (Or.inr hcounted)⟩
    rcases hk with hk | hk
    · rcases List.mem_cons.mp hk with rfl | hk
      · exact Or.inr (hheard k (Or.inl rfl))
      · exact Or.inl hk
    · exact Or.inr (hheard k (Or.inr hk))

/-- A member heard from at `now` is not lost when the longest timeout has passed. -/
theorem lost_after_electionMax (g : GroupParams) (now : ℚ) :
    lost g (now + g.groupElectionMax / 1000) now = false := by
  have hmax : 0 < g.groupElectionMax := by
    have := g.heartbeat_pos; have := g.heartbeat_lt; have := g.election_lt
    omega
  have hpeer := g.peer_lt
  have helapsed : (now + (g.groupElectionMax : ℚ) / 1000 - now) * 1000 = (g.groupElectionMax : ℚ) := by ring
  rw [lost, helapsed, pyInt, if_pos (by exact_mod_cast hmax.le), Int.floor_intCast]
  simpa using hpeer.le

/-- **A follower with a deadline can start an election**: with heartbeats of enough members
when the deadline has passed, and the next timeout. -/
theorem canStart_of_armed {g : Member Id} {s : GroupThread Id} (t : ℚ) {ids : List Id} (hids : ids.Nodup)
    (hlen : g.groupSize / 2 + 1 < ids.length) (hs : s.exc = none) (hst : s.state = .follower) (h : Armed s)
    (hterm : s.term + 1 < 2 ^ 32) : CanStart g t s := by
  obtain ⟨d, hd, hne⟩ := h
  -- the heartbeats come in at `e.now`, after the deadline, and the timeout at `e'.now`
  let e := Env.least g.toGroupParams (max t (d + 1))
  let e' := Env.least g.toGroupParams (max t (d + 1) + g.groupElectionMax / 1000)
  have hmax : (0 : ℚ) < g.groupElectionMax / 1000 := by
    have := g.heartbeat_pos; have := g.heartbeat_lt; have := g.election_lt
    have hpos : (0 : ℚ) < g.groupElectionMax := by exact_mod_cast (by omega : 0 < g.groupElectionMax)
    positivity
  have ht : t ≤ e.now := le_max_left _ _
  have hde : d + 1 ≤ e.now := le_max_right _ _
  have hee' : e.now < e'.now := lt_add_of_pos_right _ hmax
  obtain ⟨hexc, hseat, hheard, hcounted⟩ := run_heartbeats e ids hs
  have hcounted := hcounted (Or.inl (by rintro rfl; simp at hlen))
  set r := run (call g) s (heartbeats e ids) with hr
  -- the members are still on the list when the timeout comes
  have hwake : call g r (.wake e') = r.wake g e'.now := by simp [call, hexc]
  have hpeers : ∀ i ∈ ids, i ∈ ((r.wake g e'.now).updatePeers g.toGroupParams e'.now).peers := by
    intro i hi
    have hkeep : lost g.toGroupParams e'.now e.now = false := lost_after_electionMax _ _
    refine Dict.mem_of_get? (v := e.now) ?_
    rw [get?_updatePeers, peers_wake, hheard i (Or.inl hi), Option.filter_some, hkeep]
    simp [hkeep]
  have hsize : g.groupSize / 2 + 1 < ((r.wake g e'.now).updatePeers g.toGroupParams e'.now).numPeers :=
    hlen.trans_le (le_numPeers (counted_updatePeers (counted_wake hcounted)) hids hpeers)
  -- so the timeout starts an election
  have hexc' : (r.wake g e'.now).exc = none := (exc_wake g e'.now r).trans hexc
  have hseat' : (r.wake g e'.now).seat = s.seat := (hwake ▸ seat_wake e' r).trans hseat
  have hev : (r.wake g e'.now).event g (.timeout e') = .candidacy := by
    have hst' : (r.wake g e'.now).state = .follower := (congrArg Seat.state hseat').trans hst
    have hterm' : (r.wake g e'.now).term = s.term := congrArg Seat.term hseat'
    have hpast : (r.wake g e'.now).pastLeaderDeadline e'.now := by
      have hd' : (r.wake g e'.now).leaderDeadline = some d := (congrArg Seat.leaderDeadline hseat').trans hd
      simp only [pastLeaderDeadline, hd']
      exact decide_eq_true ⟨hne, by linarith⟩
    simp only [event, hexc', hst', hpast, hsize, hterm', ne_eq, not_true_eq_false, if_false, if_true]
    exact if_neg (Nat.not_le.mpr hterm)
  have hrun : run (call g) s (heartbeats e ids ++ [.wake e', .timeout e']) =
      call g (r.wake g e'.now) (.timeout e') := by
    rw [run_append, ← hr, run_cons, hwake, run_cons, run_nil]
  refine ⟨heartbeats e ids ++ [.wake e', .timeout e'], ?_, ?_, ?_, ?_, ?_⟩
  · intro c hc
    rcases List.mem_append.mp hc with hc | hc
    · obtain ⟨hquiet, htime, -⟩ := mem_heartbeats hc
      exact ⟨hquiet, htime ▸ ht⟩
    · have hlast : t ≤ e'.now := ht.trans hee'.le
      simp only [List.mem_cons, List.not_mem_nil, or_false] at hc
      rcases hc with rfl | rfl <;> exact ⟨rfl, hlast⟩
  · rw [List.map_append, List.pairwise_append]
    refine ⟨?_, by simp [callTime], ?_⟩
    · refine List.pairwise_map.mpr (List.pairwise_of_forall_mem_list fun c hc c' hc' => ?_)
      rw [(mem_heartbeats hc).2.1, (mem_heartbeats hc').2.1]
    · intro x hx y hy
      obtain ⟨c, hc, rfl⟩ := List.mem_map.mp hx
      have hy' : y = e'.now := by simpa [callTime] using hy
      rw [(mem_heartbeats hc).2.1, hy']
      exact hee'.le
  · rw [allSteps_append]
    refine ⟨fun pre c hpre e'' hc => ?_, ?_⟩
    · exact absurd hc ((mem_heartbeats (hpre.subset (by simp))).2.2 e'')
    · rw [← hr, allSteps_cons, allSteps_cons, hwake]
      refine ⟨by simp, ?_, allSteps_nil⟩
      rintro e'' ⟨⟩
      exact hsize
  · rw [hrun]
    exact exc_of_candidacy hev
  · rw [hrun]
    exact (congrArg Seat.state (seat_call g _ _)).trans (by rw [hev]; rfl)

/-- **No dead leaderless state, but for those without a deadline.** A follower, with a leader
or without one, can start an election by itself, in a group with enough members, exactly
if its leader deadline is set and its next term fits a message. -/
theorem canStart_iff {g : Member Id} {s : GroupThread Id} (t : ℚ) {ids : List Id} (hids : ids.Nodup)
    (hlen : g.groupSize / 2 + 1 < ids.length) (hs : s.exc = none) (hst : s.state = .follower) :
    CanStart g t s ↔ Armed s ∧ s.term + 1 < 2 ^ 32 := by
  constructor
  · intro hcan
    constructor
    · by_contra harmed
      exact not_canStart_of_not_armed t hst harmed hcan
    · by_contra hterm
      exact not_canStart_of_last_term t hst (Nat.not_lt.mp hterm) hcan
  · rintro ⟨harmed, hterm⟩
    exact canStart_of_armed t hids hlen hs hst harmed hterm

/-- A thread that has just been set up can start an election. -/
theorem canStart_at_start : CanStart (Member.standard 0) 0 (start (Member.standard 0) (.least _ 0)) := by
  have harmed : (start (Member.standard 0) (.least _ 0)).leaderDeadline = some 2 := by decide +kernel
  have hids : ([0, 1] : List ℕ).Nodup := by decide
  refine (canStart_iff 0 hids (by decide) (by decide +kernel) (by decide +kernel)).mpr ?_
  exact ⟨⟨2, harmed, by decide⟩, by decide +kernel⟩

/-- A follower that has voted for a candidate of which nothing more is heard is without a
leader, and can never start an election. -/
theorem stuck_after_vote :
    (run (call (Member.standard 0)) (start (Member.standard 0) (.least _ 0)) [.net (.least _ 1) (.reqvote 1 1)]).state =
        .follower ∧
      (run (call (Member.standard 0)) (start (Member.standard 0) (.least _ 0))
        [.net (.least _ 1) (.reqvote 1 1)]).leader = none ∧
      ¬ CanStart (Member.standard 0) 1
        (run (call (Member.standard 0)) (start (Member.standard 0) (.least _ 0))
          [.net (.least _ 1) (.reqvote 1 1)]) := by
  have hdeadline : (run (call (Member.standard 0)) (start (Member.standard 0) (.least _ 0))
      [.net (.least _ 1) (.reqvote 1 1)]).leaderDeadline = none := by decide +kernel
  refine ⟨by decide +kernel, by decide +kernel, not_canStart_of_not_armed 1 (by decide +kernel) ?_⟩
  rintro ⟨d, hd, -⟩
  cases hdeadline.symm.trans hd

end GroupThread

end Riaps.Coordination
