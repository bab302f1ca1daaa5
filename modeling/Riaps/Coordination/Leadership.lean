import Riaps.Coordination.Elections

/-!
# Who the leader is

Two variables say who leads: `leader`, whom a member takes for the leader, and
`state`, which is `LEADER` in the member that leads; the query port is to be
connected to the leader's server. They are changed separately, in a dozen
branches. `Coherent` is what holds of them whatever comes in (`coherent_run`).
What does not is that `isLeader()`, which looks at `leader`, implies the state
`LEADER`: a member that has stepped down takes its own `AUTHORITY` for that of a
leader when it comes back late (`no_false_leader_iff`).
-/

namespace Riaps.Coordination

open Riaps.Foundation

universe u

variable {Id : Type u} [DecidableEq Id]

/-! ### Coherence -/

/-- State, leader and query port fit together: a leader takes itself for the leader, has a
bound answer port and no connection; a candidate has no leader, has voted for itself and
has no connection; nor has a member without a leader. -/
structure Coherent (g : Member Id) (x : Seat Id) : Prop where
  leader : x.state = .leader → x.leader = some g.ownId ∧ x.ldrPort ≠ none ∧ x.qryPort.conns = []
  candidate : x.state = .candidate → x.leader = none ∧ x.votedFor = some g.ownId ∧ x.qryPort.conns = []
  leaderless : x.leader = none → x.qryPort.conns = []
  bound : x.portNum ≠ none → x.ldrPort ≠ none

namespace GroupThread

omit [DecidableEq Id] in
theorem coherent_start (g : Member Id) (e : Env g.toGroupParams) : Coherent g (start g e).seat := by
  rw [seat_start]
  exact ⟨by simp, by simp, fun _ => rfl, by simp⟩

/-- **A call keeps state, leader and query port coherent**, unless it is a candidacy that fails. -/
theorem coherent_call {g : Member Id} {s : GroupThread Id} {c : Call Id g} (h : Coherent g s.seat)
    (hc : s.event g c ≠ .candidacyFails) : Coherent g (call g s c).seat := by
  rw [seat_call]
  have hg := guard_event g s c
  cases hev : s.event g c with
  | candidacyFails => exact absurd hev hc
  | candidacy =>
    exact ⟨by simp [ElectionEvent.apply], by simp [ElectionEvent.apply], by simp [ElectionEvent.apply], h.bound⟩
  | giveUp =>
    rw [hev] at hg
    exact ⟨by simp [ElectionEvent.apply], by simp [ElectionEvent.apply], fun _ => (h.candidate hg.1).2.2, h.bound⟩
  | accept term leader server deadline =>
    exact ⟨by simp [ElectionEvent.apply], by simp [ElectionEvent.apply], by simp [ElectionEvent.apply], h.bound⟩
  | answer term node =>
    rw [hev] at hg
    have hst : s.seat.state = .follower := hg.1
    exact ⟨by simp [ElectionEvent.apply, hst], by simp [ElectionEvent.apply, hst], by simp [ElectionEvent.apply],
      h.bound⟩
  | defer term node =>
    exact ⟨by simp [ElectionEvent.apply], by simp [ElectionEvent.apply], by simp [ElectionEvent.apply], h.bound⟩
  | win port =>
    rw [hev] at hg
    have hq := (h.candidate hg.1).2.2
    exact ⟨by simp [ElectionEvent.apply, hq], by simp [ElectionEvent.apply], by simp [ElectionEvent.apply],
      by simp [ElectionEvent.apply]⟩
  | winFails port =>
    rw [hev] at hg
    obtain ⟨hst, -, hport, -⟩ := hg
    have hq := (h.candidate hst).2.2
    -- without a new port there is the one of the first election
    have hbound : port.or s.seat.ldrPort ≠ none := by
      cases port with
      | some p => simp
      | none => simpa using h.bound (hport rfl)
    exact ⟨fun _ => ⟨rfl, hbound, hq⟩, by simp [ElectionEvent.apply], by simp [ElectionEvent.apply], fun _ => hbound⟩
  | _ => exact ⟨h.leader, h.candidate, h.leaderless, h.bound⟩

/-! ### The leader's server -/

/-- The `AUTHORITY` that a call accepts, if it does: leader, host and port. A leader
accepts only another one of its term. -/
def accepted (g : Member Id) (s : GroupThread Id) (c : Call Id g) : List (Id × ℕ × ℕ) :=
  match c with
  | .net _ (.authority term leader host port) =>
    if s.exc = none ∧ (s.state = .leader → s.term = term ∧ g.ownId ≠ leader) then [(leader, host, port)] else []
  | _ => []

/-- The host and port of the last of the `AUTHORITY` messages `l` that is from `x`. -/
def lastFrom (x : Id) (l : List (Id × ℕ × ℕ)) : Option (ℕ × ℕ) := (l.filter fun a => a.1 = x).getLast?.map Prod.snd

/-- A call handles no `AUTHORITY` with port 0. -/
def namesPort {g : Member Id} : Call Id g → Bool
  | .net _ (.authority _ _ _ port) => port ≠ 0
  | _ => true

/-- With another member for leader, the query port is connected to the server of the last
`AUTHORITY` accepted from it, and to nothing else. -/
def Linked (g : Member Id) (x : Seat Id) (l : List (Id × ℕ × ℕ)) : Prop :=
  ∀ y, x.leader = some y → y ≠ g.ownId →
    ∃ a, lastFrom y l = some a ∧ x.qryPort.conns = [(compressed a.1, a.2)]

@[simp] theorem lastFrom_append_singleton (x : Id) (l : List (Id × ℕ × ℕ)) (host port : ℕ) :
    lastFrom x (l ++ [(x, host, port)]) = some (host, port) := by
  simp [lastFrom, List.filter_append]

theorem accepted_eq_nil {g : Member Id} {s : GroupThread Id} {c : Call Id g}
    (h : ∀ term leader server deadline, s.event g c ≠ .accept term leader server deadline) : accepted g s c = [] := by
  cases c with
  | net e m =>
    cases m with
    | authority term leader host port =>
      refine if_neg ?_
      rintro ⟨hs, hl⟩
      obtain ⟨server, hev⟩ := event_authority e host port hs hl
      exact h _ _ _ _ hev
    | _ => rfl
  | _ => rfl

theorem linked_call {g : Member Id} {s : GroupThread Id} {c : Call Id g} {l : List (Id × ℕ × ℕ)}
    (h : Linked g s.seat l) (hport : namesPort c) (hc : s.event g c ≠ .candidacyFails) :
    Linked g (call g s c).seat (l ++ accepted g s c) := by
  rw [seat_call]
  have hg := guard_event g s c
  cases hev : s.event g c with
  | candidacyFails => exact absurd hev hc
  | accept term leader server deadline =>
    rw [hev] at hg
    obtain ⟨hl, e, host, port, rfl, hserver⟩ := hg
    have hexc := exc_of_event hev (by simp)
    rw [hserver (by simpa [namesPort] using hport), accepted, if_pos ⟨hexc, hl⟩]
    rintro y ⟨⟩ -
    exact ⟨(host, port), lastFrom_append_singleton _ _ _ _, by simp [ElectionEvent.apply]⟩
  | candidacy => rintro y ⟨⟩
  | giveUp => rintro y ⟨⟩
  | answer term node => rintro y ⟨⟩
  | defer term node => rintro y ⟨⟩
  | win port =>
    rintro y ⟨⟩ hne
    exact absurd rfl hne
  | winFails port =>
    rintro y ⟨⟩ hne
    exact absurd rfl hne
  | _ =>
    rw [accepted_eq_nil (by simp [hev]), List.append_nil]
    exact h

/-- A leader that takes itself for the leader does not fail the assertion. -/
theorem exc_handleTimeout {g : Member Id} {s : GroupThread Id} (h : Coherent g s.seat) (hs : s.exc = none)
    (e : Env g.toGroupParams) : (s.handleTimeout g e).exc ≠ some .assertionError := by
  obtain ⟨-, -, hleader, hport, -⟩ := sweep_fields g.toGroupParams e.now s
  rw [handleTimeout_eq]
  cases hst : s.state with
  | follower =>
    simp only [followerTimeout, startElection, leaderExited_eq, qryUpdate]
    split_ifs <;> simp [raise, setTimeout, setLeaderDeadline, publish, hs]
  | candidate =>
    simp only [candidateTimeout, leaderExited_eq]
    simp [setTimeout, hs]
  | leader =>
    obtain ⟨hown, hldr, -⟩ := h.leader hst
    obtain ⟨port, hldr⟩ := Option.ne_none_iff_exists'.mp hldr
    simp only [leaderTimeout, hleader, show s.leader = some g.ownId from hown, hport,
      show s.ldrPort = some port from hldr, ne_eq, not_true_eq_false, if_false]
    split_ifs <;> simp [raise, setTimeout, publish, hs]

/-- **State coherence**, in every state of a run that the thread reaches without a
`struct.error`, which would end it half way through a candidacy. -/
theorem coherent_run (g : Member Id) (e : Env g.toGroupParams) (cs : List (Call Id g)) (hport : ∀ c ∈ cs, namesPort c)
    (hexc : (run (call g) (start g e) cs).exc ≠ some .structError) :
    Coherent g (run (call g) (start g e) cs).seat ∧
      ((run (call g) (start g e) cs).exc = none →
        ∀ e', ((run (call g) (start g e) cs).handleTimeout g e').exc ≠ some .assertionError) ∧
      Linked g (run (call g) (start g e) cs).seat (collect (call g) (accepted g) (start g e) cs) := by
  have hstep : ∀ s c l, (s.exc ≠ some .structError → Coherent g s.seat ∧ Linked g s.seat l) → namesPort c = true →
      ((call g s c).exc ≠ some .structError →
        Coherent g (call g s c).seat ∧ Linked g (call g s c).seat (l ++ accepted g s c)) := by
    intro s c l hs hc hne
    have hev : s.event g c ≠ .candidacyFails := fun hev => hne (exc_of_candidacyFails hev)
    have hne' : s.exc ≠ some .structError := fun h => hne (by rw [call_of_exc (by simp [h])]; exact h)
    obtain ⟨hcoh, hlink⟩ := hs hne'
    exact ⟨coherent_call hcoh hev, linked_call hlink hc hev⟩
  have hall : AllSteps (call g) (fun _ c => namesPort c = true) (start g e) cs :=
    fun pre c hpre => hport c (hpre.subset (by simp))
  have hstart : Linked g (start g e).seat [] := by
    intro y hy
    rw [seat_start] at hy
    cases hy
  obtain ⟨hcoh, hlink⟩ := hall.inv_collect (call g) (accepted g) hstep (l := [])
    (fun _ => ⟨coherent_start g e, hstart⟩) hexc
  exact ⟨hcoh, fun hs e' => exc_handleTimeout hcoh hs e', hlink⟩

/-- A follower that hears from leader 1, and again after it has moved, is connected to the
new address. -/
theorem coherent_run_moved_leader :
    (run (call (Member.standard 0)) (start (Member.standard 0) (.least _ 0))
      [.net (.least _ 1) (.authority 1 1 0x7f000001 50000),
        .net (.least _ 2) (.authority 2 1 0x7f000001 50001)]).qryPort.conns = [("127.0.0.1", 50001)] := by
  obtain ⟨-, -, hlink⟩ := coherent_run (Member.standard 0) (.least _ 0)
    [.net (.least _ 1) (.authority 1 1 0x7f000001 50000), .net (.least _ 2) (.authority 2 1 0x7f000001 50001)]
    (by decide) (by decide +kernel)
  obtain ⟨a, ha, hconns⟩ := hlink 1 (by decide +kernel) (by decide)
  obtain rfl : a = (0x7f000001, 50001) := by
    refine Option.some.inj (ha.symm.trans ?_)
    decide +kernel
  exact hconns.trans (by decide +kernel)

/-! ### False leaders -/

/-- A member that takes itself for the leader is the leader. -/
def Honest (g : Member Id) (s : GroupThread Id) : Prop := s.isLeader g → s.state = .leader

/-- The call, of a member in state `st`, is the member's own `AUTHORITY`, and accepted. -/
def hearsItself {g : Member Id} (st : MemberState) : Call Id g → Bool
  | .net _ (.authority _ leader _ _) => leader = g.ownId ∧ st ≠ .leader
  | _ => false

theorem honest_start (g : Member Id) (e : Env g.toGroupParams) : Honest g (start g e) := by
  intro h
  have hleader : (start g e).leader = none := congrArg Seat.leader (seat_start g e)
  cases hleader.symm.trans (of_decide_eq_true h)

theorem hearsItself_of_event {g : Member Id} {s : GroupThread Id} {c : Call Id g} (hs : s.exc = none)
    (h : ∀ term leader server deadline, s.event g c ≠ .accept term leader server deadline) :
    hearsItself s.state c = false := by
  cases c with
  | net e m =>
    cases m with
    | authority term leader host port =>
      by_contra hne
      obtain ⟨-, hst⟩ := of_decide_eq_true (Bool.eq_true_of_not_eq_false hne)
      obtain ⟨server, hev⟩ := event_authority e host port hs (fun hl => absurd hl hst)
      exact h _ _ _ _ hev
    | _ => rfl
  | _ => rfl

/-- **A member becomes a false leader exactly by accepting its own `AUTHORITY`.** -/
theorem honest_call_iff {g : Member Id} {s : GroupThread Id} {c : Call Id g} (h : Honest g s) :
    Honest g (call g s c) ↔ (s.exc = none → hearsItself s.state c = false) := by
  have hhonest : Honest g (call g s c) ↔
      (((s.event g c).apply g s.seat).leader = some g.ownId → ((s.event g c).apply g s.seat).state = .leader) := by
    rw [← seat_call]
    simp only [Honest, isLeader, decide_eq_true_eq]
    rfl
  have hown : s.leader = some g.ownId → s.state = .leader := fun hl => h (decide_eq_true hl)
  have hg := guard_event g s c
  rw [hhonest]
  cases hev : s.event g c with
  | accept term leader server deadline =>
    rw [hev] at hg
    obtain ⟨hl, e, host, port, rfl, -⟩ := hg
    simp only [ElectionEvent.apply, hearsItself, exc_of_event hev (by simp)]
    by_cases hlo : leader = g.ownId
    · have hst : s.state ≠ .leader := fun hst => (hl hst).2 hlo.symm
      simp [hlo, hst]
    · simp [hlo]
  | candidacy => exact iff_of_true (by rintro ⟨⟩) fun hs => hearsItself_of_event hs (by simp [hev])
  | giveUp => exact iff_of_true (by rintro ⟨⟩) fun hs => hearsItself_of_event hs (by simp [hev])
  | answer term node => exact iff_of_true (by rintro ⟨⟩) fun hs => hearsItself_of_event hs (by simp [hev])
  | defer term node => exact iff_of_true (by rintro ⟨⟩) fun hs => hearsItself_of_event hs (by simp [hev])
  | win port => exact iff_of_true (fun _ => rfl) fun hs => hearsItself_of_event hs (by simp [hev])
  | winFails port => exact iff_of_true (fun _ => rfl) fun hs => hearsItself_of_event hs (by simp [hev])
  | candidacyFails =>
    rw [hev] at hg
    refine iff_of_true (fun hl => ?_) fun hs => hearsItself_of_event hs (by simp [hev])
    cases hg.1.symm.trans (hown hl)
  | _ => exact iff_of_true hown fun hs => hearsItself_of_event hs (by simp [hev])

/-! ### Requests for the leader -/

/-- The call is a request of the component that is for the leader. -/
def isForLeader {g : Member Id} : Call Id g → Bool
  | .comp _ _ (.mtl _) | .comp _ _ (.rfv _) | .comp _ _ (.rtc _) => true
  | _ => false

/-- The request is not handled by the member itself: no poll changes, and all that is sent
is the request, to the leader, and a reply to the component. -/
def PassedOn (g : Member Id) (s : GroupThread Id) (c : Call Id g) : Prop :=
  (call g s c).polls = s.polls ∧ ∀ m ∈ s.sends g c, m = .comp .nld ∨ m = .comp .ack ∨ ∃ q, m = .qry q

omit [DecidableEq Id] in
theorem toLeader_eq (err : Option ℕ) (m : LeaderMsg) (s : GroupThread Id) :
    (s.toLeader err m).polls = s.polls ∧
      ∃ l, (s.toLeader err m).sent = s.sent ++ l ∧ ∀ m ∈ l, m = .comp .ack ∨ ∃ q, m = .qry q := by
  unfold toLeader
  split
  · cases err with
    | none =>
      refine ⟨rfl, [.qry m, .comp .ack], by simp [sendQry, sendComp], ?_⟩
      simp
    | some errno => exact ⟨rfl, [], by simp [raise], by simp⟩
  · exact ⟨rfl, [.comp .ack], rfl, by simp⟩

/-- A member that does not take itself for the leader passes requests on. -/
theorem passedOn_of_not_leader {g : Member Id} {s : GroupThread Id} {c : Call Id g} (h : s.isLeader g = false)
    (hc : isForLeader c) : PassedOn g s c := by
  have hpass : ∀ err m, call g s c = (if s.leader = none then s.sendComp .nld else s.toLeader err m) →
      PassedOn g s c := by
    intro err m hcall
    obtain ⟨hpolls, l, hsent, hl⟩ := toLeader_eq err m s
    unfold PassedOn sends
    rw [hcall]
    split_ifs
    · exact ⟨rfl, by simp [sendComp]⟩
    · rw [hsent, List.drop_left]
      exact ⟨hpolls, fun m hm => Or.inr (hl m hm)⟩
  by_cases hs : s.exc = none
  swap
  · rw [PassedOn, sends, call_of_exc hs]
    simp
  · cases c with
    | comp e err req =>
      cases req with
      | mtl payload => exact hpass err (.mtl payload) (by simp [call, hs, handleCompMessage, h])
      | rfv m => exact hpass err (.rfv m) (by simp [call, hs, handleCompMessage, h])
      | rtc m => exact hpass err (.rtc m) (by simp [call, hs, handleCompMessage, h])
      | _ => cases hc
    | _ => cases hc

/-- **No false leadership**, in runs in which a member that does not lead never hears its own
`AUTHORITY`, and in no others: whenever `isLeader()` is true the state is `LEADER`, and
without that state requests for the leader are passed on. -/
theorem no_false_leader_iff (g : Member Id) (e : Env g.toGroupParams) (cs : List (Call Id g)) :
    (Always (call g) (Honest g) (start g e) cs ∧
        AllSteps (call g) (fun s c => s.state ≠ .leader → isForLeader c → PassedOn g s c) (start g e) cs) ↔
      AllSteps (call g) (fun s c => s.exc = none → hearsItself s.state c = false) (start g e) cs := by
  have hiff : Always (call g) (Honest g) (start g e) cs ↔
      AllSteps (call g) (fun s c => s.exc = none → hearsItself s.state c = false) (start g e) cs :=
    always_iff_allSteps (I := fun _ => True) (P := Honest g) (fun _ _ _ _ => trivial)
      (fun _ _ _ h => honest_call_iff h) trivial (honest_start g e) cs
  rw [← hiff]
  refine and_iff_left_of_imp fun h pre c hpre hst hc => ?_
  have hhonest := h pre ((List.prefix_append pre [c]).trans hpre)
  exact passedOn_of_not_leader (Bool.eq_false_iff.mpr fun hl => hst (hhonest hl)) hc

/-- Member 0 of two is elected in term 1, steps down for member 1, which was elected in the
same term, and then hears its own `AUTHORITY`, sent when it was elected. -/
def lateEcho : List (Call ℕ (Member.standard 0)) :=
  [.net (.least _ 101) (.heartbeat 0), .net (.least _ 101) (.heartbeat 1), .timeout (.least _ 103),
    .net (.least _ 103) (.rspvote 1 0 true 1), .net (.least _ 103) (.authority 1 1 0x7f000001 50000),
    .net (.least _ 104) (.authority 1 0 0x7f000001 49152)]

/-- After this it is a follower for which `isLeader()` is true, and it takes a message for
the leader for its own. -/
theorem false_leader :
    ¬ Always (call (Member.standard 0)) (Honest (Member.standard 0)) (start (Member.standard 0) (.least _ 100))
        (lateEcho ++ [.comp (.least _ 104) none (.mtl [])]) ∧
      ¬ AllSteps (call (Member.standard 0)) (fun s c => s.state ≠ .leader → isForLeader c → PassedOn _ s c)
        (start (Member.standard 0) (.least _ 100)) (lateEcho ++ [.comp (.least _ 104) none (.mtl [])]) := by
  constructor
  · intro h
    have hlast := h.last
    revert hlast
    unfold Honest
    decide +kernel
  · intro h
    have hsends := (h lateEcho (.comp (.least _ 104) none (.mtl [])) (List.prefix_refl _) (by decide +kernel) rfl).2
    have hmtl := hsends (.comp (.mtl [] [])) (by decide +kernel)
    simp at hmtl

end GroupThread

end Riaps.Coordination
