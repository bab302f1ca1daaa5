import Mathlib.Data.Finset.Card
import Riaps.Coordination.Votes

/-!
# Winning an election

A candidate votes for itself and counts the votes for it that come in. With the
vote that makes them as many as its threshold it becomes the leader. The vote is
counted whatever its term and whoever sent it, and the threshold, which follows
the membership list, is looked at only then.

Beside the count there are the members that have really voted for the candidate
in its term (`Tally`). While each vote that comes in is a new one of these, and
the list does not shrink to what the votes suffice for (`Fair`), the two agree:
a candidate becomes the leader exactly when those members and itself are as many
as the threshold (`elects_run`).
-/

namespace Riaps.Coordination

open Riaps.Foundation

universe u

variable {Id : Type u} [DecidableEq Id]

namespace GroupThread

/-! ### The membership list after a call -/

/-- How many members are on the list after a call. -/
def numPeersAfter (g : Member Id) (s : GroupThread Id) : Call Id g → ℕ
  | .wake e | .timeout e => (s.updatePeers g.toGroupParams e.now).numPeers
  | .net _ (.mlt leaver) => (s.peers.del leaver).len
  | .net e (.heartbeat peer) => (s.peers.set peer e.now).len
  | _ => s.numPeers

theorem peers_foldl_dropPeer (leavers : List Id) (s : GroupThread Id) :
    (leavers.foldl dropPeer s).peers = leavers.foldl Dict.del s.peers := by
  induction leavers generalizing s with
  | nil => rfl
  | cons l leavers ih => exact ih _

/-- The list depends on nothing but the list. -/
theorem numPeers_updatePeers_congr (g : GroupParams) (now : ℚ) {s t : GroupThread Id} (hp : s.peers = t.peers)
    (hn : s.numPeers = t.numPeers) : (s.updatePeers g now).numPeers = (t.updatePeers g now).numPeers := by
  unfold updatePeers
  simp only [hp]
  split_ifs
  · simp only [countPeers, peers_foldl_dropPeer, hp]
  · exact hn

theorem numPeers_handleTimeout (g : Member Id) (e : Env g.toGroupParams) (s : GroupThread Id) :
    (s.handleTimeout g e).numPeers = (s.updatePeers g.toGroupParams e.now).numPeers := by
  rw [handleTimeout_eq, ← numPeers_sweep]
  generalize s.sweep g.toGroupParams e.now = t
  cases s.state with
  | follower =>
    simp only [followerTimeout, startElection, leaderExited_eq]
    split_ifs <;> rfl
  | candidate =>
    simp only [candidateTimeout, leaderExited_eq]
    rfl
  | leader =>
    simp only [leaderTimeout]
    split
    · rfl
    · cases t.ldrPort with
      | none => rfl
      | some port =>
        simp only
        split <;> rfl

omit [DecidableEq Id] in
theorem numPeers_forward (g : GroupParams) (m : CompMsg Id) (s : GroupThread Id) :
    (s.forward g m).numPeers = s.numPeers := by
  unfold forward
  split_ifs <;> rfl

omit [DecidableEq Id] in
theorem numPeers_winElection (g : Member Id) (e : Env g.toGroupParams) (s : GroupThread Id) :
    (s.winElection g e).numPeers = s.numPeers := by
  unfold winElection
  cases hport : s.ansPort.portNum with
  | some port =>
    simp only [sendComp, hport]
    rfl
  | none =>
    simp only [sendComp, hport]
    by_cases h32 : 2 ^ 32 ≤ s.term
    · simp only [h32, if_true]
      rfl
    · simp only [h32, if_false]
      rfl

theorem numPeers_handleNetMessage (g : Member Id) (e : Env g.toGroupParams) (m : GroupMsg Id) (s : GroupThread Id) :
    (s.handleNetMessage g e m).numPeers = s.numPeersAfter g (.net e m) := by
  unfold handleNetMessage
  cases m with
  | msg payload =>
    simp only
    split_ifs <;> exact numPeers_forward _ _ s
  | mlt leaver =>
    have hdrop : (if leaver ∈ s.peers then s.dropPeer leaver else s).countPeers.numPeers =
        (s.peers.del leaver).len := by
      split_ifs with hmem
      · rfl
      · rw [Dict.del_of_notMem hmem]
        rfl
    simp only
    split_ifs at hdrop ⊢ <;> exact hdrop
  | heartbeat peer =>
    simp only
    split_ifs <;> rfl
  | rcm m =>
    simp only
    split_ifs <;> exact numPeers_forward _ _ s
  | ann m =>
    simp only
    split_ifs <;> exact numPeers_forward _ _ s
  | reqvote term node =>
    cases s.state with
    | follower =>
      simp only [followerReqvote, leaderExited_eq]
      split_ifs <;> rfl
    | candidate =>
      simp only [candidateReqvote, leaderExited_eq]
      split_ifs <;> rfl
    | leader => rfl
  | rspvote term cand vote node =>
    cases s.state with
    | follower => rfl
    | candidate =>
      simp only [candidateRspvote]
      split
      · split
        · exact numPeers_winElection g e _
        · rfl
      · rfl
    | leader => rfl
  | authority term leader host port =>
    cases s.state with
    | follower =>
      simp only [followerAuthority, setLeader_eq]
      split_ifs <;> rfl
    | candidate =>
      simp only [candidateAuthority, acceptLeader, setLeader_eq]
      rfl
    | leader =>
      simp only [leaderAuthority, acceptLeader, setLeader_eq]
      split_ifs <;> rfl

/-- **The membership list after a call.** -/
theorem numPeers_call {g : Member Id} {s : GroupThread Id} (hs : s.exc = none) (c : Call Id g) :
    (call g s c).numPeers = s.numPeersAfter g c := by
  unfold call
  rw [if_neg (not_not.mpr hs)]
  cases c with
  | wake e =>
    have hbeat := aside_heartbeat g e.now s
    exact numPeers_updatePeers_congr _ _ hbeat.peers hbeat.numPeers
  | timeout e => exact numPeers_handleTimeout g e s
  | comp e err req => exact (aside_handleCompMessage g e err req s).numPeers
  | net e m => exact numPeers_handleNetMessage g e m s
  | forLeader e sender identity m => exact (aside_handleMessageForLeader g.toGroupParams e.time identity m s).numPeers
  | forMember e payload => exact numPeers_forward _ _ s

theorem threshold_call {g : Member Id} {s : GroupThread Id} (hs : s.exc = none) (c : Call Id g) :
    (call g s c).threshold = s.numPeersAfter g c / 2 + 1 := by rw [threshold, numPeers_call hs]

/-- A candidate is elected by a vote for it, the one that makes its votes enough. -/
theorem elected_iff {g : Member Id} {s : GroupThread Id} (hs : s.exc = none) (hst : s.state = .candidate)
    (c : Call Id g) :
    (call g s c).state = .leader ↔
      (∃ e term node, c = .net e (.rspvote term g.ownId true node)) ∧ s.threshold ≤ s.votes + 1 := by
  constructor
  · intro h
    have hne : s.state ≠ .leader := by simp [hst]
    obtain ⟨-, -, -, hvotes, hc⟩ := leader_of_call hne h
    exact ⟨hc, hvotes⟩
  · rintro ⟨⟨e, term, node, rfl⟩, hvotes⟩
    rw [state_call]
    simp only [event, hs, hst, ne_eq, not_true_eq_false, if_false, and_self, if_true, hvotes]
    cases s.ansPort.portNum with
    | some port => rfl
    | none =>
      simp only
      split_ifs <;> rfl

end GroupThread

/-! ### The members that voted -/

/-- A thread, and the members that have voted for it in its candidacy. -/
structure Tally (Id : Type u) where
  thread : GroupThread Id
  voters : Finset Id

/-- The member whose yes, for the candidate and in its term, a call brings. -/
def GroupThread.voter (g : Member Id) (s : GroupThread Id) : Call Id g → Option Id
  | .net _ (.rspvote term cand vote node) =>
    if vote ∧ cand = g.ownId ∧ term = s.term ∧ node ≠ g.ownId then some node else none
  | _ => none

namespace Tally

open GroupThread

/-- A thread that has just been set up. -/
def start (g : Member Id) (e : Env g.toGroupParams) : Tally Id := ⟨.start g e, ∅⟩

/-- One call. The voters are those of the candidacy that is going on. -/
def call (g : Member Id) (x : Tally Id) (c : Call Id g) : Tally Id where
  thread := x.thread.call g c
  voters :=
    if x.thread.state = .candidate then
      match x.thread.voter g c with
      | some v => insert v x.voters
      | none => x.voters
    else ∅

/-- The call makes a candidate the leader exactly if the members that have voted for it, and itself, are then as many
as the threshold. -/
def Elects (g : Member Id) (x : Tally Id) (c : Call Id g) : Prop :=
  x.thread.state ≠ .leader ∧ (x.call g c).thread.state = .leader ↔
    x.thread.exc = none ∧ x.thread.state = .candidate ∧
      (x.call g c).thread.threshold ≤ 1 + (x.call g c).voters.card

/-- What comes to a candidate: a vote for it is of its term, and by another member that has not voted for it yet; and
the members left on the list are too many for the votes that it has. -/
def Fair (g : Member Id) (x : Tally Id) (c : Call Id g) : Prop :=
  x.thread.exc = none → x.thread.state = .candidate →
    (∀ e term cand node, c = .net e (.rspvote term cand true node) → cand = g.ownId →
      term = x.thread.term ∧ node ≠ g.ownId ∧ node ∉ x.voters) ∧
    ((∀ e term node, c ≠ .net e (.rspvote term g.ownId true node)) →
      1 + x.voters.card < x.thread.numPeersAfter g c / 2 + 1)

/-- The count of a candidate is right, and is not enough. -/
def Counts (x : Tally Id) : Prop :=
  x.thread.exc = none → x.thread.state = .candidate →
    x.thread.votes = 1 + x.voters.card ∧ x.thread.votes < x.thread.threshold

variable {g : Member Id} {x : Tally Id} {c : Call Id g}

omit [DecidableEq Id] in
theorem counts_start (g : Member Id) (e : Env g.toGroupParams) : Counts (start g e) := by
  intro _ hst
  cases (state_start g e).symm.trans hst

/-- A call that brings no vote for a candidate leaves the voters. -/
theorem voters_call (hst : x.thread.state = .candidate)
    (hc : ∀ e term node, c ≠ .net e (.rspvote term g.ownId true node)) : (x.call g c).voters = x.voters := by
  have hnone : x.thread.voter g c = none := by
    unfold voter
    split
    · next e term cand vote node =>
      refine if_neg fun h => hc e term node ?_
      rw [h.1, h.2.1]
    · rfl
  simp only [call, if_pos hst, hnone]

/-- A vote for a candidate, of its term and from a member that has not voted yet, is one voter more. -/
theorem card_voters_call (hst : x.thread.state = .candidate) {e : Env g.toGroupParams} {node : Id}
    (hne : node ≠ g.ownId) (hnew : node ∉ x.voters) :
    (x.call g (.net e (.rspvote x.thread.term g.ownId true node))).voters.card = x.voters.card + 1 := by
  have hsome : x.thread.voter g (.net e (.rspvote x.thread.term g.ownId true node)) = some node := by
    simp [voter, hne]
  simp only [call, if_pos hst, hsome]
  exact Finset.card_insert_of_notMem hnew

/-- Who becomes a candidate has its own vote, and needs more. -/
theorem counts_of_candidacy (hst : x.thread.state ≠ .candidate) : Counts (x.call g c) := by
  intro hexc hcand
  have hs := exc_of_call hexc
  have hguard := guard_event g x.thread c
  have hstate : ((x.thread.event g c).apply g x.thread.seat).state = .candidate :=
    (state_call g x.thread c).symm.trans hcand
  have hvotes : (x.call g c).thread.votes = ((x.thread.event g c).apply g x.thread.seat).votes :=
    congrArg Seat.votes (seat_call g x.thread c)
  have hvoters : (x.call g c).voters = ∅ := if_neg hst
  cases hev : x.thread.event g c with
  | candidacy =>
    rw [hev] at hguard hvotes
    obtain ⟨-, -, e, rfl, -, hpeers⟩ := hguard
    refine ⟨by rw [hvotes, hvoters]; rfl, ?_⟩
    rw [hvotes, call, threshold_call hs]
    show 1 < (x.thread.updatePeers g.toGroupParams e.now).numPeers / 2 + 1
    have := g.groupSize_pos
    omega
  | candidacyFails => exact absurd (exc_of_candidacyFails hev ▸ hexc) (by simp)
  | _ =>
    rw [hev] at hstate hguard
    simp_all [ElectionEvent.apply, seat, Guard]

/-- What a vote does: it is counted once, and elects the candidate if it is the one that is missing. -/
theorem step_vote (h : Counts x) (hs : x.thread.exc = none) (hst : x.thread.state = .candidate)
    {e : Env g.toGroupParams} {node : Id} (hne : node ≠ g.ownId) (hnew : node ∉ x.voters) :
    Counts (x.call g (.net e (.rspvote x.thread.term g.ownId true node))) ∧
      Elects g x (.net e (.rspvote x.thread.term g.ownId true node)) := by
  set c : Call Id g := .net e (.rspvote x.thread.term g.ownId true node) with hc
  obtain ⟨hcount, -⟩ := h hs hst
  have hcard : (x.call g c).voters.card = x.voters.card + 1 := card_voters_call hst hne hnew
  have hthreshold : (x.call g c).thread.threshold = x.thread.threshold := threshold_call hs c
  have helected : (x.call g c).thread.state = .leader ↔ x.thread.threshold ≤ x.thread.votes + 1 :=
    (elected_iff hs hst c).trans (and_iff_right ⟨e, x.thread.term, node, rfl⟩)
  refine ⟨fun _ hst' => ?_, ?_⟩
  · have hnot : ¬ x.thread.threshold ≤ x.thread.votes + 1 := fun hle => by
      cases hst'.symm.trans (helected.mpr hle)
    have hev : x.thread.event g c = .count := by
      simp only [hc, event, hs, hst, ne_eq, not_true_eq_false, if_false, and_self, if_true]
      exact if_neg hnot
    have hvotes : (x.call g c).thread.votes = x.thread.votes + 1 := by
      rw [show (x.call g c).thread.votes = _ from congrArg Seat.votes (seat_call g x.thread c), hev]
      rfl
    omega
  · unfold Elects
    rw [helected, hthreshold, hcard]
    simp only [hst, hs, ne_eq, reduceCtorEq, not_false_eq_true, true_and]
    omega

/-- What any other call does to a candidate: it elects nobody. -/
theorem step_other (h : Counts x) (hs : x.thread.exc = none) (hst : x.thread.state = .candidate)
    (hc : ∀ e term node, c ≠ .net e (.rspvote term g.ownId true node))
    (hleft : 1 + x.voters.card < x.thread.numPeersAfter g c / 2 + 1) : Counts (x.call g c) ∧ Elects g x c := by
  have hvoters : (x.call g c).voters = x.voters := voters_call hst hc
  have hthreshold : (x.call g c).thread.threshold = x.thread.numPeersAfter g c / 2 + 1 := threshold_call hs c
  refine ⟨fun hexc hst' => ?_, ?_⟩
  · have hguard := guard_event g x.thread c
    have hstate : ((x.thread.event g c).apply g x.thread.seat).state = .candidate :=
      (state_call g x.thread c).symm.trans hst'
    have hvotes : (x.call g c).thread.votes = ((x.thread.event g c).apply g x.thread.seat).votes :=
      congrArg Seat.votes (seat_call g x.thread c)
    have hsame : (x.call g c).thread.votes = x.thread.votes := by
      cases hev : x.thread.event g c with
      | count =>
        rw [hev] at hguard
        obtain ⟨-, -, e, term, node, heq⟩ := hguard
        exact absurd heq (hc e term node)
      | _ =>
        rw [hev] at hstate hguard hvotes
        simp_all [ElectionEvent.apply, seat, Guard]
    obtain ⟨hcount, -⟩ := h hs hst
    rw [hsame, hvoters, hthreshold, hcount]
    exact ⟨rfl, hleft⟩
  · have hno : (x.call g c).thread.state ≠ .leader := fun hlead => by
      obtain ⟨⟨e, term, node, heq⟩, -⟩ := (elected_iff hs hst c).mp hlead
      exact hc e term node heq
    unfold Elects
    rw [hthreshold, hvoters]
    exact ⟨fun hl => absurd hl.2 hno, fun hr => absurd hr.2.2 (Nat.not_le_of_lt hleft)⟩

/-- What a call does to a member that is no candidate. -/
theorem elects_of_ne (hst : ¬ (x.thread.exc = none ∧ x.thread.state = .candidate)) : Elects g x c := by
  refine ⟨fun hl => ?_, fun hr => absurd ⟨hr.1, hr.2.1⟩ hst⟩
  obtain ⟨hs, hcand, -⟩ := leader_of_call hl.1 hl.2
  exact absurd ⟨hs, hcand⟩ hst

/-- **A fair call keeps the count right**, and elects as it should. -/
theorem step_fair (h : Counts x) (hfair : Fair g x c) : Counts (x.call g c) ∧ Elects g x c := by
  by_cases hs : x.thread.exc = none
  · by_cases hst : x.thread.state = .candidate
    · obtain ⟨hvote, hleft⟩ := hfair hs hst
      by_cases hc : ∃ e term node, c = .net e (.rspvote term g.ownId true node)
      · obtain ⟨e, term, node, rfl⟩ := hc
        obtain ⟨rfl, hne, hnew⟩ := hvote e term g.ownId node rfl rfl
        exact step_vote h hs hst hne hnew
      · simp only [not_exists] at hc
        exact step_other h hs hst hc (hleft hc)
    · exact ⟨counts_of_candidacy hst, elects_of_ne fun hand => hst hand.2⟩
  · have hsame : (x.call g c).thread = x.thread := call_of_exc hs c
    exact ⟨fun hexc => absurd (hsame ▸ hexc) hs, elects_of_ne fun hand => hs hand.1⟩

/-- **Who wins an election**, in every run that is fair to the candidates: a candidate becomes the leader exactly
when the members that have voted for it in its term, and itself, are as many as its threshold. -/
theorem elects_run (g : Member Id) (e : Env g.toGroupParams) (cs : List (Call Id g))
    (h : AllSteps (call g) (Fair g) (start g e) cs) : AllSteps (call g) (Elects g) (start g e) cs :=
  h.of_inv (I := Counts) (fun _ _ hx hfair => (step_fair hx hfair).1) (fun _ _ hx hfair => (step_fair hx hfair).2)
    (counts_start g e)

/-! ### Four members -/

/-- Member 0 hears from itself and from members 1, 2 and 3, and becomes a candidate; three votes win. -/
def candidacy : List (Call ℕ (Member.standard 0)) :=
  [.net (.least _ 101) (.heartbeat 0), .net (.least _ 101) (.heartbeat 1), .net (.least _ 101) (.heartbeat 2),
    .net (.least _ 101) (.heartbeat 3), .timeout (.least _ 103)]

/-- The vote of a member for member 0. -/
def vote (term node : ℕ) : Call ℕ (Member.standard 0) := .net (.least _ 103) (.rspvote term 0 true node)

/-- Members 1 and 2 vote for it, and it wins. -/
theorem elects_two_votes :
    AllSteps (call (Member.standard 0)) (Elects (Member.standard 0)) (start (Member.standard 0) (.least _ 100))
      (candidacy ++ [vote 1 1, vote 1 2]) := by
  have hfollower : ∀ {x : Tally ℕ} {c : Call ℕ (Member.standard 0)}, x.thread.state = .follower →
      Fair (Member.standard 0) x c := fun hst _ hcand => by cases hst.symm.trans hcand
  have hvote : ∀ {x : Tally ℕ} {node : ℕ}, x.thread.term = 1 → node ≠ 0 → node ∉ x.voters →
      Fair (Member.standard 0) x (vote 1 node) := by
    refine fun hterm hne hnew _ _ => ⟨fun e term cand node' hc _ => ?_, fun hc => absurd rfl (hc (.least _ 103) 1 _)⟩
    obtain ⟨-, hm⟩ := Call.net.inj hc
    obtain ⟨rfl, -, -, rfl⟩ := GroupMsg.rspvote.inj hm
    exact ⟨hterm.symm, hne, hnew⟩
  refine elects_run (Member.standard 0) (.least _ 100) _ (allSteps_append.mpr ⟨?_, ?_⟩)
  · iterate 5 refine allSteps_cons.mpr ⟨hfollower (by decide +kernel), ?_⟩
    exact allSteps_nil
  · refine allSteps_cons.mpr ⟨hvote (by decide +kernel) (by decide) (by decide +kernel), ?_⟩
    exact allSteps_cons.mpr ⟨hvote (by decide +kernel) (by decide) (by decide +kernel), allSteps_nil⟩

/-- One member votes twice, or two members vote in a term that is over, and the candidate wins all the same. -/
theorem elected_by_one_voter :
    ¬ AllSteps (call (Member.standard 0)) (Elects (Member.standard 0)) (start (Member.standard 0) (.least _ 100))
        (candidacy ++ [vote 1 1, vote 1 1]) ∧
      ¬ AllSteps (call (Member.standard 0)) (Elects (Member.standard 0)) (start (Member.standard 0) (.least _ 100))
        (candidacy ++ [vote 0 1, vote 0 2]) := by
  constructor
  · intro h
    have hstep := h (candidacy ++ [vote 1 1]) (vote 1 1) (List.prefix_refl _)
    unfold Elects at hstep
    revert hstep
    decide +kernel
  · intro h
    have hstep := h (candidacy ++ [vote 0 1]) (vote 0 2) (List.prefix_refl _)
    unfold Elects at hstep
    revert hstep
    decide +kernel

end Tally

end Riaps.Coordination
