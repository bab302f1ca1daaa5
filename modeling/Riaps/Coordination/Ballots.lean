import Mathlib.Data.Finset.Card
import Mathlib.Data.List.Induction
import Riaps.Coordination.Polling

/-!
# Poll accounting

Any number of polls are open at once, and each is settled either by a vote or by
the check of all polls. Still each is a matter of its own: what becomes of a poll
depends on the votes for it and the times at which it is checked, and on nothing
that happens to other polls (`Board.get?_sweep`, `Board.get?_vote`).

So the books can be kept poll by poll. A `Ballot` is a poll as it was started and
the votes that came since; a poll that is open is always its ballot, counted, and
is announced once, with the outcome that the votes on the ballot give
(`poll_accounting`).

The books have votes in them, not members. A yes of a member that has said yes
before is counted again, and without that no poll is won without a majority of
members (`yes_has_voters`).
-/

namespace Riaps.Coordination

open Riaps.Foundation

universe u

variable {Id : Type u}

/-! ### One poll of many -/

/-- The outcomes announced for poll `k`. -/
def outcomes (k : String) (l : List (Sent Id)) : List Vote :=
  l.filterMap fun
    | .pub _ (.ann (.ann a)) => if a.rfvId = k then some a.vote else none
    | _ => none

@[simp] theorem outcomes_nil (k : String) : outcomes k ([] : List (Sent Id)) = [] := rfl

@[simp] theorem outcomes_append (k : String) (l m : List (Sent Id)) :
    outcomes k (l ++ m) = outcomes k l ++ outcomes k m := List.filterMap_append

@[simp] theorem outcomes_announcement (k : String) (st : MemberState) (rfvId : String) (vote : Vote) :
    outcomes k [(GroupThread.announcement st rfvId vote : Sent Id)] = if rfvId = k then [vote] else [] := by
  by_cases h : rfvId = k <;> simp [outcomes, GroupThread.announcement, h]

/-- All announcements are publications about polls. -/
theorem outcomes_pollNotes (k : String) (l : List (Sent Id)) : outcomes k (pollNotes l) = outcomes k l := by
  induction l with
  | nil => rfl
  | cons m l ih =>
    cases hm : m.isPoll with
    | true =>
      rw [pollNotes, List.filter_cons_of_pos hm, ← List.singleton_append, ← List.singleton_append (l := l),
        outcomes_append, outcomes_append, ← ih]
      rfl
    | false =>
      have hnone : outcomes k [m] = [] := by
        unfold outcomes
        rw [List.filterMap_cons_none]
        · rfl
        · split
          · cases hm
          · rfl
      rw [pollNotes, List.filter_cons_of_neg (by simp [hm]), ← List.singleton_append (l := l), outcomes_append, hnone]
      exact ih

/-- Each poll is kept under its id. -/
def Filed (polls : Dict String Poll) : Prop := ∀ k p, polls.get? k = some p → p.rfvId = k

namespace Board

theorem get?_sweep (st : MemberState) (now : ℚ) (b : Board Id) (k : String) :
    (b.sweep st now).polls.get? k = (b.polls.get? k).filter fun p => (p.settle now).isNone := by
  have hmem : k ∈ GroupThread.settledKeys now b.polls.items ↔
      ∃ p, b.polls.get? k = some p ∧ (p.settle now).isSome := by
    simp only [GroupThread.settledKeys, List.mem_map, List.mem_filter, Dict.get?_eq_some_iff]
    constructor
    · rintro ⟨⟨k', p⟩, ⟨hi, hp⟩, rfl⟩
      exact ⟨p, hi, hp⟩
    · rintro ⟨p, hi, hp⟩
      exact ⟨(k, p), ⟨hi, hp⟩, rfl⟩
  simp only [Board.sweep, Dict.get?_delAll, hmem]
  cases hp : b.polls.get? k with
  | none => simp
  | some p => cases hs : p.settle now <;> simp [Option.filter, hs]

theorem outcomes_sweep (st : MemberState) (now : ℚ) {b : Board Id} (hb : Filed b.polls) (k : String) :
    outcomes k (b.sweep st now).notes =
      outcomes k b.notes ++ ((b.polls.get? k).bind fun p => p.settle now).toList := by
  rw [← Dict.filterMap_items, Board.sweep, outcomes_append]
  congr 1
  rw [outcomes, GroupThread.settledNotes, List.filterMap_filterMap]
  refine List.filterMap_congr fun i hi => ?_
  rw [hb i.1 i.2 (Dict.get?_eq_some_iff.mpr hi)]
  cases i.2.settle now <;> simp [GroupThread.announcement]

theorem get?_vote (st : MemberState) (err : Option ℕ) (time : ℚ) (rtc : RepToVote) (b : Board Id) (k : String) :
    (b.vote st err time rtc).polls.get? k =
      if rtc.rfvId = k then
        ((b.polls.get? k).map fun p => p.vote (rtc.vote = .yes)).filter fun p => (p.settle time).isNone || err.isSome
      else b.polls.get? k := by
  unfold Board.vote
  by_cases hk : rtc.rfvId = k
  · subst hk
    rw [if_pos rfl]
    cases hp : b.polls.get? rtc.rfvId with
    | none => simp [hp]
    | some p =>
      simp only [Option.map_some]
      generalize p.vote _ = counted
      cases hs : counted.settle time <;> cases err <;> simp [Option.filter, hs, Dict.get?_del]
  · rw [if_neg hk]
    cases hp : b.polls.get? rtc.rfvId with
    | none => rfl
    | some p =>
      simp only
      split
      · rw [Dict.get?_del, if_neg (Ne.symm hk), Dict.get?_set_of_ne _ _ (Ne.symm hk)]
      · exact Dict.get?_set_of_ne _ _ (Ne.symm hk)

theorem outcomes_vote (st : MemberState) (err : Option ℕ) (time : ℚ) (rtc : RepToVote) {b : Board Id}
    (hb : Filed b.polls) (k : String) :
    outcomes k (b.vote st err time rtc).notes =
      outcomes k b.notes ++
        if rtc.rfvId = k ∧ err = none then
          ((b.polls.get? k).bind fun p => (p.vote (rtc.vote = .yes)).settle time).toList
        else [] := by
  unfold Board.vote
  cases hp : b.polls.get? rtc.rfvId with
  | none =>
    have hnone : rtc.rfvId = k → b.polls.get? k = none := fun hk => hk ▸ hp
    by_cases hk : rtc.rfvId = k
    · simp [hnone hk]
    · simp [hk]
  | some p =>
    have hid := hb _ _ hp
    have hcounted : (p.vote (rtc.vote = .yes)).rfvId = rtc.rfvId := hid
    simp only
    by_cases hk : rtc.rfvId = k
    · subst hk
      rw [hp, Option.bind_some]
      generalize p.vote _ = counted at hcounted ⊢
      cases counted.settle time <;> cases err <;> simp [hcounted]
    · generalize p.vote _ = counted at hcounted ⊢
      cases counted.settle time <;> cases err <;> simp [hcounted, hk]

theorem get?_request (g : GroupParams) (st : MemberState) (numPeers : ℕ) (err : Option ℕ) (time : ℚ)
    (rfv : ReqForVote) (member : Bytes) (b : Board Id) (k : String) :
    (b.request g st numPeers err time rfv member).polls.get? k =
      if rfv.rfvId = k ∧ rfv.late g time = false then some (rfv.poll g time member numPeers)
      else b.polls.get? k := by
  unfold Board.request
  cases rfv.late g time with
  | true => simp
  | false =>
    simp only [Bool.false_eq_true, if_false, and_true, Dict.get?_set]
    simp only [eq_comm]

theorem outcomes_request (g : GroupParams) (st : MemberState) (numPeers : ℕ) (err : Option ℕ) (time : ℚ)
    (rfv : ReqForVote) (member : Bytes) (b : Board Id) (k : String) :
    ∃ l, outcomes k (b.request g st numPeers err time rfv member).notes = outcomes k b.notes ++ l ∧ .yes ∉ l := by
  unfold Board.request
  split
  · refine ⟨_, outcomes_append k _ _, ?_⟩
    cases err with
    | none => by_cases hk : rfv.rfvId = k <;> simp [hk]
    | some errno => simp
  · refine ⟨_, outcomes_append k _ _, ?_⟩
    cases err <;> simp [outcomes]

end Board

/-! ### The books -/

/-- A call on the polls, and a change of the number of peers between calls. -/
inductive PollCall where
  /-- `startPoll`. -/
  | start (time : ℚ) (m : GroupVote) (member : Bytes)
  /-- `updatePoll`, when the socket fails with `err`, if at all. -/
  | update (err : Option ℕ) (time : ℚ) (m : GroupVote)
  /-- `checkAllPolls`. -/
  | check (now : ℚ)
  /-- Peers came or went. -/
  | peers (numPeers : ℕ)

namespace PollCall

/-- The poll that the call asks for. -/
def starts : PollCall → Option String
  | start _ (.rfv rfv) _ => some rfv.rfvId
  | _ => none

/-- The poll that the call votes in. -/
def votes : PollCall → Option String
  | update _ _ (.rtc rtc) => some rtc.rfvId
  | _ => none

/-- When the call checks poll `k`, if it does and nothing fails. -/
def checks (k : String) : PollCall → Option ℚ
  | update none time (.rtc rtc) => if rtc.rfvId = k then some time else none
  | check now => some now
  | _ => none

end PollCall

/-- A poll as it was started, and the votes since. -/
structure Ballot (k : String) where
  poll : Poll
  votes : List Bool
  rfvId_eq : poll.rfvId = k
  threshold_eq : poll.threshold = poll.numPeers / 2 + 1

/-- The poll when the votes are counted. -/
def Ballot.counted {k : String} (b : Ballot k) : Poll :=
  { b.poll with voteCnt := b.votes.length, yesCnt := b.votes.count true }

/-- The number of peers after a call. -/
def PollCall.peersAfter (numPeers : ℕ) : PollCall → ℕ
  | peers numPeers => numPeers
  | _ => numPeers

/-- The ballot of poll `k` after a call: a new one when the poll is started, one more vote when
somebody votes. What the votes come to is not looked at. -/
def PollCall.enter (g : GroupParams) (k : String) (numPeers : ℕ) (ballot : Option (Ballot k)) :
    PollCall → Option (Ballot k)
  | start time (.rfv rfv) member =>
    if h : rfv.rfvId = k ∧ rfv.late g time = false then some ⟨rfv.poll g time member numPeers, [], h.1, rfl⟩ else ballot
  | update _ _ (.rtc rtc) =>
    if rtc.rfvId = k then ballot.map fun b => { b with votes := b.votes ++ [decide (rtc.vote = .yes)] } else ballot
  | _ => ballot

/-- The books of poll `k`: the number of peers, and the ballot once the poll is started. -/
def book (g : GroupParams) (k : String) (r : ℕ × Option (Ballot k)) (c : PollCall) : ℕ × Option (Ballot k) :=
  (c.peersAfter r.1, c.enter g k r.1 r.2)

theorem Ballot.counted_vote {k : String} (b : Ballot k) (v : Bool) :
    b.counted.vote v = Ballot.counted { b with votes := b.votes ++ [v] } := by
  cases v <;> simp [Ballot.counted, Poll.vote]

/-- The votes carry the poll: half of the peers and one more said yes, or all that voted did. -/
def Ballot.carried {k : String} (b : Ballot k) : Bool :=
  match b.poll.kind with
  | .majority => b.poll.numPeers / 2 + 1 ≤ b.votes.count true
  | .consensus => ∀ v ∈ b.votes, v = true

/-- A check settles a ballot with a timeout when the deadline is past, and otherwise when there
are as many votes as there were peers, by whether they carry it. -/
theorem Ballot.settle_counted {k : String} (b : Ballot k) (now : ℚ) :
    b.counted.settle now =
      if b.poll.deadline < now then some .timeout
      else if b.votes.length = b.poll.numPeers then some (if b.carried then .yes else .no)
      else none := by
  have hexpired : b.counted.expired now = decide (b.poll.deadline < now) := rfl
  have hvoted : b.counted.allVoted = decide (b.votes.length = b.poll.numPeers) := rfl
  simp only [Poll.settle, hexpired, hvoted, decide_eq_true_eq]
  by_cases hall : b.votes.length = b.poll.numPeers
  · have hresult : b.counted.result = b.carried := by
      simp only [Poll.result, Ballot.counted, Ballot.carried, b.threshold_eq]
      cases b.poll.kind with
      | majority => rfl
      | consensus => simp only [← hall, List.count_eq_length, eq_comm]
    rw [hresult]
  · simp only [if_neg hall]

theorem Ballot.settle_eq_some {k : String} {b : Ballot k} {now : ℚ} {o : Vote} (h : b.counted.settle now = some o) :
    (o = .timeout ↔ b.poll.deadline < now) ∧
      (o ≠ .timeout → b.votes.length = b.poll.numPeers ∧ (o = .yes ↔ b.carried)) := by
  rw [b.settle_counted] at h
  split_ifs at h with hlate hall hcarried
  · obtain rfl := Option.some.inj h
    exact ⟨iff_of_true rfl hlate, fun hne => absurd rfl hne⟩
  · obtain rfl := Option.some.inj h
    exact ⟨iff_of_false (by simp) hlate, fun _ => ⟨hall, iff_of_true rfl hcarried⟩⟩
  · obtain rfl := Option.some.inj h
    exact ⟨iff_of_false (by simp) hlate, fun _ => ⟨hall, iff_of_false (by simp) hcarried⟩⟩

theorem Ballot.settle_ne_none {k : String} {b : Ballot k} {now : ℚ} :
    b.counted.settle now ≠ none ↔ b.poll.deadline < now ∨ b.votes.length = b.poll.numPeers := by
  rw [b.settle_counted]
  split_ifs with hlate hall hcarried
  · simp [hlate]
  · simp [hall]
  · simp [hall]
  · exact iff_of_false (not_not.mpr rfl) (not_or.mpr ⟨hlate, hall⟩)

namespace PollCall

/-- What a call makes of poll `k`, when nothing is known of the other polls. -/
def next (g : GroupParams) (numPeers : ℕ) (k : String) (poll : Option Poll) : PollCall → Option Poll
  | start time (.rfv rfv) member =>
    if rfv.rfvId = k ∧ rfv.late g time = false then some (rfv.poll g time member numPeers) else poll
  | update err time (.rtc rtc) =>
    if rtc.rfvId = k then
      (poll.map fun p => p.vote (rtc.vote = .yes)).filter fun p => (p.settle time).isNone || err.isSome
    else poll
  | check now => poll.filter fun p => (p.settle now).isNone
  | _ => poll

/-- The outcome that a call announces for poll `k`. -/
def verdict (k : String) (poll : Option Poll) : PollCall → Option Vote
  | update none time (.rtc rtc) =>
    if rtc.rfvId = k then poll.bind fun p => (p.vote (rtc.vote = .yes)).settle time else none
  | check now => poll.bind fun p => p.settle now
  | _ => none

/-- A verdict comes of a check. -/
theorem checks_of_verdict {k : String} {poll : Option Poll} {c : PollCall} {o : Vote} (h : c.verdict k poll = some o) :
    ∃ now, c.checks k = some now := by
  cases c with
  | start time m member => cases h
  | peers numPeers => cases h
  | check now => exact ⟨now, rfl⟩
  | update err time m =>
    cases m with
    | rtc rtc =>
      cases err with
      | some errno => cases h
      | none =>
        by_cases hk : rtc.rfvId = k
        · exact ⟨time, if_pos hk⟩
        · cases (if_neg hk).symm.trans h
    | _ => cases err <;> cases h

end PollCall

namespace GroupThread

/-- One call on the polls. A thread that an exception has ended makes none. -/
def pollCall (g : GroupParams) (s : GroupThread Id) (c : PollCall) : GroupThread Id :=
  if s.exc ≠ none then s
  else
    match c with
    | .start time m member => (s.startPoll g time m member).2
    | .update err time m => s.updatePoll err time m
    | .check now => s.checkAllPolls now
    | .peers numPeers => { s with numPeers := numPeers }

/-- The outcomes that a call announces for poll `k`. -/
def announced (g : GroupParams) (k : String) (s : GroupThread Id) (c : PollCall) : List Vote :=
  outcomes k ((s.pollCall g c).sent.drop s.sent.length)

theorem pollCall_of_exc (g : GroupParams) {s : GroupThread Id} (h : s.exc ≠ none) (c : PollCall) :
    s.pollCall g c = s := if_pos h

/-- **Each poll is a matter of its own.** -/
theorem get?_pollCall (g : GroupParams) (k : String) {s : GroupThread Id} (hs : s.exc = none) (c : PollCall) :
    (s.pollCall g c).polls.get? k = c.next g s.numPeers k (s.polls.get? k) := by
  unfold pollCall
  rw [if_neg (not_not.mpr hs)]
  cases c with
  | peers numPeers => rfl
  | check now =>
    have hboard := congrArg Board.polls (board_checkAllPolls now s)
    exact (congrArg (Dict.get? · k) hboard).trans (Board.get?_sweep s.state now s.board k)
  | start time m member =>
    cases m with
    | rfv rfv =>
      simp only [startPoll_eq, PollCall.next]
      cases rfv.late g time with
      | true => simp
      | false => simp [setPolls, Dict.get?_set, eq_comm]
    | _ => rfl
  | update err time m =>
    cases m with
    | rtc rtc =>
      have hboard := congrArg Board.polls (board_updatePoll err time rtc hs)
      exact (congrArg (Dict.get? · k) hboard).trans (Board.get?_vote s.state err time rtc s.board k)
    | _ => rfl

/-- Polls stay filed. -/
theorem filed_pollCall (g : GroupParams) {s : GroupThread Id} (h : Filed s.polls) (c : PollCall) :
    Filed (s.pollCall g c).polls := by
  by_cases hs : s.exc = none
  swap
  · rwa [pollCall_of_exc g hs]
  intro k p hp
  rw [get?_pollCall g k hs] at hp
  unfold PollCall.next at hp
  split at hp
  · split at hp
    · next hk =>
      cases hp
      exact hk.1
    · exact h k p hp
  · split at hp
    · obtain ⟨q, hq, rfl⟩ := Option.map_eq_some_iff.mp (Option.mem_filter_iff.mp hp).1
      exact h k q hq
    · exact h k p hp
  · exact h k p (Option.mem_filter_iff.mp hp).1
  · exact h k p hp

/-- What a call sends comes after what was sent. -/
theorem sent_pollCall (g : GroupParams) (s : GroupThread Id) (c : PollCall) :
    (s.pollCall g c).sent = s.sent ++ (s.pollCall g c).sent.drop s.sent.length := by
  have hquiet : Quiet s (s.pollCall g c) := by
    unfold pollCall
    split
    · exact .refl s
    · cases c with
      | start time m member => exact (aside_startPoll g time m member s).quiet
      | update err time m => exact (aside_updatePoll err time m s).quiet
      | check now => exact (aside_checkAllPolls now s).quiet
      | peers numPeers => exact .of_eq rfl rfl
  obtain ⟨l, hl, -⟩ := hquiet.sent
  rw [hl, List.drop_left]

theorem announced_eq (g : GroupParams) (k : String) {s : GroupThread Id} (hs : s.exc = none) (h : Filed s.polls)
    (c : PollCall) : announced g k s c = (c.verdict k (s.polls.get? k)).toList := by
  have hsent := congrArg (outcomes k) (sent_pollCall g s c)
  rw [outcomes_append] at hsent
  suffices h : outcomes k (s.pollCall g c).sent = outcomes k s.sent ++ (c.verdict k (s.polls.get? k)).toList from
    List.append_cancel_left (hsent.symm.trans h)
  unfold pollCall
  rw [if_neg (not_not.mpr hs)]
  cases c with
  | peers numPeers => simp [PollCall.verdict]
  | check now =>
    have hboard := congrArg (fun b => outcomes k b.notes) (board_checkAllPolls now s)
    simp only [board, outcomes_pollNotes] at hboard
    exact hboard.trans ((Board.outcomes_sweep s.state now h k).trans (by rw [outcomes_pollNotes]; rfl))
  | start time m member =>
    cases m with
    | rfv rfv =>
      simp only [startPoll_eq, PollCall.verdict]
      split <;> simp [setPolls]
    | _ => simp [startPoll, PollCall.verdict]
  | update err time m =>
    cases m with
    | rtc rtc =>
      have hboard := congrArg (fun b => outcomes k b.notes) (board_updatePoll err time rtc hs)
      simp only [board, outcomes_pollNotes] at hboard
      refine hboard.trans ((Board.outcomes_vote s.state err time rtc h k).trans ?_)
      rw [outcomes_pollNotes]
      congr 1
      cases err with
      | none => by_cases hk : rtc.rfvId = k <;> simp [PollCall.verdict, hk]
      | some errno => simp [PollCall.verdict]
    | _ => simp [updatePoll, PollCall.verdict]

theorem announced_of_exc (g : GroupParams) (k : String) {s : GroupThread Id} (h : s.exc ≠ none) (c : PollCall) :
    announced g k s c = [] := by
  rw [announced, pollCall_of_exc g h, List.drop_length]
  rfl

theorem numPeers_pollCall (g : GroupParams) {s : GroupThread Id} (hs : s.exc = none) (c : PollCall) :
    (s.pollCall g c).numPeers = c.peersAfter s.numPeers := by
  unfold pollCall
  rw [if_neg (not_not.mpr hs)]
  cases c with
  | peers numPeers => rfl
  | check now => simp only [checkAllPolls_eq, PollCall.peersAfter]
  | start time m member =>
    cases m with
    | rfv rfv =>
      simp only [startPoll_eq, PollCall.peersAfter]
      split <;> rfl
    | _ => rfl
  | update err time m =>
    cases m with
    | rtc rtc =>
      simp only [updatePoll, checkPoll_eq, PollCall.peersAfter]
      cases s.polls.get? rtc.rfvId with
      | none => rfl
      | some poll =>
        simp only
        generalize poll.vote _ = counted
        cases counted.settle time <;> cases err <;>
          simp [announceConsensus, sendGroup, publish, raise, setPolls, hs]
    | _ => rfl

/-! ### Poll accounting -/

/-- The books of poll `k` are right: in a running thread the poll, if it is open, is its ballot, counted. -/
structure Booked (k : String) (s : GroupThread Id) (r : ℕ × Option (Ballot k)) : Prop where
  filed : Filed s.polls
  numPeers : s.exc = none → s.numPeers = r.1
  counted : s.exc = none → ∀ p, s.polls.get? k = some p → ∃ b, r.2 = some b ∧ p = b.counted

theorem exc_of_pollCall {g : GroupParams} {s : GroupThread Id} {c : PollCall} (h : (s.pollCall g c).exc = none) :
    s.exc = none := by
  by_contra hs
  rw [pollCall_of_exc g hs] at h
  exact hs h

/-- A call keeps the books right. -/
theorem booked_pollCall {g : GroupParams} {k : String} {s : GroupThread Id} {r : ℕ × Option (Ballot k)} {c : PollCall}
    (h : Booked k s r) : Booked k (s.pollCall g c) (book g k r c) := by
  refine ⟨filed_pollCall g h.filed c, fun hexc => ?_, fun hexc p hp => ?_⟩
  · have hs := exc_of_pollCall hexc
    rw [numPeers_pollCall g hs, h.numPeers hs]
    rfl
  · have hs := exc_of_pollCall hexc
    have hcounted := h.counted hs
    rw [get?_pollCall g k hs, h.numPeers hs] at hp
    unfold book PollCall.enter
    unfold PollCall.next at hp
    cases c with
    | peers numPeers => exact hcounted p hp
    | check now => exact hcounted p (Option.mem_filter_iff.mp hp).1
    | start time m member =>
      cases m with
      | rfv rfv =>
        by_cases hk : rfv.rfvId = k ∧ rfv.late g time = false
        · simp only [if_pos hk] at hp
          simp only [dif_pos hk]
          exact ⟨_, rfl, (Option.some.inj hp).symm⟩
        · simp only [if_neg hk] at hp
          simp only [dif_neg hk]
          exact hcounted p hp
      | _ => exact hcounted p hp
    | update err time m =>
      cases m with
      | rtc rtc =>
        by_cases hk : rtc.rfvId = k
        · simp only [if_pos hk] at hp ⊢
          obtain ⟨q, hq, rfl⟩ := Option.map_eq_some_iff.mp (Option.mem_filter_iff.mp hp).1
          obtain ⟨b, hb, rfl⟩ := hcounted q hq
          exact ⟨_, by rw [hb]; rfl, b.counted_vote _⟩
        · simp only [if_neg hk] at hp ⊢
          exact hcounted p hp
      | _ => exact hcounted p hp

/-- The outcomes announced for poll `k` in a run of calls. -/
def history (g : GroupParams) (k : String) (s₀ : GroupThread Id) (cs : List PollCall) : List Vote :=
  collect (pollCall g) (announced g k) s₀ cs

/-- The ballot of poll `k` after a run of calls. -/
def ballot (g : GroupParams) (k : String) (s₀ : GroupThread Id) (cs : List PollCall) : Option (Ballot k) :=
  (run (book g k) (s₀.numPeers, none) cs).2

/-- The law of poll accounting, of poll `k` and a call `c` after the calls `pre`. -/
structure Accounted (g : GroupParams) (k : String) (s₀ : GroupThread Id) (pre : List PollCall) (c : PollCall) :
    Prop where
  /-- Once announced, the poll is gone. -/
  gone : history g k s₀ pre ≠ [] → k ∉ (run (pollCall g) s₀ pre).polls
  /-- A vote in a poll that is gone, or was never there, changes nothing. -/
  late : k ∉ (run (pollCall g) s₀ pre).polls → c.votes = some k →
    pollCall g (run (pollCall g) s₀ pre) c = run (pollCall g) s₀ pre
  /-- A call on another poll leaves this one alone. -/
  other : c.starts ≠ some k → c.votes ≠ some k → (∀ now, c ≠ .check now) →
    (pollCall g (run (pollCall g) s₀ pre) c).polls.get? k = (run (pollCall g) s₀ pre).polls.get? k ∧
      announced g k (run (pollCall g) s₀ pre) c = []
  /-- A poll that is open is its ballot, counted. -/
  counted : (run (pollCall g) s₀ pre).exc = none → ∀ p, (run (pollCall g) s₀ pre).polls.get? k = some p →
    ∃ b, ballot g k s₀ pre = some b ∧ p = b.counted
  /-- The outcome announced is a timeout if the check that settles the poll finds the deadline
  past, and otherwise what the votes give, which are as many as there were peers. -/
  outcome : ∀ o ∈ announced g k (run (pollCall g) s₀ pre) c, ∃ b now,
    ballot g k s₀ (pre ++ [c]) = some b ∧ c.checks k = some now ∧
      (o = .timeout ↔ b.poll.deadline < now) ∧
      (o ≠ .timeout → b.votes.length = b.poll.numPeers ∧ (o = .yes ↔ b.carried))
  /-- A check of an open poll settles it if the deadline is past or all votes are there; otherwise
  it stays open. -/
  settled : (run (pollCall g) s₀ pre).exc = none → k ∈ (run (pollCall g) s₀ pre).polls →
    ∀ now, c.checks k = some now → ∃ b, ballot g k s₀ (pre ++ [c]) = some b ∧
      (announced g k (run (pollCall g) s₀ pre) c ≠ [] ↔ b.poll.deadline < now ∨ b.votes.length = b.poll.numPeers) ∧
      (announced g k (run (pollCall g) s₀ pre) c = [] ↔ k ∈ (pollCall g (run (pollCall g) s₀ pre) c).polls)

theorem booked_run (g : GroupParams) (k : String) {s₀ : GroupThread Id} (h₀ : s₀.polls = Dict.empty)
    (cs : List PollCall) :
    Booked k (run (pollCall g) s₀ cs) (run (book g k) (s₀.numPeers, none) cs) := by
  refine run_sim (R := Booked k) (fun (s : GroupThread Id) r c h => booked_pollCall (g := g) (s := s) (c := c) h)
    ⟨?_, fun _ => rfl, ?_⟩ cs
  · intro j p hp
    rw [h₀] at hp
    cases hp
  · intro _ p hp
    rw [h₀] at hp
    cases hp

/-- A check of an open poll by its ballot: the vote that the call brings is on it. -/
theorem verdict_eq {g : GroupParams} {k : String} {s : GroupThread Id} {r : ℕ × Option (Ballot k)} {c : PollCall}
    (h : Booked k s r) (hs : s.exc = none) {now : ℚ} (hc : c.checks k = some now) {p : Poll}
    (hp : s.polls.get? k = some p) :
    ∃ b, (book g k r c).2 = some b ∧ c.verdict k (some p) = b.counted.settle now ∧
      c.next g r.1 k (some p) = (some b.counted).filter fun p => (p.settle now).isNone := by
  obtain ⟨b, hb, rfl⟩ := h.counted hs p hp
  cases c with
  | start time m member => cases hc
  | peers numPeers => cases hc
  | check time =>
    cases hc
    exact ⟨b, hb, rfl, rfl⟩
  | update err time m =>
    cases m with
    | rtc rtc =>
      cases err with
      | some errno => cases hc
      | none =>
        by_cases hk : rtc.rfvId = k
        · obtain rfl : time = now := Option.some.inj ((if_pos hk).symm.trans hc)
          refine ⟨{ b with votes := b.votes ++ [decide (rtc.vote = .yes)] }, ?_, ?_, ?_⟩
          · simp only [book, PollCall.enter, if_pos hk, hb, Option.map_some]
          · simp only [PollCall.verdict, if_pos hk, Option.bind_some, b.counted_vote]
          · simp only [PollCall.next, if_pos hk, Option.map_some, b.counted_vote, Option.isSome_none, Bool.or_false]
        · cases (if_neg hk).symm.trans hc
    | _ => cases err <;> cases hc

/-- What is announced is a verdict on an open poll, and with it the poll goes. -/
theorem announced_ne_nil {g : GroupParams} {k : String} {s : GroupThread Id} (h : Filed s.polls) {c : PollCall}
    (hann : announced g k s c ≠ []) :
    (announced g k s c).length = 1 ∧ s.polls.get? k ≠ none ∧ (s.pollCall g c).polls.get? k = none := by
  have hs : s.exc = none := by
    by_contra hs
    exact hann (announced_of_exc g k hs c)
  rw [announced_eq g k hs h] at hann ⊢
  rw [get?_pollCall g k hs]
  generalize s.polls.get? k = poll at hann ⊢
  cases hv : c.verdict k poll with
  | none =>
    rw [hv] at hann
    exact absurd rfl hann
  | some o =>
    refine ⟨rfl, ?_⟩
    cases c with
    | start time m member => cases hv
    | peers numPeers => cases hv
    | check now =>
      obtain ⟨p, rfl, hp⟩ := Option.bind_eq_some_iff.mp hv
      simp [PollCall.next, Option.filter, hp]
    | update err time m =>
      cases m with
      | rtc rtc =>
        cases err with
        | some errno => cases hv
        | none =>
          by_cases hk : rtc.rfvId = k
          · obtain ⟨p, rfl, hp⟩ := Option.bind_eq_some_iff.mp ((if_pos hk).symm.trans hv)
            simp [PollCall.next, hk, Option.filter, hp]
          · cases (if_neg hk).symm.trans hv
      | _ => cases err <;> cases hv

/-- A poll that is open after a call was open before, or the call started it. -/
theorem get?_ne_none {g : GroupParams} {k : String} {s : GroupThread Id} {c : PollCall}
    (h : (s.pollCall g c).polls.get? k ≠ none) : s.polls.get? k ≠ none ∨ c.starts = some k := by
  by_cases hs : s.exc = none
  swap
  · rw [pollCall_of_exc g hs] at h
    exact .inl h
  rw [get?_pollCall g k hs] at h
  refine or_iff_not_imp_left.mpr fun hnone => ?_
  rw [not_not] at hnone
  rw [hnone] at h
  unfold PollCall.next at h
  split at h
  · next time rfv member =>
    by_cases hk : rfv.rfvId = k ∧ rfv.late g time = false
    · exact congrArg some hk.1
    · exact absurd (if_neg hk) h
  · split at h <;> exact absurd rfl h
  · exact absurd rfl h
  · exact absurd rfl h

/-- **A poll is announced at most once, and is then gone**, when no two polls are asked for under
one id. The induction is on the last call: a poll that was announced is not started again. -/
theorem history_length_le_one (g : GroupParams) (k : String) {s₀ : GroupThread Id} (h₀ : s₀.polls = Dict.empty)
    {cs : List PollCall} (hids : (cs.filterMap PollCall.starts).Nodup) :
    (history g k s₀ cs).length ≤ 1 ∧
      (history g k s₀ cs ≠ [] → (run (pollCall g) s₀ cs).polls.get? k = none) ∧
      (history g k s₀ cs ≠ [] ∨ (run (pollCall g) s₀ cs).polls.get? k ≠ none → k ∈ cs.filterMap PollCall.starts) := by
  induction cs using List.reverseRecOn with
  | nil => simp [history, h₀]
  | append_singleton cs c ih =>
    rw [List.filterMap_append, List.nodup_append'] at hids
    obtain ⟨hle, hgone, hstarted⟩ := ih hids.1
    have hfiled := (booked_run g k h₀ cs).filed
    have hhist : history g k s₀ (cs ++ [c]) = history g k s₀ cs ++ announced g k (run (pollCall g) s₀ cs) c := by
      simp [history]
    have hmem : k ∈ cs.filterMap PollCall.starts → k ∈ (cs ++ [c]).filterMap PollCall.starts := fun h => by
      rw [List.filterMap_append]
      exact List.mem_append_left _ h
    rw [hhist, run_append, run_cons, run_nil]
    generalize run (pollCall g) s₀ cs = s at hgone hstarted hfiled ⊢
    by_cases hann : announced g k s c = []
    · rw [hann, List.append_nil]
      refine ⟨hle, fun hne => ?_, fun hor => ?_⟩
      · by_contra hopen
        rcases get?_ne_none hopen with hopen | hstart
        · exact hopen (hgone hne)
        · exact hids.2.2 (hstarted (.inl hne)) (by simp [hstart])
      · rcases hor with hne | hopen
        · exact hmem (hstarted (.inl hne))
        · rcases get?_ne_none hopen with hopen | hstart
          · exact hmem (hstarted (.inr hopen))
          · simp [List.filterMap_append, hstart]
    · obtain ⟨hone, hopen, hnone⟩ := announced_ne_nil hfiled hann
      have hfirst : history g k s₀ cs = [] := by
        by_contra hne
        exact hopen (hgone hne)
      rw [hfirst, List.nil_append]
      exact ⟨hone.le, fun _ => hnone, fun _ => hmem (hstarted (.inr hopen))⟩

/-- A vote in a poll that is not open does nothing. -/
theorem pollCall_of_late (g : GroupParams) {k : String} {s : GroupThread Id} {c : PollCall} (hk : k ∉ s.polls)
    (hc : c.votes = some k) : s.pollCall g c = s := by
  by_cases hs : s.exc = none
  swap
  · exact pollCall_of_exc g hs c
  cases c with
  | update err time m =>
    cases m with
    | rtc rtc =>
      obtain rfl : rtc.rfvId = k := Option.some.inj hc
      exact (if_neg (not_not.mpr hs)).trans (updatePoll_of_not_mem err time hk)
    | _ => cases hc
  | _ => cases hc

/-- A call on another poll leaves this one alone. -/
theorem pollCall_other (g : GroupParams) {k : String} {s : GroupThread Id} (h : Filed s.polls) {c : PollCall}
    (hstart : c.starts ≠ some k) (hvote : c.votes ≠ some k) (hcheck : ∀ now, c ≠ .check now) :
    (s.pollCall g c).polls.get? k = s.polls.get? k ∧ announced g k s c = [] := by
  by_cases hs : s.exc = none
  swap
  · rw [pollCall_of_exc g hs, announced_of_exc g k hs]
    exact ⟨rfl, rfl⟩
  rw [get?_pollCall g k hs, announced_eq g k hs h]
  cases c with
  | peers numPeers => exact ⟨rfl, rfl⟩
  | check now => exact absurd rfl (hcheck now)
  | start time m member =>
    cases m with
    | rfv rfv => exact ⟨if_neg fun hk => hstart (congrArg some hk.1), rfl⟩
    | _ => exact ⟨rfl, rfl⟩
  | update err time m =>
    cases m with
    | rtc rtc =>
      have hk : rtc.rfvId ≠ k := fun hk => hvote (congrArg some hk)
      refine ⟨if_neg hk, ?_⟩
      cases err with
      | none => simp [PollCall.verdict, hk]
      | some errno => rfl
    | _ => cases err <;> exact ⟨rfl, rfl⟩

/-- **Poll accounting.** -/
theorem poll_accounting (g : GroupParams) (k : String) {s₀ : GroupThread Id} (h₀ : s₀.polls = Dict.empty)
    {cs : List PollCall} (hids : (cs.filterMap PollCall.starts).Nodup) :
    (history g k s₀ cs).length ≤ 1 ∧ ∀ pre c, pre ++ [c] <+: cs → Accounted g k s₀ pre c := by
  refine ⟨(history_length_le_one g k h₀ hids).1, fun pre c hpre => ?_⟩
  have hids' : (pre.filterMap PollCall.starts).Nodup := by
    have hsub : pre <+: cs := (List.prefix_append pre [c]).trans hpre
    exact hids.sublist (hsub.sublist.filterMap _)
  have hbooked := booked_run g k h₀ pre
  have hballot : ballot g k s₀ (pre ++ [c]) = (book g k (run (book g k) (s₀.numPeers, none) pre) c).2 := by
    rw [ballot, run_append]
    rfl
  refine ⟨fun hne => ?_, fun hk hvote => ?_, fun hstart hvote hcheck => ?_, hbooked.counted, fun o ho => ?_,
    fun hs hk now hc => ?_⟩
  · exact Dict.get?_eq_none_iff.mp ((history_length_le_one g k h₀ hids').2.1 hne)
  · exact pollCall_of_late g hk hvote
  · exact pollCall_other g hbooked.filed hstart hvote hcheck
  · have hne : announced g k (run (pollCall g) s₀ pre) c ≠ [] := List.ne_nil_of_mem ho
    have hs : (run (pollCall g) s₀ pre).exc = none := by
      by_contra hs
      exact hne (announced_of_exc g k hs c)
    obtain ⟨-, hopen, -⟩ := announced_ne_nil hbooked.filed hne
    obtain ⟨p, hp⟩ := Option.ne_none_iff_exists'.mp hopen
    rw [announced_eq g k hs hbooked.filed, hp, Option.mem_toList] at ho
    obtain ⟨now, hc⟩ := PollCall.checks_of_verdict ho
    obtain ⟨b, hb, hverdict, -⟩ := verdict_eq hbooked hs hc hp
    exact ⟨b, now, hballot.trans hb, hc, Ballot.settle_eq_some (hverdict.symm.trans ho)⟩
  · obtain ⟨p, hp⟩ := Dict.mem_iff_exists_get?.mp hk
    obtain ⟨b, hb, hverdict, hnext⟩ := verdict_eq hbooked hs hc hp
    have hann := announced_eq g k hs hbooked.filed c
    have hget := get?_pollCall g k hs c
    rw [hp, hverdict] at hann
    rw [hp, hbooked.numPeers hs, hnext] at hget
    refine ⟨b, hballot.trans hb, ?_, ?_⟩
    · rw [hann, ← b.settle_ne_none]
      cases b.counted.settle now <;> simp
    · rw [hann, Dict.mem_iff_exists_get?, hget]
      cases hsettle : b.counted.settle now <;> simp [Option.filter, hsettle]

/-- Two polls among two peers: both vote yes in the one, the other expires, and a vote in it comes late. -/
def twoPolls : List PollCall :=
  [.peers 2, .start 10 (.rfv ⟨[], "a", .majority, .value, 0, 10, 5⟩) [],
    .start 10 (.rfv ⟨[], "b", .consensus, .action, 0, 10, 2⟩) [], .update none 11 (.rtc ⟨"a", .yes⟩),
    .update none 11 (.rtc ⟨"a", .yes⟩), .check 13, .update none 14 (.rtc ⟨"b", .yes⟩)]

theorem poll_accounting_two_polls :
    history (.defaults 1 le_rfl) "a" (start (Member.standard 0) (.least _ 0)) twoPolls = [.yes] ∧
      history (.defaults 1 le_rfl) "b" (start (Member.standard 0) (.least _ 0)) twoPolls = [.timeout] ∧
      Accounted (.defaults 1 le_rfl) "b" (start (Member.standard 0) (.least _ 0)) (twoPolls.take 5) (.check 13) := by
  refine ⟨by decide +kernel, by decide +kernel, ?_⟩
  have hids : (twoPolls.filterMap PollCall.starts).Nodup := by decide
  have hpolls : (start (Member.standard 0) (.least _ 0)).polls = Dict.empty := by decide +kernel
  exact (poll_accounting (.defaults 1 le_rfl) "b" hpolls hids).2 (twoPolls.take 5) (.check 13)
    ⟨[.update none 14 (.rtc ⟨"b", .yes⟩)], rfl⟩

end GroupThread

/-! ### Who voted -/

/-- The number of members that have to say yes. -/
def Poll.needs (p : Poll) : ℕ :=
  match p.kind with
  | .majority => p.numPeers / 2 + 1
  | .consensus => p.numPeers

/-- Who votes, when the call is a vote: the member that sent it, or the component's own member. -/
def Call.voter {g : Member Id} : Call Id g → Id
  | .forLeader _ sender _ _ => sender
  | _ => g.ownId

/-- The call is a yes in poll `k`. -/
def Call.isYes {g : Member Id} (k : String) : Call Id g → Bool
  | .comp _ _ (.rtc (.rtc rtc)) | .forLeader _ _ _ (.rtc (.rtc rtc)) => rtc.rfvId = k ∧ rtc.vote = .yes
  | _ => false

namespace GroupThread

variable [DecidableEq Id]

/-- Whose yes was counted in poll `k` since it was started, after one more call. -/
def yesVoters (g : Member Id) (k : String) (s : GroupThread Id) (vs : List Id) (c : Call Id g) : List Id :=
  match s.pollEvent g c with
  | .request _ time rfv _ => if rfv.rfvId = k ∧ rfv.late g.toGroupParams time = false then [] else vs
  | .vote _ _ rtc => if rtc.rfvId = k ∧ rtc.vote = .yes ∧ k ∈ s.polls then vs ++ [c.voter] else vs
  | _ => vs

/-- A call, and the record of whose yes was counted in poll `k`. -/
def tallied (g : Member Id) (k : String) (p : GroupThread Id × List Id) (c : Call Id g) : GroupThread Id × List Id :=
  (call g p.1 c, p.1.yesVoters g k p.2 c)

/-- The call brings a yes in poll `k`, which is open, of a member whose yes was counted in it before. -/
def countsAgain (g : Member Id) (k : String) (p : GroupThread Id × List Id) (c : Call Id g) : Bool :=
  match p.1.pollEvent g c with
  | .vote _ _ rtc => rtc.rfvId = k ∧ rtc.vote = .yes ∧ k ∈ p.1.polls ∧ c.voter ∈ p.2
  | _ => false

/-- The votes counted in poll `k` are those of different members, who all said yes in one of the calls `cs`. -/
structure FairlyCounted (k : String) (p : GroupThread Id × List Id) (cs : List (Call Id g)) : Prop where
  filed : Filed p.1.polls
  threshold : ∀ poll, p.1.polls.get? k = some poll → poll.threshold = poll.numPeers / 2 + 1
  yesCnt : ∀ poll, p.1.polls.get? k = some poll → poll.yesCnt = p.2.length
  nodup : p.2.Nodup
  voted : ∀ v ∈ p.2, ∃ c ∈ cs, c.isYes k ∧ c.voter = v

/-- A vote that reaches the polls is one of the component or one on the answer socket. -/
theorem isYes_of_vote {g : Member Id} {s : GroupThread Id} {c : Call Id g} {err : Option ℕ} {time : ℚ}
    {rtc : RepToVote} (h : s.pollEvent g c = .vote err time rtc) (hyes : rtc.vote = .yes) : c.isYes rtc.rfvId := by
  unfold pollEvent at h
  split at h
  · cases h
  · split at h
    · cases h
    · split at h <;> cases h
    · split at h
      · cases h
        simp [Call.isYes, hyes]
      · cases h
    · cases h
    · cases h
      simp [Call.isYes, hyes]
    · cases h

/-- What a call makes of the dictionary of polls. -/
theorem polls_call (g : Member Id) (s : GroupThread Id) (c : Call Id g) :
    (call g s c).polls = ((s.pollEvent g c).apply g.toGroupParams s.state s.numPeers s.board).polls :=
  congrArg Board.polls (board_call g s c)

theorem filed_call {g : Member Id} {s : GroupThread Id} (h : Filed s.polls) (c : Call Id g) :
    Filed (call g s c).polls := by
  intro j p hp
  rw [polls_call] at hp
  cases hev : s.pollEvent g c with
  | idle =>
    rw [hev] at hp
    exact h j p hp
  | sweep now =>
    rw [hev, PollEvent.apply, Board.get?_sweep] at hp
    exact h j p (Option.mem_filter_iff.mp hp).1
  | request err time rfv member =>
    rw [hev, PollEvent.apply, Board.get?_request] at hp
    split at hp
    · next hj =>
      cases hp
      exact hj.1
    · exact h j p hp
  | vote err time rtc =>
    rw [hev, PollEvent.apply, Board.get?_vote] at hp
    split at hp
    · obtain ⟨q, hq, rfl⟩ := Option.map_eq_some_iff.mp (Option.mem_filter_iff.mp hp).1
      exact h j q hq
    · exact h j p hp

section Count

variable {g : Member Id} {k : String} {s s' : GroupThread Id} {vs : List Id} {cs : List (Call Id g)} {c : Call Id g}

omit [DecidableEq Id]

/-- No yes is counted, and a poll that is open was open with the same count. -/
theorem FairlyCounted.keep (h : FairlyCounted k (s, vs) cs) (hfiled : Filed s'.polls)
    (hopen : ∀ poll, s'.polls.get? k = some poll → ∃ q, s.polls.get? k = some q ∧
      poll.threshold = q.threshold ∧ poll.numPeers = q.numPeers ∧ poll.yesCnt = q.yesCnt) :
    FairlyCounted k (s', vs) (cs ++ [c]) where
  filed := hfiled
  threshold poll hp := by
    obtain ⟨q, hq, hthreshold, hpeers, -⟩ := hopen poll hp
    rw [hthreshold, hpeers, h.threshold q hq]
  yesCnt poll hp := by
    obtain ⟨q, hq, -, -, hyes⟩ := hopen poll hp
    rw [hyes, h.yesCnt q hq]
  nodup := h.nodup
  voted v hv := by
    obtain ⟨d, hd, hyes⟩ := h.voted v hv
    exact ⟨d, List.mem_append_left _ hd, hyes⟩

/-- The poll is started, and nobody has voted in it. -/
theorem fairlyCounted_of_started (hfiled : Filed s'.polls) {poll : Poll} (hp : s'.polls.get? k = some poll)
    (hthreshold : poll.threshold = poll.numPeers / 2 + 1) (hyes : poll.yesCnt = 0) : FairlyCounted k (s', []) cs where
  filed := hfiled
  threshold q hq := by
    obtain rfl := Option.some.inj (hp.symm.trans hq)
    exact hthreshold
  yesCnt q hq := by
    obtain rfl := Option.some.inj (hp.symm.trans hq)
    exact hyes
  nodup := List.nodup_nil
  voted _ hv := absurd hv List.not_mem_nil

/-- A yes is counted, of a member whose yes was not counted before. -/
theorem FairlyCounted.count (h : FairlyCounted k (s, vs) cs) (hfiled : Filed s'.polls)
    (hcounted : ∀ poll, s'.polls.get? k = some poll → ∃ q, s.polls.get? k = some q ∧ poll = q.vote true)
    (hyes : c.isYes k) (hnew : c.voter ∉ vs) : FairlyCounted k (s', vs ++ [c.voter]) (cs ++ [c]) where
  filed := hfiled
  threshold poll hp := by
    obtain ⟨q, hq, rfl⟩ := hcounted poll hp
    exact h.threshold q hq
  yesCnt poll hp := by
    obtain ⟨q, hq, rfl⟩ := hcounted poll hp
    simp [Poll.vote, h.yesCnt q hq]
  nodup := h.nodup.append (List.nodup_singleton _) (by simpa using hnew)
  voted v hv := by
    rcases List.mem_append.mp hv with hv | hv
    · obtain ⟨d, hd, hvoted⟩ := h.voted v hv
      exact ⟨d, List.mem_append_left _ hd, hvoted⟩
    · obtain rfl := List.mem_singleton.mp hv
      exact ⟨c, by simp, hyes, rfl⟩

end Count

/-- **A call keeps the count fair**, if it does not bring a yes again. -/
theorem FairlyCounted.call {g : Member Id} {k : String} {p : GroupThread Id × List Id} {cs : List (Call Id g)}
    {c : Call Id g} (h : FairlyCounted k p cs) (hc : countsAgain g k p c = false) :
    FairlyCounted k (tallied g k p c) (cs ++ [c]) := by
  obtain ⟨s, vs⟩ := p
  have hfiled : Filed (GroupThread.call g s c).polls := filed_call h.filed c
  have hpolls : (GroupThread.call g s c).polls.get? k =
      ((s.pollEvent g c).apply g.toGroupParams s.state s.numPeers s.board).polls.get? k := by rw [polls_call]
  rw [tallied, yesVoters]
  cases hev : s.pollEvent g c with
  | idle =>
    rw [hev] at hpolls
    exact h.keep hfiled fun poll hp => ⟨poll, hpolls.symm.trans hp, rfl, rfl, rfl⟩
  | sweep now =>
    rw [hev, PollEvent.apply, Board.get?_sweep] at hpolls
    refine h.keep hfiled fun poll hp => ?_
    exact ⟨poll, (Option.mem_filter_iff.mp (hpolls.symm.trans hp)).1, rfl, rfl, rfl⟩
  | request err time rfv member =>
    rw [hev, PollEvent.apply, Board.get?_request] at hpolls
    simp only
    by_cases hk : rfv.rfvId = k ∧ rfv.late g.toGroupParams time = false
    · rw [if_pos hk] at hpolls ⊢
      exact fairlyCounted_of_started hfiled hpolls rfl rfl
    · rw [if_neg hk] at hpolls ⊢
      exact h.keep hfiled fun poll hp => ⟨poll, hpolls.symm.trans hp, rfl, rfl, rfl⟩
  | vote err time rtc =>
    rw [hev, PollEvent.apply, Board.get?_vote] at hpolls
    simp only [countsAgain, hev, decide_eq_false_iff_not] at hc
    simp only
    by_cases hk : rtc.rfvId = k
    swap
    · rw [if_neg hk] at hpolls
      rw [if_neg fun hyes => hk hyes.1]
      exact h.keep hfiled fun poll hp => ⟨poll, hpolls.symm.trans hp, rfl, rfl, rfl⟩
    rw [if_pos hk] at hpolls
    have hcounted : ∀ poll, (GroupThread.call g s c).polls.get? k = some poll →
        ∃ q, s.polls.get? k = some q ∧ poll = q.vote (rtc.vote = .yes) := by
      intro poll hp
      obtain ⟨q, hq, rfl⟩ := Option.map_eq_some_iff.mp (Option.mem_filter_iff.mp (hpolls.symm.trans hp)).1
      exact ⟨q, hq, rfl⟩
    by_cases hyes : rtc.vote = .yes ∧ k ∈ s.polls
    · rw [if_pos ⟨hk, hyes⟩]
      refine h.count hfiled (fun poll hp => ?_) (hk ▸ isYes_of_vote hev hyes.1) fun hv => hc ⟨hk, hyes.1, hyes.2, hv⟩
      simpa [hyes.1] using hcounted poll hp
    · rw [if_neg fun hv => hyes hv.2]
      refine h.keep hfiled fun poll hp => ?_
      obtain ⟨q, hq, rfl⟩ := hcounted poll hp
      -- the vote is a no, for the poll is open
      have hno : rtc.vote ≠ .yes := fun hv => hyes ⟨hv, Dict.mem_of_get? hq⟩
      exact ⟨q, hq, rfl, rfl, by simp [Poll.vote, hno]⟩

/-- A yes is announced for a poll that is open, by the check of all polls or by a vote in it. -/
theorem settle_of_yes {g : Member Id} {k : String} {s : GroupThread Id} {c : Call Id g} (h : Filed s.polls)
    (hyes : .yes ∈ outcomes k (s.sends g c)) :
    ∃ poll, s.polls.get? k = some poll ∧
      ((∃ now, s.pollEvent g c = .sweep now ∧ poll.settle now = some .yes) ∨
        ∃ err time rtc, s.pollEvent g c = .vote err time rtc ∧ rtc.rfvId = k ∧
          (poll.vote (rtc.vote = .yes)).settle time = some .yes) := by
  have hnotes : outcomes k s.sent ++ outcomes k (s.sends g c) =
      outcomes k ((s.pollEvent g c).apply g.toGroupParams s.state s.numPeers s.board).notes := by
    rw [← board_call, board, outcomes_pollNotes, sent_call, outcomes_append]
  have hboard : outcomes k s.board.notes = outcomes k s.sent := outcomes_pollNotes k s.sent
  cases hev : s.pollEvent g c with
  | idle =>
    rw [hev, PollEvent.apply, hboard] at hnotes
    have hnil : outcomes k (s.sends g c) = [] := List.append_cancel_left (hnotes.trans (List.append_nil _).symm)
    rw [hnil] at hyes
    cases hyes
  | sweep now =>
    rw [hev, PollEvent.apply, Board.outcomes_sweep _ _ h, hboard] at hnotes
    rw [List.append_cancel_left hnotes, Option.mem_toList] at hyes
    obtain ⟨poll, hp, hsettle⟩ := Option.bind_eq_some_iff.mp hyes
    exact ⟨poll, hp, .inl ⟨now, rfl, hsettle⟩⟩
  | request err time rfv member =>
    obtain ⟨l, hl, hno⟩ := Board.outcomes_request g.toGroupParams s.state s.numPeers err time rfv member s.board k
    rw [hev, PollEvent.apply, hl, hboard] at hnotes
    rw [List.append_cancel_left hnotes] at hyes
    exact absurd hyes hno
  | vote err time rtc =>
    rw [hev, PollEvent.apply, Board.outcomes_vote _ _ _ _ h, hboard] at hnotes
    rw [List.append_cancel_left hnotes] at hyes
    split at hyes
    · next hk =>
      obtain ⟨poll, hp, hsettle⟩ := Option.bind_eq_some_iff.mp (Option.mem_toList.mp hyes)
      exact ⟨poll, hp, .inr ⟨err, time, rtc, rfl, hk.1, hsettle⟩⟩
    · cases hyes

omit [DecidableEq Id] in
/-- A poll settled with yes has the votes it needs. -/
theorem needs_le_of_settle {poll : Poll} (h : poll.threshold = poll.numPeers / 2 + 1) {now : ℚ}
    (hyes : poll.settle now = some .yes) : poll.needs ≤ poll.yesCnt := by
  unfold Poll.settle at hyes
  split at hyes
  · cases hyes
  split at hyes
  swap
  · cases hyes
  have hresult : poll.result := by
    by_contra hno
    rw [if_neg hno] at hyes
    cases hyes
  unfold Poll.result at hresult
  unfold Poll.needs
  cases hk : poll.kind with
  | majority =>
    rw [hk] at hresult
    simpa [h] using hresult
  | consensus =>
    rw [hk] at hresult
    exact (of_decide_eq_true hresult).ge

/-- **What a fair count comes to**: as many members as the poll needs when it is announced with yes. -/
theorem FairlyCounted.needs_le {g : Member Id} {k : String} {s : GroupThread Id} {vs : List Id} {cs : List (Call Id g)}
    {c : Call Id g} (h : FairlyCounted k (s, vs) cs) (hyes : .yes ∈ outcomes k (s.sends g c)) :
    ∃ poll, s.polls.get? k = some poll ∧ poll.needs ≤ (s.yesVoters g k vs c).length := by
  obtain ⟨poll, hp, ⟨now, hev, hsettle⟩ | ⟨err, time, rtc, hev, hk, hsettle⟩⟩ := settle_of_yes h.filed hyes
  · refine ⟨poll, hp, (needs_le_of_settle (h.threshold poll hp) hsettle).trans ?_⟩
    rw [h.yesCnt poll hp, yesVoters, hev]
  · have hcounted : (poll.vote (rtc.vote = .yes)).needs ≤ (poll.vote (rtc.vote = .yes)).yesCnt :=
      needs_le_of_settle (h.threshold poll hp) hsettle
    refine ⟨poll, hp, hcounted.trans ?_⟩
    have hcnt : poll.yesCnt = vs.length := h.yesCnt poll hp
    simp only [yesVoters, hev, hk, Dict.mem_of_get? hp, true_and, and_true, Poll.vote, decide_eq_true_eq]
    split
    · rw [List.length_append, hcnt, List.length_singleton]
    · rw [hcnt]

theorem run_tallied (g : Member Id) (k : String) (p : GroupThread Id × List Id) (cs : List (Call Id g)) :
    (run (tallied g k) p cs).1 = run (call g) p.1 cs :=
  run_sim (R := fun (p : GroupThread Id × List Id) s => p.1 = s) (fun _ _ _ h => h ▸ rfl) rfl cs

/-- **A poll is won by members**, when no member's yes is counted again in a poll: a poll
announced with yes has a yes of as many different members as it needs. -/
theorem yes_has_voters (g : Member Id) (e : Env g.toGroupParams) (k : String) (cs : List (Call Id g))
    (h : AllSteps (tallied g k) (fun p c => countsAgain g k p c = false) (start g e, []) cs)
    {pre : List (Call Id g)} {c : Call Id g} (hpre : pre ++ [c] <+: cs)
    (hyes : .yes ∈ outcomes k (sends g (run (call g) (start g e) pre) c)) :
    ∃ poll, (run (call g) (start g e) pre).polls.get? k = some poll ∧
      ∃ voters : Finset Id, poll.needs ≤ voters.card ∧ ∀ v ∈ voters, ∃ d ∈ pre ++ [c], d.isYes k ∧ d.voter = v := by
  have hstart : FairlyCounted k (start g e, []) ([] : List (Call Id g)) := by
    have hnone : ∀ j, (start g e).polls.get? j = none := fun j => by rw [polls_start]; rfl
    refine ⟨fun j p hp => ?_, fun p hp => ?_, fun p hp => ?_, List.nodup_nil, fun v hv => by cases hv⟩
    · cases (hnone j).symm.trans hp
    · cases (hnone k).symm.trans hp
    · cases (hnone k).symm.trans hp
  have hsteps : AllSteps (tallied g k) (fun p c => countsAgain g k p c = false) (start g e, []) pre :=
    h.initial ((List.prefix_append pre [c]).trans hpre)
  have hfair := hsteps.inv_collect (tallied g k) (fun _ d => [d]) (fun _ _ _ hp hc => FairlyCounted.call hp hc) hstart
  have hc := h pre c hpre
  rw [collect_calls, List.nil_append] at hfair
  have hrun := run_tallied g k (start g e, []) pre
  generalize run (tallied g k) (start g e, []) pre = p at hfair hc hrun
  obtain ⟨s, vs⟩ := p
  simp only at hrun
  rw [← hrun] at hyes ⊢
  obtain ⟨poll, hp, hneeds⟩ := hfair.needs_le hyes
  have hfair' := hfair.call hc
  have hnodup : (s.yesVoters g k vs c).Nodup := hfair'.nodup
  refine ⟨poll, hp, (s.yesVoters g k vs c).toFinset, ?_, fun v hv => ?_⟩
  · rwa [List.toFinset_card_of_nodup hnodup]
  · exact hfair'.voted v (List.mem_toFinset.mp hv)

/-- Member 0 of two is elected in term 1 and opens a poll for its component, by majority. -/
def opened : List (Call ℕ (Member.standard 0)) :=
  [.net (.least _ 101) (.heartbeat 0), .net (.least _ 101) (.heartbeat 1), .timeout (.least _ 103),
    .net (.least _ 103) (.rspvote 1 0 true 1),
    .comp (.least _ 103) none (.rfv (.rfv ⟨[], "poll", .majority, .value, 0, 103, 1⟩))]

/-- The leader's component and member 1 say yes. -/
theorem yes_has_voters_of_two :
    ∃ voters : Finset ℕ, 2 ≤ voters.card ∧ ∀ v ∈ voters,
      ∃ d ∈ opened ++ [.comp (.least _ 103) none (.rtc (.rtc ⟨"poll", .yes⟩))] ++
          [.forLeader (.least _ 103) 1 [1] (.rtc (.rtc ⟨"poll", .yes⟩))],
        d.isYes "poll" ∧ d.voter = v := by
  have hfair : AllSteps (tallied (Member.standard 0) "poll")
      (fun p c => countsAgain (Member.standard 0) "poll" p c = false)
      (start (Member.standard 0) (.least _ 100), [])
      (opened ++ [.comp (.least _ 103) none (.rtc (.rtc ⟨"poll", .yes⟩))] ++
        [.forLeader (.least _ 103) 1 [1] (.rtc (.rtc ⟨"poll", .yes⟩))]) := by
    decide +kernel
  obtain ⟨poll, hp, hvoters⟩ := yes_has_voters (Member.standard 0) (.least _ 100) "poll" _ hfair (List.prefix_refl _)
    (by decide +kernel)
  have hneeds : ((run (call (Member.standard 0)) (start (Member.standard 0) (.least _ 100))
      (opened ++ [.comp (.least _ 103) none (.rtc (.rtc ⟨"poll", .yes⟩))])).polls.get? "poll").map Poll.needs =
        some 2 := by
    decide +kernel
  rw [hp] at hneeds
  rwa [Option.some.inj hneeds] at hvoters

/-- Member 1 says yes twice. The poll among two is won by a majority of one. -/
theorem yes_of_one_voter :
    let pre := opened ++ [.forLeader (.least _ 103) 1 [1] (.rtc (.rtc ⟨"poll", .yes⟩))]
    let c := .forLeader (.least _ 103) 1 [1] (.rtc (.rtc ⟨"poll", .yes⟩))
    .yes ∈ outcomes "poll" (sends (Member.standard 0)
        (run (call (Member.standard 0)) (start (Member.standard 0) (.least _ 100)) pre) c) ∧
      ((run (call (Member.standard 0)) (start (Member.standard 0) (.least _ 100)) pre).polls.get? "poll").map
        Poll.needs = some 2 ∧
      ¬ ∃ voters : Finset ℕ, 2 ≤ voters.card ∧ ∀ v ∈ voters, ∃ d ∈ pre ++ [c], d.isYes "poll" ∧ d.voter = v := by
  refine ⟨by decide +kernel, by decide +kernel, ?_⟩
  rintro ⟨voters, hcard, hvoters⟩
  have hone : ∀ d ∈ opened ++ [.forLeader (.least _ 103) 1 [1] (.rtc (.rtc ⟨"poll", .yes⟩))] ++
      [.forLeader (.least _ 103) 1 [1] (.rtc (.rtc ⟨"poll", .yes⟩))], d.isYes "poll" → d.voter = 1 := by
    decide +kernel
  have hsub : voters ⊆ {1} := fun v hv => by
    obtain ⟨d, hd, hyes, rfl⟩ := hvoters v hv
    exact Finset.mem_singleton.mpr (hone d hd hyes)
  have hle := Finset.card_le_card hsub
  rw [Finset.card_singleton] at hle
  omega

end GroupThread

end Riaps.Coordination
