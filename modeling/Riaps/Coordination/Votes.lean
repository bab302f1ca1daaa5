import Riaps.Coordination.Elections

/-!
# Terms and votes

What a member may do in a term, over every run of its thread. The term is
overwritten from messages in five places; two handlers check the term of the
message first and the others do not, so the term goes back exactly when such a
message is of an older term (`term_le_call_iff`).

A member gives its yes by a `RSPVOTE` or by a candidacy. That it gives at most
one in a term is an invariant of the votes given so far with the two variables
that remember them, `term` and `votedFor` (`VoteInv`). It is kept by every call
that neither takes over an older term nor answers a candidate when `votedFor`
has been cleared since the member voted for another one (`Steady`).
-/

namespace Riaps.Coordination

open Riaps.Foundation

universe u

variable {Id : Type u} [DecidableEq Id]

namespace GroupThread

section Calls

variable (g : Member Id) (s : GroupThread Id) (c : Call Id g)

/-! ### Terms -/

theorem term_call : (call g s c).term = ((s.event g c).apply g s.seat).term := congrArg Seat.term (seat_call g s c)

theorem votedFor_call : (call g s c).votedFor = ((s.event g c).apply g s.seat).votedFor :=
  congrArg Seat.votedFor (seat_call g s c)

theorem state_call : (call g s c).state = ((s.event g c).apply g s.seat).state := congrArg Seat.state (seat_call g s c)

variable {g s c}

/-- Who becomes the leader was a candidate, and the vote that came in made its votes the threshold. -/
theorem leader_of_call (hst : s.state ≠ .leader) (hst' : (call g s c).state = .leader) :
    s.exc = none ∧ s.state = .candidate ∧ (call g s c).term = s.term ∧ s.threshold ≤ s.votes + 1 ∧
      ∃ e term node, c = .net e (.rspvote term g.ownId true node) := by
  have hterm := term_call g s c
  have hg := guard_event g s c
  rw [state_call] at hst'
  cases hev : s.event g c with
  | candidacy => rw [hev] at hst'; cases hst'
  | candidacyFails => rw [hev] at hst'; cases hst'
  | giveUp => rw [hev] at hst'; cases hst'
  | accept term leader server deadline => rw [hev] at hst'; cases hst'
  | defer term node => rw [hev] at hst'; cases hst'
  | win port =>
    rw [hev] at hterm hg
    obtain ⟨hcand, hvotes, -, -, hc⟩ := hg
    exact ⟨exc_of_event hev (by simp), hcand, hterm, hvotes, hc⟩
  | winFails port =>
    rw [hev] at hterm hg
    obtain ⟨hcand, hvotes, -, hc⟩ := hg
    exact ⟨exc_of_event hev (by simp), hcand, hterm, hvotes, hc⟩
  | _ =>
    rw [hev] at hst'
    exact absurd hst' hst

end Calls

/-- The term that a member in state `st` takes over from a message without a look at its own. -/
def uncheckedTerm {g : Member Id} (st : MemberState) : Call Id g → Option ℕ
  | .net _ (.reqvote term _) => if st = .follower then some term else none
  | .net _ (.authority term _ _ _) => if st = .leader then none else some term
  | _ => none

/-- If the thread is running, no older term is taken over unchecked. -/
def Fresh (g : Member Id) (s : GroupThread Id) (c : Call Id g) : Prop :=
  s.exc = none → ∀ term ∈ uncheckedTerm s.state c, s.term ≤ term

instance (g : Member Id) (s : GroupThread Id) (c : Call Id g) : Decidable (Fresh g s c) :=
  inferInstanceAs (Decidable (_ → _))

section Fresh

variable {g : Member Id} {s : GroupThread Id} {c : Call Id g}

theorem Fresh.le_of_answer {term : ℕ} {node : Id} (h : Fresh g s c) (hev : s.event g c = .answer term node) :
    s.term ≤ term := by
  have hg := guard_event g s c
  rw [hev] at hg
  obtain ⟨hst, e, rfl⟩ := hg
  exact h (exc_of_event hev (by simp)) term (by simp [uncheckedTerm, hst])

theorem Fresh.le_of_accept {term : ℕ} {leader : Id} {server : Option (String × ℕ)} {deadline : ℚ} (h : Fresh g s c)
    (hev : s.event g c = .accept term leader server deadline) : s.term ≤ term := by
  have hg := guard_event g s c
  rw [hev] at hg
  obtain ⟨hl, e, host, port, rfl, -⟩ := hg
  have hs := exc_of_event hev (by simp)
  cases hst : s.state with
  | follower => exact h hs term (by simp [uncheckedTerm, hst])
  | candidate => exact h hs term (by simp [uncheckedTerm, hst])
  | leader => exact (hl hst).1.le

/-- **The term goes back exactly by an older message**, taken over unchecked. -/
theorem term_le_call_iff : s.term ≤ (call g s c).term ↔ Fresh g s c := by
  constructor
  · intro h hs t ht
    rw [term_call] at h
    cases c with
    | net e m =>
      cases m with
      | reqvote term node =>
        by_cases hst : s.state = .follower
        · obtain rfl : term = t := by simpa [uncheckedTerm, hst] using ht
          simpa [event, hs, hst, ElectionEvent.apply] using h
        · simp [uncheckedTerm, hst] at ht
      | authority term leader host port =>
        cases hst : s.state with
        | follower =>
          obtain rfl : term = t := by simpa [uncheckedTerm, hst] using ht
          simpa [event, hs, hst, ElectionEvent.apply] using h
        | candidate =>
          obtain rfl : term = t := by simpa [uncheckedTerm, hst] using ht
          simpa [event, hs, hst, ElectionEvent.apply] using h
        | leader => simp [uncheckedTerm, hst] at ht
      | _ => cases ht
    | _ => cases ht
  · intro h
    rw [term_call]
    have hg := guard_event g s c
    cases hev : s.event g c with
    | candidacy => exact Nat.le_succ _
    | candidacyFails => exact Nat.le_succ _
    | accept term leader server deadline => exact h.le_of_accept hev
    | answer term node => exact h.le_of_answer hev
    | defer term node =>
      rw [hev] at hg
      exact hg.2.1.le
    | _ => exact le_rfl

end Fresh

/-- **Terms do not decrease** along a run exactly if all its messages are fresh. -/
theorem term_mono_iff (g : Member Id) (e : Env g.toGroupParams) (cs : List (Call Id g)) :
    AllSteps (call g) (fun s c => s.term ≤ (call g s c).term) (start g e) cs ↔
      AllSteps (call g) (Fresh g) (start g e) cs :=
  allSteps_congr (fun _ _ => term_le_call_iff) _ _

/-- A `FOLLOWER` in term 5 that is asked for its vote in term 3, by a candidate that has
been left behind, goes back to term 3. -/
theorem term_goes_back :
    ¬ AllSteps (call (Member.standard 0)) (fun s c => s.term ≤ (call (Member.standard 0) s c).term)
      (start (Member.standard 0) (.least _ 0))
      [.net (.least _ 1) (.reqvote 5 1), .net (.least _ 2) (.reqvote 3 2)] := by
  intro h
  have hstep := h [.net (.least _ 1) (.reqvote 5 1)] (.net (.least _ 2) (.reqvote 3 2)) (List.prefix_refl _)
  revert hstep
  decide +kernel

/-! ### Votes -/

/-- What the thread has sent says that it gave its yes to `v` in term `t`: by a
`RSPVOTE`, or by the `REQVOTE` of a candidacy. -/
def Voted (s : GroupThread Id) (t : ℕ) (v : Id) : Prop :=
  .reqvote t v ∈ published s.sent ∨ ∃ node, .rspvote t v true node ∈ published s.sent

end GroupThread

/-- The votes that an event gives, and that it publishes. -/
def ElectionEvent.votes (g : Member Id) : ElectionEvent Id → Seat Id → List (ℕ × Id)
  | candidacy, x => [(x.term + 1, g.ownId)]
  | answer term node, x => if GroupThread.grantsVote x.votedFor x.term term node then [(term, node)] else []
  | defer term node, _ => [(term, node)]
  | _, _ => []

namespace GroupThread

theorem mem_published_sends {g : Member Id} {s : GroupThread Id} {c : Call Id g} {m : GroupMsg Id} (hm : m.isElection) :
    m ∈ published (s.sends g c) ↔ m ∈ (s.event g c).pubs g s.seat := by
  rw [← elections_sends, mem_elections, and_iff_left hm]

/-- The votes given after a call: those given before, and those of its event. -/
theorem voted_call (g : Member Id) (s : GroupThread Id) (c : Call Id g) (t : ℕ) (v : Id) :
    (call g s c).Voted t v ↔ s.Voted t v ∨ (t, v) ∈ (s.event g c).votes g s.seat := by
  have hreq : (.reqvote t v : GroupMsg Id) ∈ published (s.sends g c) ↔ _ := mem_published_sends rfl
  have hrsp : ∀ node, (.rspvote t v true node : GroupMsg Id) ∈ published (s.sends g c) ↔ _ :=
    fun node => mem_published_sends rfl
  simp only [Voted, sent_call, published_append, List.mem_append, hreq, hrsp, exists_or]
  rw [or_or_or_comm, or_congr_right]
  cases s.event g c with
  | answer term node => cases h : grantsVote s.seat.votedFor s.seat.term term node <;>
      simp [ElectionEvent.pubs, ElectionEvent.votes, h]
  | _ => simp [ElectionEvent.pubs, ElectionEvent.votes]

/-- The vote invariant: votes are of terms reached, a vote of the term at hand is the one
`votedFor` shows, if it shows one, and no term has two. -/
structure VoteInv (s : GroupThread Id) : Prop where
  le : ∀ {t v}, s.Voted t v → t ≤ s.term
  shown : ∀ {v}, s.Voted s.term v → s.votedFor = some v ∨ s.votedFor = none
  unique : ∀ {t v w}, s.Voted t v → s.Voted t w → v = w

omit [DecidableEq Id] in
theorem not_voted_start (g : Member Id) (e : Env g.toGroupParams) (t : ℕ) (v : Id) : ¬ (start g e).Voted t v := by
  rcases sent_start g e with h | h <;> simp [Voted, h]

omit [DecidableEq Id] in
theorem voteInv_start (g : Member Id) (e : Env g.toGroupParams) : VoteInv (start g e) where
  le h := (not_voted_start g e _ _ h).elim
  shown h := (not_voted_start g e _ _ h).elim
  unique h := (not_voted_start g e _ _ h).elim

omit [DecidableEq Id] in
/-- The invariant is kept when the term does not go back, a new vote is of the new term and
in `votedFor`, and within a term an old vote is still in `votedFor` or is cleared from it. -/
theorem VoteInv.step {s s' : GroupThread Id} (h : VoteInv s) (hle : s.term ≤ s'.term)
    (hnew : ∀ t v, s'.Voted t v → s.Voted t v ∨ t = s'.term ∧ s'.votedFor = some v)
    (hold : s.term = s'.term → ∀ v, s.Voted s.term v → s'.votedFor = some v ∨ s'.votedFor = none) : VoteInv s' := by
  -- an old vote of the new term: the term is the old one
  have hsame : ∀ {v}, s.Voted s'.term v → s'.votedFor = some v ∨ s'.votedFor = none := by
    intro v hv
    have heq : s.term = s'.term := le_antisymm hle (h.le hv)
    exact hold heq v (heq ▸ hv)
  have hagree : ∀ {v w}, s.Voted s'.term v → s'.votedFor = some w → v = w := by
    intro v w hv hw
    rcases hsame hv with hshown | hnone
    · exact Option.some.inj (hshown.symm.trans hw)
    · cases hnone.symm.trans hw
  refine ⟨fun {t v} hv => ?_, fun {v} hv => ?_, fun {t v w} hv hw => ?_⟩
  · rcases hnew t v hv with hold | ⟨rfl, -⟩
    · exact (h.le hold).trans hle
    · exact le_rfl
  · rcases hnew _ v hv with hold | ⟨-, hshown⟩
    · exact hsame hold
    · exact Or.inl hshown
  · rcases hnew t v hv with hv' | ⟨rfl, hv'⟩
    · rcases hnew t w hw with hw' | ⟨rfl, hw'⟩
      · exact h.unique hv' hw'
      · exact hagree hv' hw'
    · rcases hnew _ w hw with hw' | ⟨-, hw'⟩
      · exact (hagree hw' hv').symm
      · exact Option.some.inj (hv'.symm.trans hw')

/-- The call is fresh, and if the thread is running: a `FOLLOWER` whose `votedFor` has been
cleared handles no `REQVOTE` of its term but for the candidate it voted for in it. -/
def Steady (g : Member Id) (s : GroupThread Id) (c : Call Id g) : Prop :=
  Fresh g s c ∧
    ∀ e node, c = .net e (.reqvote s.term node) → s.exc = none → s.state = .follower → s.votedFor = none →
      ∀ v, s.Voted s.term v → v = node

/-- What `Steady` says of the votes of a `FOLLOWER`. -/
theorem Steady.of_answer {g : Member Id} {s : GroupThread Id} {c : Call Id g} {node : Id} (h : Steady g s c)
    (hev : s.event g c = .answer s.term node) (hs : s.votedFor = none) {v : Id} (hv : s.Voted s.term v) : v = node := by
  have hg := guard_event g s c
  rw [hev] at hg
  obtain ⟨hst, e, rfl⟩ := hg
  exact h.2 e node rfl (exc_of_event hev (by simp)) hst hs v hv

/-- **A steady call keeps the vote invariant.** -/
theorem VoteInv.call {g : Member Id} {s : GroupThread Id} {c : Call Id g} (h : VoteInv s) (hc : Steady g s c) :
    VoteInv (call g s c) := by
  have hvoted := voted_call g s c
  have hterm := term_call g s c
  have hfor := votedFor_call g s c
  refine h.step (term_le_call_iff.mpr hc.1) ?_ ?_
  · intro t v hv
    rcases (hvoted t v).mp hv with hv | hv
    · exact Or.inl hv
    · right
      rw [hterm, hfor]
      cases hev : s.event g c with
      | candidacy =>
        obtain ⟨rfl, rfl⟩ : t = s.seat.term + 1 ∧ v = g.ownId := by simpa [hev, ElectionEvent.votes] using hv
        exact ⟨rfl, rfl⟩
      | answer term node =>
        cases hy : grantsVote s.seat.votedFor s.seat.term term node with
        | false => simp [hev, ElectionEvent.votes, hy] at hv
        | true =>
          obtain ⟨rfl, rfl⟩ : t = term ∧ v = node := by simpa [hev, ElectionEvent.votes, hy] using hv
          exact ⟨rfl, by simp [ElectionEvent.apply, hy]⟩
      | defer term node =>
        obtain ⟨rfl, rfl⟩ : t = term ∧ v = node := by simpa [hev, ElectionEvent.votes] using hv
        exact ⟨rfl, rfl⟩
      | _ => simp [hev, ElectionEvent.votes] at hv
  · intro heq v hv
    rw [hterm] at heq
    rw [hfor]
    have hg := guard_event g s c
    cases hev : s.event g c with
    | candidacy => simp [hev, ElectionEvent.apply, seat] at heq
    | candidacyFails => simp [hev, ElectionEvent.apply, seat] at heq
    | giveUp => exact Or.inr rfl
    | accept term leader server deadline => exact Or.inr rfl
    | defer term node =>
      rw [hev] at hg heq
      exact absurd hg.2.1 (heq ▸ lt_irrefl _)
    | answer term node =>
      obtain rfl : s.term = term := by simpa [hev, ElectionEvent.apply] using heq
      simp only [ElectionEvent.apply]
      split
      · rename_i hy
        left
        rcases h.shown hv with hshown | hnone
        · -- the vote is granted again, to the same candidate
          have hsame : node = v := by
            simp only [seat, hshown, grantsVote, lt_irrefl, if_false] at hy
            by_contra hne
            simp [hne] at hy
          rw [hsame]
        · rw [hc.of_answer hev hnone hv]
      · exact h.shown hv
    | _ => exact h.shown hv

/-- The yes a member gives in a call: those it publishes, and its own vote when it becomes
`CANDIDATE`. -/
def yesGiven (g : Member Id) (s : GroupThread Id) (c : Call Id g) : List (ℕ × Id) :=
  ((published (s.sends g c)).filterMap fun
    | .rspvote term cand true _ => some (term, cand)
    | _ => none) ++
  if s.state ≠ .candidate ∧ (call g s c).state = .candidate then [((call g s c).term, g.ownId)] else []

theorem mem_yesGiven {g : Member Id} {s : GroupThread Id} {c : Call Id g} {p : ℕ × Id} (hp : p ∈ yesGiven g s c) :
    (call g s c).Voted p.1 p.2 ∨ s.event g c = .candidacyFails ∧ p = (s.term + 1, g.ownId) := by
  rcases List.mem_append.mp hp with hp | hp
  · obtain ⟨m, hm, hmp⟩ := List.mem_filterMap.mp hp
    left
    right
    rw [sent_call, published_append]
    cases m with
    | rspvote term cand vote node =>
      cases vote with
      | true =>
        obtain rfl : (term, cand) = p := Option.some.inj hmp
        exact ⟨node, List.mem_append_right _ hm⟩
      | false => cases hmp
    | _ => cases hmp
  · split_ifs at hp with hst
    swap
    · cases hp
    rw [List.mem_singleton] at hp
    obtain ⟨hst, hst'⟩ := hst
    rw [state_call] at hst'
    rw [voted_call]
    have hterm := term_call g s c
    have hg := guard_event g s c
    cases hev : s.event g c with
    | candidacy =>
      left
      right
      rw [hp, hterm, hev]
      exact List.mem_singleton.mpr rfl
    | candidacyFails =>
      right
      rw [hev] at hterm
      exact ⟨rfl, by rw [hp, hterm]; rfl⟩
    | count =>
      rw [hev] at hg
      exact absurd hg.1 hst
    | refuse term node =>
      rw [hev] at hg
      exact absurd hg.1 hst
    | giveUp => rw [hev] at hst'; cases hst'
    | accept term leader server deadline => rw [hev] at hst'; cases hst'
    | defer term node => rw [hev] at hst'; cases hst'
    | win port => rw [hev] at hst'; cases hst'
    | winFails port => rw [hev] at hst'; cases hst'
    | _ => rw [hev] at hst'; exact absurd hst' hst

/-- The yes given so far are on record, but for that of a candidacy that has just failed. -/
def OnRecord (g : Member Id) (s : GroupThread Id) (l : List (ℕ × Id)) : Prop :=
  ∀ p ∈ l, s.Voted p.1 p.2 ∨ s.exc ≠ none ∧ p = (s.term, g.ownId) ∧ ∀ v, ¬ s.Voted s.term v

theorem OnRecord.call {g : Member Id} {s : GroupThread Id} {l : List (ℕ × Id)} (hl : OnRecord g s l) (hv : VoteInv s)
    (c : Call Id g) : OnRecord g (call g s c) (l ++ yesGiven g s c) := by
  intro p hp
  rcases List.mem_append.mp hp with hp | hp
  · rcases hl p hp with hvoted | ⟨hexc, hgasp⟩
    · exact Or.inl ((voted_call g s c _ _).mpr (Or.inl hvoted))
    · rw [call_of_exc hexc]
      exact Or.inr ⟨hexc, hgasp⟩
  · rcases mem_yesGiven hp with hvoted | ⟨hev, rfl⟩
    · exact Or.inl hvoted
    · have hterm : (GroupThread.call g s c).term = s.term + 1 := by
        rw [term_call, hev]
        rfl
      refine Or.inr ⟨by rw [exc_of_candidacyFails hev]; simp, by rw [hterm], fun v hvoted => ?_⟩
      rw [voted_call, hterm, hev] at hvoted
      rcases hvoted with hvoted | hvoted
      · exact absurd (hv.le hvoted) (by omega)
      · cases hvoted

/-- **Votes are unique.** In a run whose calls are steady, a member gives its yes to at
most one candidate in a term. -/
theorem yesGiven_unique (g : Member Id) (e : Env g.toGroupParams) (cs : List (Call Id g))
    (h : AllSteps (call g) (Steady g) (start g e) cs) {t : ℕ} {a b : Id}
    (ha : (t, a) ∈ collect (call g) (yesGiven g) (start g e) cs)
    (hb : (t, b) ∈ collect (call g) (yesGiven g) (start g e) cs) : a = b := by
  have hstep : ∀ s c l, VoteInv s ∧ OnRecord g s l → Steady g s c →
      VoteInv (call g s c) ∧ OnRecord g (call g s c) (l ++ yesGiven g s c) :=
    fun s c l ⟨hv, hl⟩ hc => ⟨hv.call hc, hl.call hv c⟩
  obtain ⟨hv, hl⟩ := h.inv_collect (call g) (yesGiven g) hstep
    (l := []) ⟨voteInv_start g e, fun p hp => absurd hp List.not_mem_nil⟩
  rw [List.nil_append] at hl
  rcases hl _ ha with ha | ⟨-, ha, hno⟩
  · rcases hl _ hb with hb | ⟨-, hb, hno⟩
    · exact hv.unique ha hb
    · cases hb
      exact absurd ha (hno a)
  · rcases hl _ hb with hb | ⟨-, hb, -⟩
    · cases ha
      exact absurd hb (hno b)
    · exact (Prod.ext_iff.mp (ha.trans hb.symm)).2

/-- A follower that votes for 1 in term 1 does not vote for 2 in it. -/
theorem yesGiven_unique_two_requests :
    (1, 2) ∉ collect (call (Member.standard 0)) (yesGiven _) (start (Member.standard 0) (.least _ 0))
      [.net (.least _ 1) (.reqvote 1 1), .net (.least _ 2) (.reqvote 1 2)] := by
  intro hb
  refine absurd (yesGiven_unique _ _ _ ?_ (t := 1) (a := 1) (by decide +kernel) hb) (by decide)
  refine allSteps_cons.mpr ⟨⟨by decide +kernel, ?_⟩, allSteps_cons.mpr ⟨⟨by decide +kernel, ?_⟩, allSteps_nil⟩⟩
  · intro e node _ _ _ _ v hv
    exact absurd hv (not_voted_start _ _ _ _)
  · intro e node _ _ _ hnone
    exact absurd hnone (by decide +kernel)

/-- A follower votes for 1, hears from it that it won the election, and then votes for 2
in the same term. -/
theorem yesGiven_twice :
    ¬ ∀ a b, (1, a) ∈ collect (call (Member.standard 0)) (yesGiven _) (start (Member.standard 0) (.least _ 0))
        [.net (.least _ 1) (.reqvote 1 1), .net (.least _ 2) (.authority 1 1 0x7f000001 50000),
          .net (.least _ 3) (.reqvote 1 2)] →
      (1, b) ∈ collect (call (Member.standard 0)) (yesGiven _) (start (Member.standard 0) (.least _ 0))
        [.net (.least _ 1) (.reqvote 1 1), .net (.least _ 2) (.authority 1 1 0x7f000001 50000),
          .net (.least _ 3) (.reqvote 1 2)] → a = b := by
  intro h
  exact absurd (h 1 2 (by decide +kernel) (by decide +kernel)) (by decide)

end GroupThread

end Riaps.Coordination
