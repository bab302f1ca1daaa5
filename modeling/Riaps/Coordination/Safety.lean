import Mathlib.Algebra.BigOperators.Group.Finset.Piecewise
import Mathlib.Algebra.Order.BigOperators.Group.Finset
import Riaps.Foundation.Broadcast
import Riaps.Coordination.Conflicts
import Riaps.Coordination.Votes

/-!
# One leader in a term

The members of a group on the network, and what makes elections safe: whoever is
elected in a term has the votes of more than half of the members, and a member
gives one vote in a term. The second is `VoteInv`. The first is an account of the
votes: a member answers each request once, so the votes that a candidate has
counted are those of different members (`Account`).

It does not hold of all runs. The votes that win an election are half of the
peers that the candidate has heard of and one more, which need not be half of the
group; with every winner's threshold above that, and no stale message counted,
no term has two leaders (`election_safety`).
-/

namespace Riaps.Coordination

open Riaps.Foundation

universe u

variable {Id : Type u} [DecidableEq Id]

/-! ### The group -/

/-- The members of a group, no two with one id. -/
structure Group (ι : Type*) (Id : Type u) where
  member : ι → Member Id
  ownId_inj : Function.Injective fun i => (member i).ownId

variable {ι : Type*}

/-- What a member does on its own: any call but one of the network. -/
abbrev Group.Own (G : Group ι Id) (i : ι) := { c : Call Id (G.member i) // GroupThread.isNet c = false }

/-- The members on the network. What a member publishes comes to all members, itself among them. -/
def Group.net (G : Group ι Id) :
    Broadcast ι (GroupThread Id) (GroupMsg Id) G.Own fun i => Env (G.member i).toGroupParams where
  act i s c := s.call (G.member i) c.1
  hear i s e m := s.call (G.member i) (.net e m)
  log s := published s.sent
  log_act i s c := by
    rw [GroupThread.sent_call, published_append]
    exact List.prefix_append _ _
  log_hear i s e m := by
    rw [GroupThread.sent_call, published_append]
    exact List.prefix_append _ _

/-- The group when the threads start. -/
def Group.start (G : Group ι Id) (e : ∀ i, Env (G.member i).toGroupParams) : G.net.Net where
  node i := GroupThread.start (G.member i) (e i)
  got _ _ := 0
  got_le _ _ := Nat.zero_le _

/-! ### Requests and votes in a log -/

/-- A request for votes for `v` in term `t`. -/
def GroupMsg.asks (t : ℕ) (v : Id) : GroupMsg Id → Bool
  | .reqvote term node => term = t ∧ node = v
  | _ => false

/-- A yes to `v` in term `t`. -/
def GroupMsg.grants (t : ℕ) (v : Id) : GroupMsg Id → Bool
  | .rspvote term cand vote _ => term = t ∧ cand = v ∧ vote
  | _ => false

theorem GroupMsg.asks_iff {m : GroupMsg Id} {t : ℕ} {v : Id} : m.asks t v ↔ m = .reqvote t v := by
  cases m <;> simp [GroupMsg.asks]

theorem GroupMsg.grants_iff {m : GroupMsg Id} {t : ℕ} {v : Id} :
    m.grants t v ↔ ∃ node, m = .rspvote t v true node := by
  cases m <;> simp [GroupMsg.grants]

namespace GroupThread

variable {g : Member Id} {s : GroupThread Id} {c : Call Id g}

/-- The log after a call, as to election messages: those of its event are added. -/
theorem countP_published_call {p : GroupMsg Id → Bool} (hp : ∀ m, p m → m.isElection) :
    (published (call g s c).sent).countP p =
      (published s.sent).countP p + ((s.event g c).pubs g s.seat).countP p := by
  have hel : (published (s.sends g c)).countP p = (elections (s.sends g c)).countP p := by
    rw [elections, List.countP_filter]
    refine List.countP_congr fun m _ => ?_
    simpa using hp m
  rw [sent_call, published_append, List.countP_append, hel, elections_sends]

theorem asks_isElection {t : ℕ} {v : Id} (m : GroupMsg Id) (h : m.asks t v) : m.isElection := by
  rw [GroupMsg.asks_iff.mp h]
  rfl

theorem grants_isElection {t : ℕ} {v : Id} (m : GroupMsg Id) (h : m.grants t v) : m.isElection := by
  obtain ⟨node, rfl⟩ := GroupMsg.grants_iff.mp h
  rfl

/-- The message of the group that a call handles. -/
def heardOf : Call Id g → List (GroupMsg Id)
  | .net _ m => [m]
  | _ => []

/-- **A yes answers a request**: a call publishes no more yes than it hears requests. -/
theorem grants_le_asks (t : ℕ) (v : Id) :
    ((s.event g c).pubs g s.seat).countP (GroupMsg.grants t v) ≤ (heardOf c).countP (GroupMsg.asks t v) := by
  have hg := guard_event g s c
  have hone : ∀ term node vote, [GroupMsg.rspvote term node vote g.ownId].countP (GroupMsg.grants t v) ≤
      [GroupMsg.reqvote term node].countP (GroupMsg.asks t v) := by
    intro term node vote
    by_cases h : term = t ∧ node = v
    · have hasks : [GroupMsg.reqvote term node].countP (GroupMsg.asks t v) = 1 := by simp [GroupMsg.asks, h]
      rw [hasks]
      exact List.countP_le_length
    · have hgrants : [GroupMsg.rspvote term node vote g.ownId].countP (GroupMsg.grants t v) = 0 := by
        rw [List.countP_eq_zero]
        intro m hm hgrants
        rw [List.mem_singleton.mp hm] at hgrants
        obtain ⟨hterm, hnode, -⟩ := of_decide_eq_true hgrants
        exact h ⟨hterm, hnode⟩
      rw [hgrants]
      exact Nat.zero_le _
  cases hev : s.event g c with
  | answer term node =>
    rw [hev] at hg
    obtain ⟨-, e, rfl⟩ := hg
    exact hone term node _
  | defer term node =>
    rw [hev] at hg
    obtain ⟨-, -, e, rfl⟩ := hg
    exact hone term node true
  | _ => simp [ElectionEvent.pubs, GroupMsg.grants]

/-- A call publishes a request only when it starts a candidacy. -/
theorem asks_pubs_of_ne (h : s.event g c ≠ .candidacy) (t : ℕ) (v : Id) :
    ((s.event g c).pubs g s.seat).countP (GroupMsg.asks t v) = 0 := by
  cases hev : s.event g c with
  | candidacy => exact absurd hev h
  | _ => simp [ElectionEvent.pubs, GroupMsg.asks]

/-! ### What a member has asked for -/

/-- The requests in a member's log are its own, one in a term. While it is a candidate there is
the one of the term, and no answer of its own to it. -/
structure Asked (g : Member Id) (s : GroupThread Id) : Prop where
  own : ∀ {t v}, .reqvote t v ∈ published s.sent → v = g.ownId
  once : ∀ t v, (published s.sent).countP (GroupMsg.asks t v) ≤ 1
  candidate : s.exc = none → s.state = .candidate →
    .reqvote s.term g.ownId ∈ published s.sent ∧ (published s.sent).countP (GroupMsg.grants s.term g.ownId) = 0

/-- In a term not reached yet nothing was asked or granted. -/
theorem countP_of_lt (hv : VoteInv s) {t : ℕ} (ht : s.term < t) (v : Id) :
    (published s.sent).countP (GroupMsg.asks t v) = 0 ∧ (published s.sent).countP (GroupMsg.grants t v) = 0 := by
  have hno : ¬ s.Voted t v := fun h => absurd (hv.le h) (by omega)
  constructor
  · rw [List.countP_eq_zero]
    intro m hm hasks
    exact hno (.inl (GroupMsg.asks_iff.mp hasks ▸ hm))
  · rw [List.countP_eq_zero]
    intro m hm hgrants
    obtain ⟨node, rfl⟩ := GroupMsg.grants_iff.mp hgrants
    exact hno (.inr ⟨node, hm⟩)

/-- A running candidate has just become one, or was one in the same term and has counted a vote
or not. -/
theorem candidate_call (hexc : (call g s c).exc = none) (hst : (call g s c).state = .candidate) :
    (s.event g c = .candidacy ∧ (call g s c).term = s.term + 1 ∧ (call g s c).votes = 1) ∨
      s.state = .candidate ∧ (call g s c).term = s.term ∧
        (∀ t v, ((s.event g c).pubs g s.seat).countP (GroupMsg.grants t v) = 0) ∧
        ((call g s c).votes = s.votes ∨
          (call g s c).votes = s.votes + 1 ∧ ∃ e term node, c = .net e (.rspvote term g.ownId true node)) := by
  have hterm := term_call g s c
  have hvotes : (call g s c).votes = ((s.event g c).apply g s.seat).votes := congrArg Seat.votes (seat_call g s c)
  have hg := guard_event g s c
  rw [state_call] at hst
  cases hev : s.event g c with
  | candidacy =>
    rw [hev] at hterm hvotes
    exact .inl ⟨rfl, hterm, hvotes⟩
  | candidacyFails =>
    rw [exc_of_candidacyFails hev] at hexc
    cases hexc
  | giveUp => rw [hev] at hst; cases hst
  | accept term leader server deadline => rw [hev] at hst; cases hst
  | defer term node => rw [hev] at hst; cases hst
  | win port => rw [hev] at hst; cases hst
  | winFails port => rw [hev] at hst; cases hst
  | answer term node =>
    rw [hev] at hst hg
    cases hg.1.symm.trans hst
  | announce port =>
    rw [hev] at hst hg
    cases hg.1.symm.trans hst
  | count =>
    rw [hev] at hterm hvotes hg
    exact .inr ⟨hg.1, hterm, fun t v => rfl, .inr ⟨hvotes, hg.2.2⟩⟩
  | refuse term node =>
    rw [hev] at hterm hvotes hg
    exact .inr ⟨hg.1, hterm, fun t v => by simp [ElectionEvent.pubs, GroupMsg.grants], .inl hvotes⟩
  | rearm deadline =>
    rw [hev] at hterm hvotes hst
    exact .inr ⟨hst, hterm, fun t v => rfl, .inl hvotes⟩
  | idle =>
    rw [hev] at hterm hvotes hst
    exact .inr ⟨hst, hterm, fun t v => rfl, .inl hvotes⟩

/-- **A call keeps the account of requests.** -/
theorem Asked.call (h : Asked g s) (hv : VoteInv s) : Asked g (call g s c) := by
  have hasks := fun t v => countP_published_call (g := g) (s := s) (c := c) (asks_isElection (t := t) (v := v))
  have hgrants := fun t v => countP_published_call (g := g) (s := s) (c := c) (grants_isElection (t := t) (v := v))
  have hmem : ∀ {m : GroupMsg Id}, m.isElection →
      (m ∈ published (GroupThread.call g s c).sent ↔ m ∈ published s.sent ∨ m ∈ (s.event g c).pubs g s.seat) := by
    intro m hm
    rw [sent_call, published_append, List.mem_append, mem_published_sends hm]
  refine ⟨fun {t v} hm => ?_, fun t v => ?_, fun hexc hst => ?_⟩
  · rcases (hmem rfl).mp hm with hm | hm
    · exact h.own hm
    · by_cases hev : s.event g c = .candidacy
      · rw [hev] at hm
        cases List.mem_singleton.mp hm
        rfl
      · exact absurd hm (List.countP_eq_zero.mp (asks_pubs_of_ne hev t v) _ · (by simp [GroupMsg.asks]))
  · rw [hasks]
    by_cases hev : s.event g c = .candidacy
    · rw [hev]
      by_cases ht : t = s.term + 1
      · rw [(countP_of_lt hv (by omega) v).1, Nat.zero_add]
        exact List.countP_le_length
      · have hnew : ((ElectionEvent.candidacy : ElectionEvent Id).pubs g s.seat).countP (GroupMsg.asks t v) = 0 := by
          rw [List.countP_eq_zero]
          intro m hm hask
          rw [List.mem_singleton.mp hm, GroupMsg.asks_iff] at hask
          cases hask
          exact ht rfl
        rw [hnew]
        exact h.once t v
    · rw [asks_pubs_of_ne hev]
      exact h.once t v
  · have hs := exc_of_call hexc
    rcases candidate_call hexc hst with ⟨hev, hterm, -⟩ | ⟨hst', hterm, hnone, -⟩
    · rw [hgrants, hterm, (countP_of_lt hv (Nat.lt_succ_self s.term) _).2, hmem rfl, hev]
      exact ⟨.inr (List.mem_singleton.mpr rfl), rfl⟩
    · obtain ⟨hasked, hzero⟩ := h.candidate hs hst'
      rw [hgrants, hterm, hzero, hnone, hmem rfl]
      exact ⟨.inl hasked, rfl⟩

theorem asked_start (g : Member Id) (e : Env g.toGroupParams) : Asked g (start g e) := by
  refine ⟨fun {t v} hm => ?_, fun t v => ?_, fun _ hc => ?_⟩
  · rcases sent_start g e with hsent | hsent <;> simp [hsent] at hm
  · rcases sent_start g e with hsent | hsent <;> simp [hsent, GroupMsg.asks]
  · cases (state_start g e).symm.trans hc

end GroupThread

/-! ### The account of votes -/

namespace Group

open GroupThread Broadcast

variable [DecidableEq ι] [Fintype ι] {G : Group ι Id} {n n' : G.net.Net}

/-- The account of votes in the group: each member's votes and requests are in order; a member
says yes to another one no more often than it has heard it ask; and the votes of a candidate are
its own and those that came to it. -/
structure Account (G : Group ι Id) (n : G.net.Net) : Prop where
  votes : ∀ i, VoteInv (n.node i)
  asked : ∀ i, Asked (G.member i) (n.node i)
  answered : ∀ i j t, (published (n.node i).sent).countP (GroupMsg.grants t (G.member j).ownId) ≤
    (n.heard i j).countP (GroupMsg.asks t (G.member j).ownId)
  counted : ∀ i, (n.node i).exc = none → (n.node i).state = .candidate →
    (n.node i).votes ≤ 1 + ∑ j, (n.heard i j).countP (GroupMsg.grants (n.node i).term (G.member i).ownId)

/-- **One member's call keeps the account**, when what the member has heard grows by the message
of the call. -/
theorem Account.of_call {i : ι} {c : Call Id (G.member i)} (h : Account G n)
    (hc : Steady (G.member i) (n.node i) c)
    (hterm : ∀ e t node, c = .net e (.rspvote t (G.member i).ownId true node) → (n.node i).state = .candidate →
      t = (n.node i).term)
    (hnode : ∀ k, n'.node k = if k = i then call (G.member i) (n.node i) c else n.node k)
    (hheard : ∀ k l, k ≠ i → n'.heard k l = n.heard k l)
    (hasks : ∀ l t, (n.heard i l).countP (GroupMsg.asks t (G.member l).ownId) +
      (heardOf c).countP (GroupMsg.asks t (G.member l).ownId) ≤
        (n'.heard i l).countP (GroupMsg.asks t (G.member l).ownId))
    (hgrants : ∀ t v, ∑ l, (n.heard i l).countP (GroupMsg.grants t v) + (heardOf c).countP (GroupMsg.grants t v) ≤
      ∑ l, (n'.heard i l).countP (GroupMsg.grants t v)) :
    Account G n' := by
  have hi : n'.node i = call (G.member i) (n.node i) c := by rw [hnode, if_pos rfl]
  have hne : ∀ k, k ≠ i → n'.node k = n.node k := fun k hk => by rw [hnode, if_neg hk]
  refine ⟨fun k => ?_, fun k => ?_, fun k j t => ?_, fun k hexc hst => ?_⟩
  · by_cases hk : k = i
    · subst hk
      rw [hi]
      exact (h.votes k).call hc
    · rw [hne k hk]
      exact h.votes k
  · by_cases hk : k = i
    · subst hk
      rw [hi]
      exact (h.asked k).call (h.votes k)
    · rw [hne k hk]
      exact h.asked k
  · by_cases hk : k = i
    · subst hk
      rw [hi, countP_published_call grants_isElection]
      calc (published (n.node k).sent).countP (GroupMsg.grants t (G.member j).ownId) +
            (((n.node k).event (G.member k) c).pubs (G.member k) (n.node k).seat).countP
              (GroupMsg.grants t (G.member j).ownId)
          ≤ (n.heard k j).countP (GroupMsg.asks t (G.member j).ownId) +
              (heardOf c).countP (GroupMsg.asks t (G.member j).ownId) :=
            Nat.add_le_add (h.answered k j t) (grants_le_asks t _)
        _ ≤ (n'.heard k j).countP (GroupMsg.asks t (G.member j).ownId) := hasks j t
    · rw [hne k hk, hheard k j hk]
      exact h.answered k j t
  · by_cases hk : k = i
    · subst hk
      rw [hi] at hexc hst ⊢
      rcases candidate_call hexc hst with ⟨-, -, hvotes⟩ | ⟨hst', hterm', -, hvotes⟩
      · rw [hvotes]
        exact Nat.le_add_right 1 _
      · have hcounted := h.counted k (exc_of_call hexc) hst'
        have hsum := hgrants (n.node k).term (G.member k).ownId
        rw [hterm']
        rcases hvotes with hvotes | ⟨hvotes, e, term, node, rfl⟩
        · omega
        · obtain rfl := hterm e term node rfl hst'
          have hone : (heardOf (.net e (.rspvote (n.node k).term (G.member k).ownId true node) :
              Call Id (G.member k))).countP (GroupMsg.grants (n.node k).term (G.member k).ownId) = 1 := by
            simp [heardOf, GroupMsg.grants]
          omega
    · rw [hne k hk] at hexc hst ⊢
      simp only [hheard k _ hk]
      exact h.counted k hexc hst

/-- A delivery is regular when the call it makes is steady, and a vote that a candidate counts is
of its term and, if it makes it win, with a threshold of more than half of the members. -/
def Regular (n : G.net.Net) : Move G.Own (fun i => Env (G.member i).toGroupParams) → Prop
  | .deliver i j e => ∀ m, n.next i j = some m →
      Steady (G.member i) (n.node i) (.net e m) ∧
        ∀ t node, m = .rspvote t (G.member i).ownId true node → (n.node i).state = .candidate →
          t = (n.node i).term ∧
            ((n.node i).threshold ≤ (n.node i).votes + 1 → Fintype.card ι < 2 * (n.node i).threshold)
  | _ => True

omit [DecidableEq Id] [DecidableEq ι] [Fintype ι] in
/-- Calls that are not of the network are steady. -/
theorem steady_own {i : ι} (c : G.Own i) (s : GroupThread Id) : Steady (G.member i) s c.1 := by
  obtain ⟨c, hc⟩ := c
  constructor
  · intro _ t ht
    cases c with
    | net e m => cases hc
    | _ => cases ht
  · rintro e node rfl
    cases hc

omit [DecidableEq Id] [DecidableEq ι] [Fintype ι] in
theorem heardOf_own {i : ι} (c : G.Own i) : heardOf c.1 = [] := by
  obtain ⟨c, hc⟩ := c
  cases c with
  | net e m => cases hc
  | _ => rfl

omit [DecidableEq ι] [Fintype ι] in
/-- A message that comes was published. -/
theorem mem_of_next {i j : ι} {m : GroupMsg Id} (h : n.next i j = some m) : m ∈ published (n.node j).sent :=
  (Net.heard_next_prefix h).subset (by simp)

/-- **A regular move keeps the account.** -/
theorem Account.step {a : Move G.Own fun i => Env (G.member i).toGroupParams} (h : Account G n) (ha : Regular n a) :
    Account G (Broadcast.step n a) := by
  cases a with
  | lose i j =>
    have hle : ∀ {p : GroupMsg Id → Bool} (k l : ι),
        (n.heard k l).countP p ≤ ((Broadcast.step n (.lose i j)).heard k l).countP p := fun k l =>
      (heard_lose k l).sublist.countP_le
    refine ⟨h.votes, h.asked, fun k l t => (h.answered k l t).trans (hle k l), fun k hexc hst => ?_⟩
    exact (h.counted k hexc hst).trans (Nat.add_le_add_left (Finset.sum_le_sum fun l _ => hle k l) 1)
  | act i c =>
    refine h.of_call (steady_own c _) ?_ (node_act c) (fun k l _ => heard_act c k l) (fun l t => ?_) (fun t v => ?_)
    · rintro e t node hc -
      have hnet := c.2
      rw [hc] at hnet
      cases hnet
    · rw [heardOf_own, heard_act]
      exact le_rfl
    · rw [heardOf_own]
      simp
  | deliver i j e =>
    cases hm : n.next i j with
    | none => rwa [step_deliver_of_none hm]
    | some m =>
      obtain ⟨hsteady, hvote⟩ := ha m hm
      refine h.of_call hsteady ?_ (node_deliver hm e) (fun k l hk => ?_) (fun l t => ?_) (fun t v => ?_)
      · rintro _ t node ⟨⟩ hst
        exact (hvote t node rfl hst).1
      · rw [heard_deliver hm, if_neg fun h => hk h.1]
      · rw [heard_deliver hm]
        by_cases hl : l = j
        · rw [if_pos ⟨rfl, hl⟩, List.countP_append]
          rfl
        · -- only member `l` asks for votes for itself
          have hzero : (heardOf (.net e m : Call Id (G.member i))).countP (GroupMsg.asks t (G.member l).ownId) = 0 := by
            rw [List.countP_eq_zero]
            intro m' hm' hask
            obtain rfl := List.mem_singleton.mp hm'
            rw [GroupMsg.asks_iff] at hask
            have hown := (h.asked j).own (hask ▸ mem_of_next hm)
            exact hl (G.ownId_inj hown)
          rw [if_neg fun h => hl h.2, hzero]
          exact le_rfl
      · have hsum : ∀ l, ((Broadcast.step n (.deliver i j e)).heard i l).countP (GroupMsg.grants t v) =
            (n.heard i l).countP (GroupMsg.grants t v) + if l = j then [m].countP (GroupMsg.grants t v) else 0 := by
          intro l
          rw [heard_deliver hm]
          by_cases hl : l = j <;> simp [hl]
        simp only [hsum, Finset.sum_add_distrib, Finset.sum_ite_eq', Finset.mem_univ, if_true]
        exact le_rfl

/-! ### Quorums -/

open Classical in
/-- The members that have given their yes to `v` in term `t`. -/
noncomputable def voters (n : G.net.Net) (t : ℕ) (v : Id) : Finset ι :=
  Finset.univ.filter fun j => (n.node j).Voted t v

omit [DecidableEq ι] in
theorem mem_voters {j : ι} {t : ℕ} {v : Id} : j ∈ voters n t v ↔ (n.node j).Voted t v := by
  simp [voters]

/-- **The votes for a candidate are those of different members**, its own one of them. -/
theorem Account.card_voters (h : Account G n) {i : ι} (hexc : (n.node i).exc = none)
    (hst : (n.node i).state = .candidate) :
    1 + ∑ j, (published (n.node j).sent).countP (GroupMsg.grants (n.node i).term (G.member i).ownId) ≤
      (voters n (n.node i).term (G.member i).ownId).card := by
  obtain ⟨hasked, hzero⟩ := (h.asked i).candidate hexc hst
  have hi : i ∈ voters n (n.node i).term (G.member i).ownId :=
    mem_voters.mpr (.inl hasked)
  have hone : ∀ j, (published (n.node j).sent).countP (GroupMsg.grants (n.node i).term (G.member i).ownId) ≤
      if j ∈ (voters n (n.node i).term (G.member i).ownId).erase i then 1 else 0 := by
    intro j
    by_cases hj : j ∈ (voters n (n.node i).term (G.member i).ownId).erase i
    · rw [if_pos hj]
      calc (published (n.node j).sent).countP (GroupMsg.grants (n.node i).term (G.member i).ownId)
          ≤ (n.heard j i).countP (GroupMsg.asks (n.node i).term (G.member i).ownId) := h.answered j i _
        _ ≤ (published (n.node i).sent).countP (GroupMsg.asks (n.node i).term (G.member i).ownId) :=
            (n.heard_prefix j i).sublist.countP_le
        _ ≤ 1 := (h.asked i).once _ _
    · rw [if_neg hj, Nat.le_zero]
      by_cases hji : j = i
      · rw [hji]
        exact hzero
      · rw [List.countP_eq_zero]
        intro m hm hgrants
        obtain ⟨node, rfl⟩ := GroupMsg.grants_iff.mp hgrants
        exact hj (Finset.mem_erase.mpr ⟨hji, mem_voters.mpr (.inr ⟨node, hm⟩)⟩)
  calc 1 + ∑ j, (published (n.node j).sent).countP (GroupMsg.grants (n.node i).term (G.member i).ownId)
      ≤ 1 + ∑ j, if j ∈ (voters n (n.node i).term (G.member i).ownId).erase i then 1 else 0 :=
        Nat.add_le_add_left (Finset.sum_le_sum fun j _ => hone j) 1
    _ = ((voters n (n.node i).term (G.member i).ownId).erase i).card + 1 := by
        rw [← Finset.card_filter, Finset.filter_mem_eq_inter, Finset.univ_inter, Nat.add_comm]
    _ = (voters n (n.node i).term (G.member i).ownId).card := Finset.card_erase_add_one hi

omit [DecidableEq ι] in
/-- Votes given stay given. -/
theorem voters_mono {t : ℕ} {v : Id} (h : ∀ j, (n.node j).Voted t v → (n'.node j).Voted t v) :
    voters n t v ⊆ voters n' t v := fun j hj => mem_voters.mpr (h j (mem_voters.mp hj))

/-- Member `i` becomes the leader when it goes from `s` to `s'`, and of what term. -/
def elected (i : ι) (s s' : GroupThread Id) : List (ι × ℕ) :=
  if s.state ≠ .leader ∧ s'.state = .leader then [(i, s'.term)] else []

/-- The members that a move makes the leader, and of what term. -/
def entered (n : G.net.Net) (a : Move G.Own fun i => Env (G.member i).toGroupParams) : List (ι × ℕ) :=
  match a with
  | .act i _ | .deliver i _ _ => elected i (n.node i) ((Broadcast.step n a).node i)
  | .lose _ _ => []

omit [DecidableEq Id] [DecidableEq ι] [Fintype ι] in
theorem mem_elected {i : ι} {s s' : GroupThread Id} {p : ι × ℕ} (h : p ∈ elected i s s') :
    s.state ≠ .leader ∧ s'.state = .leader ∧ p = (i, s'.term) := by
  unfold elected at h
  split at h
  · next hst => exact ⟨hst.1, hst.2, List.mem_singleton.mp h⟩
  · cases h

/-- More than half of the members gave their yes to member `p.1` in term `p.2`. -/
def HasQuorum (n : G.net.Net) (p : ι × ℕ) : Prop :=
  Fintype.card ι < 2 * (voters n p.2 (G.member p.1).ownId).card

omit [Fintype ι] in
/-- Votes stay given whatever the move. -/
theorem voted_step (a : Move G.Own fun i => Env (G.member i).toGroupParams) {k : ι} {t : ℕ} {v : Id}
    (h : (n.node k).Voted t v) : ((Broadcast.step n a).node k).Voted t v := by
  have hcall : ∀ c : Call Id (G.member k), (call (G.member k) (n.node k) c).Voted t v :=
    fun c => (voted_call _ _ c t v).mpr (.inl h)
  cases a with
  | lose i j => exact h
  | act i c =>
    rw [node_act]
    split
    · next hk =>
      subst hk
      exact hcall c.1
    · exact h
  | deliver i j e =>
    cases hm : n.next i j with
    | none => rwa [step_deliver_of_none hm]
    | some m =>
      rw [node_deliver hm]
      split
      · next hk =>
        subst hk
        exact hcall (.net e m)
      · exact h

theorem HasQuorum.step {p : ι × ℕ} (h : HasQuorum n p) (a : Move G.Own fun i => Env (G.member i).toGroupParams) :
    HasQuorum (Broadcast.step n a) p := by
  have hsub : voters n p.2 (G.member p.1).ownId ⊆ voters (Broadcast.step n a) p.2 (G.member p.1).ownId :=
    voters_mono fun _ hv => voted_step a hv
  exact h.trans_le (Nat.mul_le_mul_left 2 (Finset.card_le_card hsub))

/-- **Who is elected has a quorum.** -/
theorem Account.hasQuorum {a : Move G.Own fun i => Env (G.member i).toGroupParams} (h : Account G n)
    (ha : Regular n a) {p : ι × ℕ} (hp : p ∈ entered n a) : HasQuorum n p := by
  cases a with
  | lose i j => cases hp
  | act i c =>
    obtain ⟨hst, hst', -⟩ := mem_elected hp
    -- a member is elected by a vote, which comes from the network
    rw [node_act, if_pos rfl] at hst'
    obtain ⟨-, -, -, -, e, t, node, hc⟩ := leader_of_call hst hst'
    have hnet := c.2
    rw [hc] at hnet
    cases hnet
  | deliver i j e =>
    obtain ⟨hst, hst', hp⟩ := mem_elected hp
    cases hm : n.next i j with
    | none =>
      rw [step_deliver_of_none hm] at hst'
      exact absurd hst' hst
    | some m =>
      rw [node_deliver hm, if_pos rfl] at hst' hp
      obtain ⟨hexc, hcand, hterm, hvotes, e', t, node, hc⟩ := leader_of_call hst hst'
      cases hc
      obtain ⟨-, hvote⟩ := ha _ hm
      obtain ⟨rfl, hmajority⟩ := hvote t node rfl hcand
      have hlt : ∑ l, (n.heard i l).countP (GroupMsg.grants (n.node i).term (G.member i).ownId) <
          ∑ l, (published (n.node l).sent).countP (GroupMsg.grants (n.node i).term (G.member i).ownId) := by
        refine Finset.sum_lt_sum (fun l _ => (n.heard_prefix i l).sublist.countP_le) ⟨j, Finset.mem_univ j, ?_⟩
        have hle := (Net.heard_next_prefix hm).sublist.countP_le
          (p := GroupMsg.grants (n.node i).term (G.member i).ownId)
        have hone : [GroupMsg.rspvote (n.node i).term (G.member i).ownId true node].countP
            (GroupMsg.grants (n.node i).term (G.member i).ownId) = 1 := by simp [GroupMsg.grants]
        rw [List.countP_append, hone] at hle
        exact hle
      have hcounted := h.counted i hexc hcand
      have hcard := h.card_voters hexc hcand
      have hN := hmajority hvotes
      have hp' : p = (i, (n.node i).term) := hp.trans (congrArg (Prod.mk i) hterm)
      rw [hp']
      unfold HasQuorum
      simp only
      omega

omit [DecidableEq ι] in
/-- Two quorums of a term have a member in common, and its vote is for one member. -/
theorem HasQuorum.unique (h : Account G n) {i j : ι} {t : ℕ} (hi : HasQuorum n (i, t)) (hj : HasQuorum n (j, t)) :
    i = j := by
  classical
  obtain ⟨k, hk⟩ : (voters n t (G.member i).ownId ∩ voters n t (G.member j).ownId).Nonempty := by
    refine Finset.inter_nonempty_of_card_lt_card_add_card (Finset.subset_univ _) (Finset.subset_univ _) ?_
    rw [Finset.card_univ]
    unfold HasQuorum at hi hj
    simp only at hi hj
    omega
  obtain ⟨hki, hkj⟩ := Finset.mem_inter.mp hk
  exact G.ownId_inj ((h.votes k).unique (mem_voters.mp hki) (mem_voters.mp hkj))

omit [DecidableEq ι] in
theorem account_start (G : Group ι Id) (e : ∀ i, Env (G.member i).toGroupParams) : Account G (G.start e) := by
  refine ⟨fun i => voteInv_start _ _, fun i => asked_start _ _, fun i j t => ?_, fun i _ hst => ?_⟩
  · rcases sent_start (G.member i) (e i) with hsent | hsent <;> simp [start, hsent, GroupMsg.grants]
  · cases (state_start (G.member i) (e i)).symm.trans hst

/-- **Election safety**: in a run of the group whose moves are regular, at most one member
becomes the leader in a term. -/
theorem election_safety (G : Group ι Id) (e : ∀ i, Env (G.member i).toGroupParams)
    (as : List (Move G.Own fun i => Env (G.member i).toGroupParams))
    (h : AllSteps Broadcast.step Regular (G.start e) as) {i j : ι} {t : ℕ}
    (hi : (i, t) ∈ collect Broadcast.step entered (G.start e) as)
    (hj : (j, t) ∈ collect Broadcast.step entered (G.start e) as) : i = j := by
  have hinv : ∀ (n : G.net.Net) a l, Account G n ∧ (∀ p ∈ l, HasQuorum n p) → Regular n a →
      Account G (Broadcast.step n a) ∧ ∀ p ∈ l ++ entered n a, HasQuorum (Broadcast.step n a) p := by
    rintro n a l ⟨hacc, hl⟩ ha
    refine ⟨hacc.step ha, fun p hp => ?_⟩
    rcases List.mem_append.mp hp with hp | hp
    · exact (hl p hp).step a
    · exact (hacc.hasQuorum ha hp).step a
  obtain ⟨hacc, hquorum⟩ := h.inv_collect Broadcast.step entered hinv (l := [])
    ⟨account_start G e, fun p hp => absurd hp List.not_mem_nil⟩
  rw [List.nil_append] at hquorum
  exact (hquorum _ hi).unique hacc (hquorum _ hj)

/-! ### Two groups -/

/-- A group of `N` standard members. -/
def standard (N : ℕ) : Group (Fin N) ℕ where
  member i := Member.standard i
  ownId_inj _ _ h := Fin.val_injective h

/-- The standard group, started at time 100. -/
def started (N : ℕ) : (standard N).net.Net := (standard N).start fun _ => .least _ 100

/-- The next message from `j` comes to `i` at time `now`. -/
def hears {N : ℕ} (now : ℚ) (i j : Fin N) : Move (standard N).Own fun i => Env ((standard N).member i).toGroupParams :=
  .deliver i j (.least _ now)

/-- Nothing comes to `i` in time, at time `now`. -/
def timesOut {N : ℕ} (now : ℚ) (i : Fin N) : Move (standard N).Own fun i => Env ((standard N).member i).toGroupParams :=
  .act i ⟨.timeout (.least _ now), rfl⟩

omit [DecidableEq ι] in
/-- A delivery of a heartbeat is regular. -/
theorem regular_of_heartbeat {i j : ι} {e : Env (G.member i).toGroupParams} {p : Id}
    (h : n.next i j = some (.heartbeat p)) : Regular n (.deliver i j e) := by
  intro m hm
  obtain rfl := Option.some.inj (h.symm.trans hm)
  refine ⟨⟨fun _ t ht => ?_, fun e node hc => ?_⟩, fun t node hc => ?_⟩
  · cases ht
  · cases hc
  · cases hc

/-- A group of two elects member 0, and therefore not member 1. -/
theorem election_safety_of_two :
    (1, 1) ∉ collect Broadcast.step entered (started 2)
      [hears 101 0 0, hears 101 0 1, timesOut 103 0, hears 103 1 0, hears 103 1 0, hears 103 0 1] := by
  intro h
  refine absurd (election_safety (standard 2) (fun _ => .least _ 100) _ ?_ (i := 0) (j := 1) (t := 1)
    (by decide +kernel) h) (by decide)
  refine allSteps_cons.mpr ⟨regular_of_heartbeat (p := 0) (by decide +kernel), ?_⟩
  refine allSteps_cons.mpr ⟨regular_of_heartbeat (p := 1) (by decide +kernel), ?_⟩
  refine allSteps_cons.mpr ⟨trivial, ?_⟩
  refine allSteps_cons.mpr ⟨regular_of_heartbeat (p := 0) (by decide +kernel), ?_⟩
  refine allSteps_cons.mpr ⟨?_, allSteps_cons.mpr ⟨?_, allSteps_nil⟩⟩
  · intro m hm
    obtain rfl : GroupMsg.reqvote 1 0 = m := Option.some.inj (Eq.trans (by decide +kernel) hm)
    refine ⟨⟨by decide +kernel, fun e node hc => ?_⟩, fun t node hc => by cases hc⟩
    -- member 1 is still in term 0
    rw [Call.net.injEq, GroupMsg.reqvote.injEq] at hc
    exact absurd hc.2.1 (by decide +kernel)
  · intro m hm
    obtain rfl : GroupMsg.rspvote 1 0 true 1 = m := Option.some.inj (Eq.trans (by decide +kernel) hm)
    refine ⟨⟨by decide +kernel, fun e node hc => by cases hc⟩, fun t node hc _ => ?_⟩
    cases hc
    decide +kernel

/-- Member 0 of four hears from itself and from member 2 only, and member 1 from itself and from
member 3, and each of them has the vote of the other it hears from. -/
def twoHalves : List (Move (standard 4).Own fun i => Env ((standard 4).member i).toGroupParams) :=
  [hears 101 0 0, hears 101 0 2, hears 101 1 1, hears 101 1 3, timesOut 103 0, timesOut 103 1, hears 103 2 0,
    hears 103 2 0, hears 103 3 1, hears 103 3 1, hears 103 0 2, hears 103 1 3]

/-- Two votes are a majority of the two peers that each knows of: both are elected in term 1. -/
theorem two_leaders_in_one_term :
    ¬ ∀ i j t, (i, t) ∈ collect Broadcast.step entered (started 4) twoHalves →
      (j, t) ∈ collect Broadcast.step entered (started 4) twoHalves → i = j := by
  intro h
  exact absurd (h 0 1 1 (by decide +kernel) (by decide +kernel)) (by decide)

end Group

end Riaps.Coordination
