import Riaps.Coordination.Elections

/-!
# Two leaders

What becomes of two members that both lead and hear of each other. A leader
gives way to another one of its own term, whoever it is, and to no other
(`leaderAuthority`). So of two leaders of one term both give way, each to the
other, and of two leaders of different terms neither does: the conflict is never
resolved (`conflict_not_resolved`).

What each of them has sent is known from an invariant: a member is elected at
most once before an exception ends its thread, so all the `AUTHORITY` messages
of a leader are of the term in which it leads (`LeaderInv`).
-/

namespace Riaps.Coordination

open Riaps.Foundation

universe u

variable {Id : Type u} [DecidableEq Id]

namespace GroupThread

/-! ### What a leader has sent -/

/-- A running thread has published no `AUTHORITY` before it was elected, and as the leader
only such as are of its term and its own. -/
structure LeaderInv (g : Member Id) (s : GroupThread Id) : Prop where
  unelected : s.ansPort.portNum = none →
    s.state ≠ .leader ∧ ∀ term leader host port, .authority term leader host port ∉ published s.sent
  leading : s.state = .leader → ∀ {term leader host port},
    .authority term leader host port ∈ published s.sent → term = s.term ∧ leader = g.ownId

theorem mem_authority_call {g : Member Id} {s : GroupThread Id} {c : Call Id g} {term : ℕ} {leader : Id}
    {host port : ℕ} :
    .authority term leader host port ∈ published (call g s c).sent ↔
      .authority term leader host port ∈ published s.sent ∨
        .authority term leader host port ∈ (s.event g c).pubs g s.seat := by
  rw [sent_call, published_append, List.mem_append, ← elections_sends, mem_elections]
  simp [GroupMsg.isElection]

/-- An event that publishes no `AUTHORITY` keeps the invariant, if it leaves the answer port
and either keeps the term of a leader or ends with a follower or a candidate. -/
theorem LeaderInv.of_event {g : Member Id} {s : GroupThread Id} {c : Call Id g} {ev : ElectionEvent Id}
    (h : LeaderInv g s) (hev : s.event g c = ev)
    (hpubs : ∀ term leader host port, .authority term leader host port ∉ ev.pubs g s.seat)
    (hport : (ev.apply g s.seat).portNum = s.ansPort.portNum)
    (hst : (ev.apply g s.seat).state = .leader → s.state = .leader ∧ (ev.apply g s.seat).term = s.term) :
    LeaderInv g (call g s c) := by
  subst hev
  have hseat := seat_call g s c
  have hmem : ∀ {term leader host port}, .authority term leader host port ∈ published (call g s c).sent →
      .authority term leader host port ∈ published s.sent := fun hm =>
    (mem_authority_call.mp hm).resolve_right (hpubs _ _ _ _)
  refine ⟨fun hp => ?_, fun hl {term leader host port} hm => ?_⟩
  · have hp' : s.ansPort.portNum = none := hport.symm.trans ((congrArg Seat.portNum hseat).symm.trans hp)
    obtain ⟨hne, hno⟩ := h.unelected hp'
    refine ⟨fun hl => hne (hst ?_).1, fun _ _ _ _ hm => hno _ _ _ _ (hmem hm)⟩
    rw [← hseat]
    exact hl
  · obtain ⟨hl', hterm⟩ := hst (by rw [← hseat]; exact hl)
    rw [← hseat] at hterm
    rw [show (call g s c).term = s.term from hterm]
    exact h.leading hl' (hmem hm)

/-- **The invariant holds as long as the thread runs.** A second election would end it. -/
theorem leaderInv_call {g : Member Id} {s : GroupThread Id} {c : Call Id g} (h : LeaderInv g s)
    (hexc : (call g s c).exc = none) : LeaderInv g (call g s c) := by
  have hseat := seat_call g s c
  have hg := guard_event g s c
  cases hev : s.event g c with
  | winFails port => exact absurd hexc (exc_of_winFails hev)
  | win port =>
    rw [hev] at hg hseat
    obtain ⟨-, -, hnone, -⟩ := hg
    obtain ⟨-, hno⟩ := h.unelected hnone
    refine ⟨fun hp => ?_, fun _ {term leader host port'} hm => ?_⟩
    · cases (congrArg Seat.portNum hseat).symm.trans hp
    · rw [mem_authority_call, hev] at hm
      rcases hm with hm | hm
      · exact absurd hm (hno _ _ _ _)
      · obtain ⟨rfl, rfl, -⟩ : term = s.term ∧ leader = g.ownId ∧ _ := by
          simpa [ElectionEvent.pubs, seat] using hm
        exact ⟨(congrArg Seat.term hseat).symm, rfl⟩
  | announce port =>
    rw [hev] at hg hseat
    have hport : (call g s c).ansPort.portNum = s.ansPort.portNum := congrArg Seat.portNum hseat
    have hterm : (call g s c).term = s.term := congrArg Seat.term hseat
    refine ⟨fun hp => absurd hg.1 (h.unelected (hport ▸ hp)).1, fun _ {term leader host port'} hm => ?_⟩
    rw [mem_authority_call, hev] at hm
    rcases hm with hm | hm
    · rw [hterm]
      exact h.leading hg.1 hm
    · obtain ⟨rfl, rfl, -⟩ : term = s.term ∧ leader = g.ownId ∧ _ := by
        simpa [ElectionEvent.pubs, seat] using hm
      exact ⟨hterm.symm, rfl⟩
  | answer term node =>
    rw [hev] at hg
    refine h.of_event hev (by simp [ElectionEvent.pubs]) rfl fun hl => ?_
    cases hg.1.symm.trans hl
  | accept term leader server deadline => exact h.of_event hev (by simp [ElectionEvent.pubs]) rfl (by rintro ⟨⟩)
  | candidacy => exact h.of_event hev (by simp [ElectionEvent.pubs]) rfl (by rintro ⟨⟩)
  | candidacyFails => exact h.of_event hev (by simp [ElectionEvent.pubs]) rfl (by rintro ⟨⟩)
  | giveUp => exact h.of_event hev (by simp [ElectionEvent.pubs]) rfl (by rintro ⟨⟩)
  | defer term node => exact h.of_event hev (by simp [ElectionEvent.pubs]) rfl (by rintro ⟨⟩)
  | _ => exact h.of_event hev (by simp [ElectionEvent.pubs]) rfl fun hl => ⟨hl, rfl⟩

omit [DecidableEq Id] in
theorem leaderInv_start (g : Member Id) (e : Env g.toGroupParams) : LeaderInv g (start g e) := by
  have hno : ∀ term leader host port, .authority term leader host port ∉ published (start g e).sent := by
    intro term leader host port
    rcases sent_start g e with hsent | hsent <;> simp [hsent]
  exact ⟨fun _ => ⟨by simp [state_start], hno⟩, fun _ {_ _ _ _} hm => absurd hm (hno _ _ _ _)⟩

theorem Reachable.leaderInv {g : Member Id} {s : GroupThread Id} (h : Reachable g s) (hs : s.exc = none) :
    LeaderInv g s := by
  obtain ⟨e, cs, rfl⟩ := h
  refine inv_run (I := fun s => s.exc = none → LeaderInv g s) (fun s c hI hc => ?_) (fun _ => leaderInv_start g e) cs hs
  by_cases hexc : s.exc = none
  · exact leaderInv_call (hI hexc) hc
  · rw [call_of_exc hexc] at hc
    exact absurd hc hexc

/-! ### An `AUTHORITY` comes in -/

theorem exc_authority (g : Member Id) (e : Env g.toGroupParams) (term : ℕ) (leader : Id) (host port : ℕ)
    (s : GroupThread Id) : (s.handleNetMessage g e (.authority term leader host port)).exc = s.exc := by
  unfold handleNetMessage
  cases s.state with
  | follower =>
    simp only [followerAuthority, setLeader_eq, qryUpdate]
    split <;> rfl
  | candidate =>
    simp only [candidateAuthority, acceptLeader, setLeader_eq, qryUpdate]
    rfl
  | leader =>
    simp only [leaderAuthority, acceptLeader, setLeader_eq, qryUpdate]
    split <;> rfl

/-- The loop wakes up, or there comes an `AUTHORITY` that `sender` has sent. -/
def Hears {g : Member Id} (sender : GroupThread Id) : Call Id g → Prop
  | .wake _ => True
  | .net _ (.authority term leader host port) => .authority term leader host port ∈ published sender.sent
  | _ => False

/-- A call of the network, and no other. -/
def isNet {g : Member Id} : Call Id g → Bool
  | .net _ _ => true
  | _ => false

omit [DecidableEq Id] in
/-- What a leader hears from another one: the term and the id are always the same. -/
theorem Hears.cases {g g' : Member Id} {sender : GroupThread Id} {c : Call Id g} (h : Hears sender c)
    (hinv : LeaderInv g' sender) (hl : sender.state = .leader) :
    (∃ e, c = .wake e) ∨ ∃ e host port, c = .net e (.authority sender.term g'.ownId host port) := by
  cases c with
  | wake e => exact Or.inl ⟨e, rfl⟩
  | net e m =>
    cases m with
    | authority term leader host port =>
      obtain ⟨rfl, rfl⟩ := hinv.leading hl h
      exact Or.inr ⟨e, host, port, rfl⟩
    | _ => exact h.elim
  | _ => exact h.elim

/-- A running thread that leads in term `t`. -/
def Leads (t : ℕ) (s : GroupThread Id) : Prop := s.exc = none ∧ s.state = .leader ∧ s.term = t

/-- A running thread that follows `b`. -/
def Follows (b : Id) (s : GroupThread Id) : Prop := s.exc = none ∧ s.state = .follower ∧ s.leader = some b

theorem exc_hears {g : Member Id} {s : GroupThread Id} {c : Call Id g} (hs : s.exc = none)
    (hc : (∃ e, c = .wake e) ∨ ∃ e t b host port, c = .net e (.authority t b host port)) : (call g s c).exc = none := by
  rcases hc with ⟨e, rfl⟩ | ⟨e, t, b, host, port, rfl⟩
  · simpa [call, hs] using (exc_wake g e.now s).trans hs
  · simpa [call, hs] using (exc_authority g e t b host port s).trans hs

/-- A follower of `b` remains one. -/
theorem Follows.hears {g : Member Id} {s : GroupThread Id} {c : Call Id g} {t : ℕ} {b : Id} (h : Follows b s)
    (hc : (∃ e, c = .wake e) ∨ ∃ e host port, c = .net e (.authority t b host port)) : Follows b (call g s c) := by
  obtain ⟨hs, hst, hb⟩ := h
  rcases hc with ⟨e, rfl⟩ | ⟨e, host, port, rfl⟩
  · have hseat := seat_wake e s
    exact ⟨exc_hears hs (Or.inl ⟨e, rfl⟩), (congrArg Seat.state hseat).trans hst, (congrArg Seat.leader hseat).trans hb⟩
  · obtain ⟨server, hev⟩ := event_authority e (t := t) (b := b) host port hs (by simp [hst])
    have hseat := seat_call g s (.net e (.authority t b host port))
    rw [hev] at hseat
    exact ⟨exc_hears hs (Or.inr ⟨e, t, b, host, port, rfl⟩), congrArg Seat.state hseat, congrArg Seat.leader hseat⟩

/-- A leader that hears from another one of its term follows it. -/
theorem Leads.hears_same {g : Member Id} {s : GroupThread Id} {t : ℕ} {b : Id} (h : Leads t s) (hb : g.ownId ≠ b)
    (e : Env g.toGroupParams) (host port : ℕ) : Follows b (call g s (.net e (.authority t b host port))) := by
  obtain ⟨hs, hst, ht⟩ := h
  obtain ⟨server, hev⟩ := event_authority e (t := t) (b := b) host port hs (fun _ => ⟨ht, hb⟩)
  have hseat := seat_call g s (.net e (.authority t b host port))
  rw [hev] at hseat
  exact ⟨exc_hears hs (Or.inr ⟨e, t, b, host, port, rfl⟩), congrArg Seat.state hseat, congrArg Seat.leader hseat⟩

/-- A leader that wakes up, or hears from a leader of another term, goes on leading. -/
theorem Leads.hears_other {g : Member Id} {s : GroupThread Id} {c : Call Id g} {t u : ℕ} {b : Id} (h : Leads t s)
    (hc : (∃ e, c = .wake e) ∨ t ≠ u ∧ ∃ e host port, c = .net e (.authority u b host port)) :
    Leads t (call g s c) := by
  obtain ⟨hs, hst, ht⟩ := h
  rcases hc with ⟨e, rfl⟩ | ⟨hne, e, host, port, rfl⟩
  · have hseat := seat_wake e s
    exact ⟨exc_hears hs (Or.inl ⟨e, rfl⟩), (congrArg Seat.state hseat).trans hst, (congrArg Seat.term hseat).trans ht⟩
  · have hev : s.event g (.net e (.authority u b host port)) = .idle := by
      simp only [event, hs, hst, ht, hne, false_and, ne_eq, not_true_eq_false, if_false]
    have hseat := seat_call g s (.net e (.authority u b host port))
    rw [hev] at hseat
    exact ⟨exc_hears hs (Or.inr ⟨e, u, b, host, port, rfl⟩), (congrArg Seat.state hseat).trans hst,
      (congrArg Seat.term hseat).trans ht⟩

/-! ### Two leaders hear of each other -/

/-- Of two leaders of one term each one that hears from the other follows it. -/
theorem Leads.run_same {g : Member Id} {s : GroupThread Id} {t : ℕ} {b : Id} {cs : List (Call Id g)} (h : Leads t s)
    (hb : g.ownId ≠ b)
    (hcs : ∀ c ∈ cs, (∃ e, c = .wake e) ∨ ∃ e host port, c = .net e (.authority t b host port))
    (hnet : ∃ c ∈ cs, isNet c) : Follows b (run (call g) s cs) := by
  induction cs generalizing s with
  | nil => simp at hnet
  | cons c cs ih =>
    have hcs' := fun d hd => hcs d (List.mem_cons_of_mem c hd)
    rcases hcs c List.mem_cons_self with ⟨e, rfl⟩ | ⟨e, host, port, rfl⟩
    · refine ih (h.hears_other (b := b) (u := t) (Or.inl ⟨e, rfl⟩)) hcs' ?_
      obtain ⟨d, hd, hdn⟩ := hnet
      rcases List.mem_cons.mp hd with rfl | hd
      · cases hdn
      · exact ⟨d, hd, hdn⟩
    · -- from here on it follows, whatever else comes
      have hall : AllSteps (call g) (fun _ c => (∃ e, c = .wake e) ∨
          ∃ e host port, c = .net e (.authority t b host port)) (call g s (.net e (.authority t b host port))) cs :=
        fun pre c hpre => hcs' c (hpre.subset (by simp))
      rw [run_cons]
      exact hall.inv (fun _ _ hf hc => hf.hears hc) (h.hears_same hb e host port)

/-- Of two leaders of different terms both go on leading. -/
theorem Leads.run_other {g : Member Id} {s : GroupThread Id} {t t' : ℕ} {b : Id} {cs : List (Call Id g)}
    (h : Leads t s) (hne : t ≠ t')
    (hcs : ∀ c ∈ cs, (∃ e, c = .wake e) ∨ ∃ e host port, c = .net e (.authority t' b host port)) :
    Leads t (run (call g) s cs) := by
  have hall : AllSteps (call g) (fun _ c => (∃ e, c = .wake e) ∨
      ∃ e host port, c = .net e (.authority t' b host port)) s cs := fun pre c hpre => hcs c (hpre.subset (by simp))
  exact hall.inv (fun _ _ hl hc => hl.hears_other (hc.imp_right fun hc => ⟨hne, hc⟩)) h

/-- Exactly one of the two still leads, and the other one follows it. -/
def Resolved (g₁ g₂ : Member Id) (p : GroupThread Id × GroupThread Id) : Prop :=
  p.1.state = .leader ∧ p.2.state = .follower ∧ p.2.leader = some g₁.ownId ∨
    p.2.state = .leader ∧ p.1.state = .follower ∧ p.1.leader = some g₂.ownId

section TwoLeaders

variable {g₁ g₂ : Member Id} {s₁ s₂ : GroupThread Id}

/-- What happens to two leaders when each hears what the other has sent: of one term they
end as followers of each other, of different terms they both go on leading. -/
theorem two_leaders (hid : g₁.ownId ≠ g₂.ownId) (h₁ : Reachable g₁ s₁) (h₂ : Reachable g₂ s₂)
    (hl₁ : Leads s₁.term s₁) (hl₂ : Leads s₂.term s₂) (ds : List (Call Id g₁ ⊕ Call Id g₂))
    (hds : ∀ d ∈ ds, d.elim (Hears s₂) (Hears s₁)) (hd₁ : ∃ c, isNet c ∧ Sum.inl c ∈ ds)
    (hd₂ : ∃ c, isNet c ∧ Sum.inr c ∈ ds) :
    (s₁.term = s₂.term → Follows g₂.ownId (run (both (call g₁) (call g₂)) (s₁, s₂) ds).1 ∧
      Follows g₁.ownId (run (both (call g₁) (call g₂)) (s₁, s₂) ds).2) ∧
    (s₁.term ≠ s₂.term → Leads s₁.term (run (both (call g₁) (call g₂)) (s₁, s₂) ds).1 ∧
      Leads s₂.term (run (both (call g₁) (call g₂)) (s₁, s₂) ds).2) := by
  have hc₁ : ∀ c ∈ ds.filterMap Sum.getLeft?, (∃ e, c = .wake e) ∨
      ∃ e host port, c = .net e (.authority s₂.term g₂.ownId host port) := by
    intro c hc
    obtain ⟨d, hd, hdc⟩ := List.mem_filterMap.mp hc
    obtain rfl := Sum.getLeft?_eq_some_iff.mp hdc
    exact (hds _ hd).cases (h₂.leaderInv hl₂.1) hl₂.2.1
  have hc₂ : ∀ c ∈ ds.filterMap Sum.getRight?, (∃ e, c = .wake e) ∨
      ∃ e host port, c = .net e (.authority s₁.term g₁.ownId host port) := by
    intro c hc
    obtain ⟨d, hd, hdc⟩ := List.mem_filterMap.mp hc
    obtain rfl := Sum.getRight?_eq_some_iff.mp hdc
    exact (hds _ hd).cases (h₁.leaderInv hl₁.1) hl₁.2.1
  rw [run_both]
  refine ⟨fun ht => ⟨?_, ?_⟩, fun ht => ⟨hl₁.run_other ht hc₁, hl₂.run_other (Ne.symm ht) hc₂⟩⟩
  · obtain ⟨c, hc, hmem⟩ := hd₁
    refine hl₁.run_same hid (by rwa [ht]) ⟨c, List.mem_filterMap.mpr ⟨_, hmem, rfl⟩, hc⟩
  · obtain ⟨c, hc, hmem⟩ := hd₂
    refine hl₂.run_same (Ne.symm hid) (by rwa [← ht]) ⟨c, List.mem_filterMap.mpr ⟨_, hmem, rfl⟩, hc⟩

/-- **A conflict of leaders is never resolved** by what they have sent to each other. -/
theorem conflict_not_resolved (hid : g₁.ownId ≠ g₂.ownId) (h₁ : Reachable g₁ s₁) (h₂ : Reachable g₂ s₂)
    (hx₁ : s₁.exc = none) (hx₂ : s₂.exc = none) (hl₁ : s₁.state = .leader) (hl₂ : s₂.state = .leader)
    (ds : List (Call Id g₁ ⊕ Call Id g₂)) (hds : ∀ d ∈ ds, d.elim (Hears s₂) (Hears s₁))
    (hd₁ : ∃ c, isNet c ∧ Sum.inl c ∈ ds) (hd₂ : ∃ c, isNet c ∧ Sum.inr c ∈ ds) :
    ¬ Resolved g₁ g₂ (run (both (call g₁) (call g₂)) (s₁, s₂) ds) := by
  obtain ⟨hsame, hother⟩ := two_leaders hid h₁ h₂ ⟨hx₁, hl₁, rfl⟩ ⟨hx₂, hl₂, rfl⟩ ds hds hd₁ hd₂
  by_cases ht : s₁.term = s₂.term
  · obtain ⟨⟨-, hf₁, -⟩, -, hf₂, -⟩ := hsame ht
    rintro (⟨hl, -⟩ | ⟨hl, -⟩)
    · cases hf₁.symm.trans hl
    · cases hf₂.symm.trans hl
  · obtain ⟨⟨-, hf₁, -⟩, -, hf₂, -⟩ := hother ht
    rintro (⟨-, hl, -⟩ | ⟨-, hl, -⟩)
    · cases hf₂.symm.trans hl
    · cases hf₁.symm.trans hl

end TwoLeaders

/-- Member `own` after it was elected in term `t` by `voter`, the only other member that it
has heard of. It first hears `m`. -/
def elected (own voter t : ℕ) (m : GroupMsg ℕ) : GroupThread ℕ :=
  run (call (Member.standard own)) (start (Member.standard own) (.least _ 100))
    [.net (.least _ 100) m, .net (.least _ 101) (.heartbeat own), .net (.least _ 101) (.heartbeat voter),
      .timeout (.least _ 103), .net (.least _ 103) (.rspvote t own true voter)]

/-- What the leaders 0 and 1 hear from each other. -/
def crossing (t₀ t₁ : ℕ) : List (Call ℕ (Member.standard 0) ⊕ Call ℕ (Member.standard 1)) :=
  [.inl (.net (.least _ 104) (.authority t₁ 1 0x7f000001 49152)),
    .inr (.net (.least _ 104) (.authority t₀ 0 0x7f000001 49152))]

/-- Leader 1 of term 2, which does not hear from leader 0 of term 1 any more, and that leader:
both go on. -/
theorem conflict_not_resolved_two_terms :
    ¬ Resolved (Member.standard 0) (Member.standard 1)
      (run (both (call (Member.standard 0)) (call (Member.standard 1)))
        (elected 0 2 1 (.heartbeat 0), elected 1 3 2 (.authority 1 0 0x7f000001 49152)) (crossing 1 2)) := by
  refine conflict_not_resolved (by decide) ⟨_, _, rfl⟩ ⟨_, _, rfl⟩ (by decide +kernel) (by decide +kernel)
    (by decide +kernel) (by decide +kernel) (crossing 1 2) ?_ ⟨_, rfl, List.mem_cons_self⟩
    ⟨_, rfl, List.mem_cons_of_mem _ List.mem_cons_self⟩
  rw [crossing, List.forall_mem_cons, List.forall_mem_singleton]
  constructor
  · show (.authority 2 1 0x7f000001 49152 : GroupMsg ℕ) ∈ published (elected 1 3 2 _).sent
    decide +kernel
  · show (.authority 1 0 0x7f000001 49152 : GroupMsg ℕ) ∈ published (elected 0 2 1 _).sent
    decide +kernel

/-- Two leaders of term 1 that hear from each other end as followers of each other. -/
theorem conflict_of_one_term :
    (elected 0 2 1 (.heartbeat 0)).state = .leader ∧ (elected 1 3 1 (.heartbeat 1)).state = .leader ∧
      .authority 1 0 0x7f000001 49152 ∈ published (elected 0 2 1 (.heartbeat 0)).sent ∧
      .authority 1 1 0x7f000001 49152 ∈ published (elected 1 3 1 (.heartbeat 1)).sent ∧
      ¬ Resolved (Member.standard 0) (Member.standard 1)
        (run (both (call (Member.standard 0)) (call (Member.standard 1)))
          (elected 0 2 1 (.heartbeat 0), elected 1 3 1 (.heartbeat 1)) (crossing 1 1)) := by
  refine ⟨by decide +kernel, by decide +kernel, by decide +kernel, by decide +kernel, ?_⟩
  unfold Resolved
  decide +kernel

end GroupThread

end Riaps.Coordination
