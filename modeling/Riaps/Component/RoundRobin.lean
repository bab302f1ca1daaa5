import Riaps.Component.Dispatch

/-!
# The order of a round

The round-robin scheduler sorts the jobs of a round by their tags and, if there are
jobs from earlier rounds in its deque, rotates them, so that those behind the tag of the
last job come first. The rotation takes its two parts by slices of the sorted list,
`jobs[-first:]` and `jobs[0:first]`, where `first` is the number of tags up to `last`:
as many from the end as from the start. That is a rotation only if they are half of
the jobs each.

`addsInTurn_iff` says which rounds add the jobs as they should; with tags that are not
distinct the sort raises an exception.
-/

namespace Riaps.Component

open Riaps.Foundation

universe u

variable {S : Type u}

namespace Scheduler

/-- The jobs of sockets that have tags. -/
def tagged [DecidableEq S] (sock2PrioMap : Dict S ℤ) (sockets : List S) : List (ℤ × S) :=
  sockets.filterMap fun socket => (sock2PrioMap.get? socket).map fun tag => (tag, socket)

/-- In increasing order of tags. -/
def InOrder (jobs : List (ℤ × S)) : Prop := jobs.Pairwise fun a b => a.1 ≤ b.1

/-- In the cyclic order of tags that starts with the smallest that is greater than `last`. -/
def InTurn (last : ℤ) (jobs : List (ℤ × S)) : Prop :=
  ∃ greater others, jobs = greater ++ others ∧ InOrder greater ∧ InOrder others ∧
    (∀ job ∈ greater, last < job.1) ∧ ∀ job ∈ others, job.1 ≤ last

/-- The number of tags up to `last`. -/
def first (last : ℤ) (jobs : List (ℤ × S)) : ℕ := jobs.countP fun job => job.1 ≤ last

/-- The tags are distinct, and the slices that are put together are a rotation of the jobs. -/
def Rotates (dq : List (ℤ × S)) (last : ℤ) (jobs : List (ℤ × S)) : Prop :=
  (jobs.map Prod.fst).Nodup ∧
    (dq = [] ∨ first last jobs = 0 ∨ first last jobs = jobs.length ∨ 2 * first last jobs = jobs.length)

instance [DecidableEq S] (dq : List (ℤ × S)) (last : ℤ) (jobs : List (ℤ × S)) : Decidable (Rotates dq last jobs) :=
  inferInstanceAs (Decidable (_ ∧ _))

theorem first_le (last : ℤ) (jobs : List (ℤ × S)) : first last jobs ≤ jobs.length := List.countP_le_length

theorem first_perm (last : ℤ) {jobs jobs' : List (ℤ × S)} (h : jobs.Perm jobs') : first last jobs = first last jobs' :=
  h.countP_eq _

theorem length_shuffle {n : ℕ} {jobs : List (ℤ × S)} (hzero : n ≠ 0) (hle : n ≤ jobs.length) :
    (shuffle n jobs).length = 2 * n := by
  rw [shuffle, if_neg hzero, List.length_append, List.length_drop, List.length_take]
  omega

theorem inTurn_rotation (last : ℤ) {jobs : List (ℤ × S)} (h : Ascending jobs) :
    InTurn last (jobs.drop (first last jobs) ++ jobs.take (first last jobs)) := by
  have hle : InOrder jobs := List.Pairwise.imp (fun hab => le_of_lt hab) h
  refine ⟨_, _, rfl, hle.sublist (List.drop_sublist _ _), hle.sublist (List.take_sublist _ _), ?_, ?_⟩
  · rw [first, h.drop_countP]
    simp
  · rw [first, h.take_countP]
    simp

/-- When the slices are a rotation, it starts behind `last`. -/
theorem rrOrder_eq {dq : List (ℤ × S)} {last : ℤ} {jobs : List (ℤ × S)} (h : Ascending jobs) (hdq : dq ≠ [])
    (hrotates : first last jobs = 0 ∨ first last jobs = jobs.length ∨ 2 * first last jobs = jobs.length) :
    rrOrder dq last jobs = jobs.drop (first last jobs) ++ jobs.take (first last jobs) := by
  rw [rrOrder_of_ascending h]
  show (if dq = [] ∨ first last jobs = 0 ∨ first last jobs = jobs.length then jobs
    else shuffle (first last jobs) jobs) = _
  by_cases hnone : first last jobs = 0
  · rw [if_pos (Or.inr (Or.inl hnone)), hnone, List.drop_zero, List.take_zero, List.append_nil]
  by_cases hall : first last jobs = jobs.length
  · rw [if_pos (Or.inr (Or.inr hall)), hall, List.drop_length, List.take_length, List.nil_append]
  · have hhalf := (hrotates.resolve_left hnone).resolve_left hall
    have hback : jobs.length - first last jobs = first last jobs := by omega
    rw [if_neg (by simp [hdq, hnone, hall]), shuffle, if_neg hnone, hback]

/-- What is added in another order is not a rotation. -/
theorem rotates_of_perm {dq : List (ℤ × S)} {last : ℤ} {jobs : List (ℤ × S)} (h : Ascending jobs)
    (hperm : (rrOrder dq last jobs).Perm jobs) :
    dq = [] ∨ first last jobs = 0 ∨ first last jobs = jobs.length ∨ 2 * first last jobs = jobs.length := by
  have horder : rrOrder dq last jobs = _ := rrOrder_of_ascending h
  by_cases hkept : dq = [] ∨ first last jobs = 0 ∨ first last jobs = jobs.length
  · rcases hkept with hdq | hnone | hall
    · exact Or.inl hdq
    · exact Or.inr (Or.inl hnone)
    · exact Or.inr (Or.inr (Or.inl hall))
  · have hshuffle : rrOrder dq last jobs = shuffle (first last jobs) jobs := horder.trans (if_neg hkept)
    have hlength := length_shuffle (fun hzero => hkept (Or.inr (Or.inl hzero))) (first_le last jobs)
    rw [← hshuffle, hperm.length_eq] at hlength
    exact Or.inr (Or.inr (Or.inr hlength.symm))

theorem add_rr_of_nodup {dq : List (ℤ × S)} {last : ℤ} {jobs : List (ℤ × S)} (h : (jobs.map Prod.fst).Nodup) :
    (rr dq last).add jobs =
      some (.rr ((rrOrder dq last (jobs.insertionSort fun a b => a.1 ≤ b.1)).reverse ++ dq)
        (rrLast dq last (jobs.insertionSort fun a b => a.1 ≤ b.1))) := by
  simp only [add, sortJobs, if_pos h]

theorem add_rr_of_not_nodup {dq : List (ℤ × S)} {last : ℤ} {jobs : List (ℤ × S)} (h : ¬(jobs.map Prod.fst).Nodup) :
    (rr dq last).add jobs = none := by
  simp only [add, sortJobs, if_neg h]

end Scheduler

namespace ComponentThread

open Scheduler

variable [DecidableEq S]

/-- A round of `rrScheduler`: there are sockets that were reported, and they are to be queued. -/
structure Round (s : ComponentThread S) (dq : List (ℤ × S)) (last : ℤ) (sockets : List S) : Prop where
  pc : s.pc = .scheduling sockets
  scheduler : s.scheduler = .rr dq last
  nodup : sockets.Nodup
  reported : sockets ≠ []
  /-- They are sockets of ports and groups. -/
  registered : ∀ socket ∈ sockets, socket ∈ s.sock2PrioMap

/-- What a poll reports, if it is anything, makes a round. -/
theorem round_of_ready {s : ComponentThread S} {dq : List (ℤ × S)} {last : ℤ} (hpc : s.pc = .scheduling s.ready)
    (hscheduler : s.scheduler = .rr dq last) (hready : s.ready ≠ []) : s.Round dq last s.ready :=
  ⟨hpc, hscheduler, nodup_ready s, hready, fun _ h => (mem_ready.mp h).1⟩

/-- The round adds each of the sockets once: in order to an empty deque, in turn to any other. It raises no exception.
-/
structure AddsInTurn (s : ComponentThread S) (dq : List (ℤ × S)) (last : ℤ) (sockets : List S) : Prop where
  dispatches : s.proceed.pc = .dispatching
  added : ∃ order last', s.proceed.scheduler = .rr (order.reverse ++ dq) last' ∧
    order.Perm (tagged s.sock2PrioMap sockets) ∧ if dq = [] then InOrder order else InTurn last order

theorem jobsOf_of_registered {sock2PrioMap : Dict S ℤ} {sockets : List S}
    (h : ∀ socket ∈ sockets, socket ∈ sock2PrioMap)
    (tag : Option ℤ) : ∃ tag', jobsOf sock2PrioMap tag sockets = some (tag', tagged sock2PrioMap sockets) := by
  induction sockets generalizing tag with
  | nil => exact ⟨tag, rfl⟩
  | cons socket sockets ih =>
    obtain ⟨hsocket, hsockets⟩ := List.forall_mem_cons.mp h
    obtain ⟨t, ht⟩ := Dict.mem_iff_exists_get?.mp hsocket
    obtain ⟨tag', htag⟩ := ih hsockets (some t)
    refine ⟨tag', ?_⟩
    simp [jobsOf, tagged, ht, htag]

/-- What a round does. -/
theorem proceed_of_round {s : ComponentThread S} {dq : List (ℤ × S)} {last : ℤ} {sockets : List S}
    (h : s.Round dq last sockets) :
    ∃ tag, s.proceed = ((rr dq last).add (tagged s.sock2PrioMap sockets)).elim { s with pc := .failed }
      fun scheduler => { s with scheduler := scheduler, tag := tag, pc := .dispatching } := by
  obtain ⟨tag, hjobs⟩ := jobsOf_of_registered h.registered s.tag
  refine ⟨tag, ?_⟩
  unfold proceed
  rw [h.pc]
  simp only [hjobs, h.scheduler]
  cases (rr dq last).add (tagged s.sock2PrioMap sockets) <;> rfl

/-- **Which rounds are in turn**: those of sockets with distinct tags, where the deque is empty, or the tags are all up
to `last` or all greater, or half of them are. -/
theorem addsInTurn_iff {s : ComponentThread S} {dq : List (ℤ × S)} {last : ℤ} {sockets : List S}
    (h : s.Round dq last sockets) :
    s.AddsInTurn dq last sockets ↔ Rotates dq last (tagged s.sock2PrioMap sockets) := by
  obtain ⟨tag, hproceed⟩ := proceed_of_round h
  by_cases htags : ((tagged s.sock2PrioMap sockets).map Prod.fst).Nodup
  · rw [add_rr_of_nodup htags] at hproceed
    have hsorted := ascending_insertionSort htags
    have hsort := List.perm_insertionSort (fun a b : ℤ × S => a.1 ≤ b.1) (tagged s.sock2PrioMap sockets)
    have hfirst := first_perm last hsort
    have hlength := hsort.length_eq
    constructor
    · rintro ⟨-, order, last'', hscheduler, hperm, -⟩
      rw [hproceed] at hscheduler
      obtain ⟨horder, -⟩ := Scheduler.rr.inj hscheduler
      rw [List.append_left_inj, List.reverse_inj] at horder
      have hrotates := rotates_of_perm hsorted ((horder ▸ hperm).trans hsort.symm)
      rw [hfirst, hlength] at hrotates
      exact ⟨htags, hrotates⟩
    · rintro ⟨-, hrotates⟩
      rw [← hfirst, ← hlength] at hrotates
      refine ⟨by rw [hproceed]; rfl, _, _, by rw [hproceed]; rfl, ?_⟩
      by_cases hdq : dq = []
      · have hkept : rrOrder dq last ((tagged s.sock2PrioMap sockets).insertionSort fun a b => a.1 ≤ b.1) =
            (tagged s.sock2PrioMap sockets).insertionSort fun a b => a.1 ≤ b.1 := by
          rw [rrOrder_of_ascending hsorted, if_pos (Or.inl hdq)]
        rw [hkept, if_pos hdq]
        exact ⟨hsort, List.Pairwise.imp (fun hab => le_of_lt hab) hsorted⟩
      · rw [rrOrder_eq hsorted hdq (hrotates.resolve_left hdq), if_neg hdq]
        refine ⟨?_, inTurn_rotation last hsorted⟩
        exact List.perm_append_comm.trans ((List.take_append_drop _ _).symm ▸ hsort)
  · have hfailed : s.proceed.pc = .failed := by
      rw [hproceed, add_rr_of_not_nodup htags]
      rfl
    constructor
    · intro hin
      have hdispatches := hin.dispatches
      rw [hfailed] at hdispatches
      cases hdispatches
    · exact fun hrotates => absurd hrotates.1 htags

/-- The thread of a component with the ports 1, 2 and 3, and the groups 4 and 5 of one priority, in a round. -/
def inRound (dq : List (ℤ × ℕ)) (last : ℤ) (sockets : List ℕ) : ComponentThread ℕ where
  sock2PrioMap := ⟨[(1, 0), (2, 1), (3, 2), (4, 256), (5, 256)], by decide⟩
  arrivals := sockets
  invocations := []
  control := []
  scheduler := .rr dq last
  tag := none
  pc := .scheduling sockets

theorem round_inRound {dq : List (ℤ × ℕ)} {last : ℤ} {sockets : List ℕ} (hnd : sockets.Nodup) (hne : sockets ≠ [])
    (h : ∀ socket ∈ sockets, socket ∈ (inRound dq last sockets).sock2PrioMap) :
    (inRound dq last sockets).Round dq last sockets :=
  ⟨rfl, rfl, hnd, hne, h⟩

/-- Behind a job of the second port the third comes first, and then the others; with a group, half of them each. -/
theorem addsInTurn_four : (inRound [(1, 2)] 1 [4, 1, 3, 2]).AddsInTurn [(1, 2)] 1 [4, 1, 3, 2] :=
  (addsInTurn_iff (round_inRound (by decide) (by decide) (by decide))).mpr (by decide)

/-- Behind a job of the first port the second is left out; and two groups of one priority cannot be sorted. -/
theorem not_addsInTurn :
    ¬(inRound [(0, 1)] 0 [1, 2, 3]).AddsInTurn [(0, 1)] 0 [1, 2, 3] ∧
      ¬(inRound [] (-1) [4, 5]).AddsInTurn [] (-1) [4, 5] := by
  constructor
  · intro h
    obtain ⟨order, last', hscheduler, hperm, -⟩ := h.added
    have hqueue : (inRound [(0, 1)] 0 [1, 2, 3]).proceed.scheduler = .rr [(0, 1), (2, 3), (0, 1)] 0 := by decide
    rw [hqueue] at hscheduler
    have hlength := congrArg List.length (Scheduler.rr.inj hscheduler).1
    have hjobs : order.length = 3 := hperm.length_eq
    simp [hjobs] at hlength
  · intro h
    exact absurd h.dispatches (by decide)

end ComponentThread

end Riaps.Component
