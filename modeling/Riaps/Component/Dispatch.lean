import Riaps.Foundation.Ranks
import Riaps.Component.Scheduler

/-!
# Which handlers find a message

Every handler that a scheduler invokes receives one message from its socket, so a job
is right to be in the queue only while a message is there for it. `Covered` is the
invariant that says so: with the handlers that were invoked, the jobs in the queue are
no more than the messages that have arrived.

Nothing in the schedulers keeps it. The poller goes on to report a socket whose job is
still in the queue, and the sockets that a poll between two handlers reports are queued
again: by the priority scheduler after every poll, by the round-robin scheduler after a
poll that brought a command as well. The round-robin scheduler's rotation of the jobs
can also queue one twice, or leave it out. `Fits` is the condition on the state before
sockets are queued under which the queue stays covered; runs whose steps all meet it
never invoke a handler without a message (`noOverDispatch_run`), and each scheduler has
a run in which a handler waits for a message that is not there (`overDispatch`).
-/

namespace Riaps.Component

open Riaps.Foundation

universe u

variable {S : Type u}

/-! ### The queue -/

namespace Scheduler

theorem sockets_setupScheduler (schedulerType : SchedulerType) :
    (setupScheduler schedulerType : Scheduler S).sockets = [] := by
  cases schedulerType <;> rfl

theorem heappush_perm (e : ℤ × ℕ × S) (pq : List (ℤ × ℕ × S)) : (heappush e pq).Perm (e :: pq) := by
  induction pq with
  | nil => exact .refl _
  | cons e' pq ih =>
    rw [heappush]
    split
    · exact .refl _
    · exact (ih.cons e').trans (.swap e e' pq)

theorem sockets_pushAll (jobs : List (ℤ × S)) (pq : List (ℤ × ℕ × S)) (tc : ℕ) :
    (pushAll pq tc jobs).sockets.Perm (jobs.map Prod.snd ++ (priority pq tc).sockets) := by
  induction jobs generalizing pq tc with
  | nil => exact .refl _
  | cons job jobs ih =>
    have hpush := (heappush_perm (job.1, tc, job.2) pq).map fun e => e.2.2
    refine (ih _ _).trans ?_
    exact (hpush.append_left _).trans List.perm_middle

/-- A job that is taken from the queue leaves the others. -/
theorem sockets_pop {q q' : Scheduler S} {tag : ℤ} {socket : S} (h : q.pop = some (tag, socket, q')) :
    q.sockets.Perm (socket :: q'.sockets) := by
  cases q with
  | rr dq last =>
    simp only [pop] at h
    split at h
    case h_1 tag' socket' hlast =>
      obtain ⟨rfl, rfl, rfl⟩ := by simpa using h
      obtain ⟨dq, rfl⟩ := List.getLast?_eq_some_iff.mp hlast
      simp [sockets]
    case h_2 => cases h
  | priority pq tc =>
    cases pq with
    | nil => simp [pop] at h
    | cons e pq =>
      obtain ⟨rfl, rfl, rfl⟩ := by simpa [pop] using h
      exact .refl _

theorem mem_rrOrder {dq : List (ℤ × S)} {last : ℤ} {jobs : List (ℤ × S)} {job : ℤ × S}
    (h : job ∈ rrOrder dq last jobs) : job ∈ jobs := by
  unfold rrOrder shuffle at h
  split at h
  · split at h
    · rcases List.mem_append.mp h with h | h
      · split at h
        · exact h
        · exact List.mem_of_mem_drop h
      · exact List.mem_of_mem_take h
    · exact h
  · exact h

/-- The rotation starts behind the jobs whose tags are not greater than `last`. -/
theorem rrOrder_of_ascending {dq : List (ℤ × S)} {last : ℤ} {jobs : List (ℤ × S)} (hsorted : Ascending jobs) :
    rrOrder dq last jobs =
      if dq = [] ∨ jobs.countP (fun j => j.1 ≤ last) = 0 ∨ jobs.countP (fun j => j.1 ≤ last) = jobs.length then jobs
      else shuffle (jobs.countP fun j => j.1 ≤ last) jobs := by
  have hle : jobs.countP (fun j => j.1 ≤ last) ≤ jobs.length := List.countP_le_length
  have hfind := hsorted.findIdx?_lt last
  generalize jobs.countP (fun j => j.1 ≤ last) = first at hle hfind ⊢
  by_cases hdq : dq = []
  · simp [rrOrder, hdq]
  by_cases hall : first = jobs.length
  · rw [if_pos hall] at hfind
    simp [rrOrder, hfind, hall]
  rw [if_neg hall] at hfind
  by_cases hnone : first = 0
  · simp [rrOrder, shuffle, hfind, hnone]
  · -- two jobs or more
    have hlen : jobs.length ≠ 1 := by omega
    simp [rrOrder, hfind, hdq, hall, hnone, hlen]

/-- What the round-robin scheduler queues, when the sort succeeds. -/
theorem sockets_add_rr {dq : List (ℤ × S)} {last : ℤ} {jobs : List (ℤ × S)} {q' : Scheduler S}
    (h : (rr dq last).add jobs = some q') :
    (jobs.map Prod.fst).Nodup ∧
      q'.sockets.Perm
        ((rrOrder dq last (jobs.insertionSort fun a b => a.1 ≤ b.1)).map Prod.snd ++ (rr dq last).sockets) := by
  simp only [add] at h
  split at h
  case h_1 sorted hsort =>
    obtain ⟨htags, rfl⟩ := by simpa [sortJobs] using hsort
    obtain rfl := by simpa using h
    refine ⟨htags, ?_⟩
    simp only [sockets, List.map_append, List.map_reverse]
    exact (List.reverse_perm _).append_right _
  case h_2 => cases h

/-- How many jobs a round adds to the queue for the socket of `job`, one of its `jobs`. The rotation of
`rrScheduler` takes as many jobs from the end as there are from the start, `first`, so one that is among both
comes twice, and one that is among neither not at all. -/
def copies : Scheduler S → List (ℤ × S) → ℤ × S → ℕ
  | .priority .., _, _ => 1
  | .rr dq last, jobs, job =>
    let first := jobs.countP fun j => j.1 ≤ last
    -- the sort raises an exception
    if ¬(jobs.map Prod.fst).Nodup then 0
    else if dq = [] ∨ first = 0 ∨ first = jobs.length then 1
    else (if jobs.length ≤ rank jobs job.1 + first then 1 else 0) + (if rank jobs job.1 < first then 1 else 0)

theorem copies_perm (q : Scheduler S) {jobs jobs' : List (ℤ × S)} (h : jobs.Perm jobs') (job : ℤ × S) :
    q.copies jobs job = q.copies jobs' job := by
  cases q with
  | rr dq last =>
    simp only [copies, (h.map Prod.fst).nodup_iff, h.countP_eq, h.length_eq, rank_perm h]
  | priority pq tc => rfl

theorem copies_of_add_eq_none {q : Scheduler S} {jobs : List (ℤ × S)} (h : q.add jobs = none) (job : ℤ × S) :
    q.copies jobs job = 0 := by
  cases q with
  | rr dq last =>
    have htags : ¬(jobs.map Prod.fst).Nodup := by
      intro hnd
      simp [add, sortJobs, hnd] at h
    simp [copies, htags]
  | priority pq tc => simp [add] at h

/-- In a queue that is empty a round puts no socket twice. -/
theorem copies_le_one {q : Scheduler S} (h : q.sockets = []) (jobs : List (ℤ × S)) (job : ℤ × S) :
    q.copies jobs job ≤ 1 := by
  cases q with
  | rr dq last =>
    have hdq : dq = [] := List.map_eq_nil_iff.mp h
    simp only [copies, hdq, true_or, if_true]
    split <;> omega
  | priority pq tc => exact le_rfl

variable [DecidableEq S]

/-- In a part of the jobs a socket has as many jobs as its one job is there. -/
theorem count_of_sublist {part jobs : List (ℤ × S)} (hpart : part.Sublist jobs) (hnd : (jobs.map Prod.snd).Nodup)
    {job : ℤ × S} (hjob : job ∈ jobs) : (part.map Prod.snd).count job.2 = if job ∈ part then 1 else 0 := by
  rw [(hnd.sublist (hpart.map Prod.snd)).count]
  have hiff : job.2 ∈ part.map Prod.snd ↔ job ∈ part := by
    refine ⟨fun h => ?_, fun h => List.mem_map_of_mem h⟩
    obtain ⟨job', hjob', heq⟩ := List.mem_map.mp h
    exact List.inj_on_of_nodup_map hnd (hpart.subset hjob') hjob heq ▸ hjob'
  simp only [hiff]

theorem count_shuffle {first : ℕ} {jobs : List (ℤ × S)} (hsorted : Ascending jobs)
    (hnd : (jobs.map Prod.snd).Nodup) {job : ℤ × S} (hjob : job ∈ jobs) (hfirst : first ≠ 0) :
    ((shuffle first jobs).map Prod.snd).count job.2 =
      (if jobs.length ≤ rank jobs job.1 + first then 1 else 0) + (if rank jobs job.1 < first then 1 else 0) := by
  unfold shuffle
  rw [if_neg hfirst, List.map_append, List.count_append, count_of_sublist (List.drop_sublist _ _) hnd hjob,
    count_of_sublist (List.take_sublist _ _) hnd hjob]
  simp only [hsorted.mem_drop_iff hjob, hsorted.mem_take_iff hjob, Nat.sub_le_iff_le_add]

/-- In the order in which a round is queued the socket of a job comes as often as `copies` says. -/
theorem count_rrOrder (dq : List (ℤ × S)) (last : ℤ) {jobs : List (ℤ × S)} (hsorted : Ascending jobs)
    (hnd : (jobs.map Prod.snd).Nodup) {job : ℤ × S} (hjob : job ∈ jobs) :
    ((rrOrder dq last jobs).map Prod.snd).count job.2 = (rr dq last).copies jobs job := by
  have htags : (jobs.map Prod.fst).Nodup := List.pairwise_map.mpr (hsorted.imp fun h => ne_of_lt h)
  simp only [rrOrder_of_ascending hsorted, copies, htags, not_true_eq_false, if_false]
  split
  · rw [count_of_sublist (.refl _) hnd hjob, if_pos hjob]
  case isFalse hrotated =>
    exact count_shuffle hsorted hnd hjob fun hnone => hrotated (.inr (.inl hnone))

/-- A round adds `copies` jobs for the socket of each of its jobs. -/
theorem count_add {q q' : Scheduler S} {jobs : List (ℤ × S)} (h : q.add jobs = some q')
    (hnd : (jobs.map Prod.snd).Nodup) {job : ℤ × S} (hjob : job ∈ jobs) :
    q'.sockets.count job.2 = q.sockets.count job.2 + q.copies jobs job := by
  cases q with
  | rr dq last =>
    obtain ⟨htags, hsockets⟩ := sockets_add_rr h
    have hperm := List.perm_insertionSort (fun a b : ℤ × S => a.1 ≤ b.1) jobs
    have hcount := count_rrOrder dq last (ascending_insertionSort htags)
      ((hperm.map Prod.snd).nodup_iff.mpr hnd) (hperm.mem_iff.mpr hjob)
    rw [hsockets.count_eq, List.count_append, hcount, copies_perm _ hperm]
    omega
  | priority pq tc =>
    obtain rfl := by simpa [add] using h
    rw [(sockets_pushAll jobs pq tc).count_eq, List.count_append, count_of_sublist (.refl _) hnd hjob, if_pos hjob]
    simp only [copies]
    omega

/-- A round adds no other jobs. -/
theorem count_add_of_notMem {q q' : Scheduler S} {jobs : List (ℤ × S)} (h : q.add jobs = some q') {socket : S}
    (hsocket : socket ∉ jobs.map Prod.snd) : q'.sockets.count socket = q.sockets.count socket := by
  cases q with
  | rr dq last =>
    obtain ⟨-, hsockets⟩ := sockets_add_rr h
    have hperm := List.perm_insertionSort (fun a b : ℤ × S => a.1 ≤ b.1) jobs
    rw [hsockets.count_eq, List.count_append, List.count_eq_zero.mpr, Nat.zero_add]
    intro hmem
    obtain ⟨job, hjob, rfl⟩ := List.mem_map.mp hmem
    exact hsocket (List.mem_map_of_mem (hperm.mem_iff.mp (mem_rrOrder hjob)))
  | priority pq tc =>
    obtain rfl := by simpa [add] using h
    rw [(sockets_pushAll jobs pq tc).count_eq, List.count_append, List.count_eq_zero.mpr hsocket, Nat.zero_add]

end Scheduler

/-! ### The thread -/

/-- The sockets that are to be queued. -/
def Pc.reported : Pc S → List S
  | .scheduling sockets => sockets
  | _ => []

namespace ComponentThread

variable [DecidableEq S]

/-- No handler was invoked more often than messages have arrived on its socket. -/
def NoOverDispatch (s : ComponentThread S) : Prop :=
  ∀ socket, s.invocations.count socket ≤ s.arrivals.count socket

/-- A handler waits for a message that is not there. -/
def Blocks (s : ComponentThread S) : Prop := ∃ socket, s.pc = .handling socket ∧ s.proceed = s

/-- The jobs that are to be queued, with their tags. -/
def jobs (s : ComponentThread S) : List (ℤ × S) :=
  ((jobsOf s.sock2PrioMap s.tag s.pc.reported).map Prod.snd).getD []

/-- When sockets are to be queued after others, each has a message for every job that it then has in the
queue. -/
def Fits (s : ComponentThread S) (e : Event S) : Prop :=
  e = .proceed → s.scheduler.sockets ≠ [] →
    ∀ job ∈ s.jobs, s.scheduler.sockets.count job.2 + s.scheduler.copies s.jobs job ≤ s.pending job.2

instance decidableFits (s : ComponentThread S) (e : Event S) : Decidable (s.Fits e) :=
  inferInstanceAs (Decidable (_ → _ → _))

/-- The handlers that were invoked, and those that are in the queue, have their messages; and so have the
sockets that are to be queued, each of them once. -/
structure Covered (s : ComponentThread S) : Prop where
  queued : ∀ socket,
    s.invocations.count socket + s.scheduler.sockets.count socket ≤ s.arrivals.count socket
  nodup : s.pc.reported.Nodup
  waiting : ∀ socket ∈ s.pc.reported, s.invocations.count socket < s.arrivals.count socket

theorem covered_init (schedulerType : SchedulerType) (sock2PrioMap : Dict S ℤ) :
    (init schedulerType sock2PrioMap).Covered where
  queued socket := by simp [init, Scheduler.sockets_setupScheduler]
  nodup := List.nodup_nil
  waiting := by simp [init, Pc.reported]

theorem mem_ready {s : ComponentThread S} {socket : S} :
    socket ∈ s.ready ↔ socket ∈ s.sock2PrioMap.keys ∧ s.invocations.count socket < s.arrivals.count socket := by
  simp only [ready, pending, List.mem_filter, decide_eq_true_eq, Nat.sub_pos_iff_lt]

theorem nodup_ready (s : ComponentThread S) : s.ready.Nodup := s.sock2PrioMap.nodup.filter _

/-- Where the thread goes without touching the queue or a message, the invariant stays, when no sockets are to be
queued there or those that the poller reports. -/
theorem Covered.goto {s t : ComponentThread S} (h : s.Covered) (harrivals : t.arrivals = s.arrivals)
    (hinvocations : t.invocations = s.invocations) (hscheduler : t.scheduler = s.scheduler)
    (hpc : t.pc.reported = [] ∨ t.pc.reported = s.ready) : t.Covered where
  queued := by
    rw [harrivals, hinvocations, hscheduler]
    exact h.queued
  nodup := by
    rcases hpc with hpc | hpc
    · rw [hpc]
      exact List.nodup_nil
    · rw [hpc]
      exact nodup_ready s
  waiting socket hsocket := by
    rw [harrivals, hinvocations]
    rcases hpc with hpc | hpc
    · simp [hpc] at hsocket
    · rw [hpc] at hsocket
      exact (mem_ready.mp hsocket).2

theorem covered_runCommand {s : ComponentThread S} {next caught : Pc S} (h : s.Covered)
    (hpc : s.pc.reported = []) (hnext : next.reported = [] ∨ next.reported = s.ready) (hcaught : caught.reported = []) :
    (s.runCommand next caught).Covered := by
  unfold runCommand
  split
  · exact h.goto rfl rfl rfl (.inl rfl)
  · exact h.goto rfl rfl rfl hnext
  · exact h.goto rfl rfl rfl (.inl hcaught)
  · exact h.goto rfl rfl rfl (.inl rfl)
  · exact h.goto rfl rfl rfl (.inl hpc)

omit [DecidableEq S] in
theorem reported_afterJob (s : ComponentThread S) : s.afterJob.pc.reported = [] := by
  unfold afterJob
  dsimp only
  split <;> rfl

theorem covered_afterJob {s : ComponentThread S} (h : s.Covered) : s.afterJob.Covered :=
  h.goto rfl rfl rfl (.inl (reported_afterJob s))

/-- A job that was taken from a covered queue finds its message. -/
theorem covered_executeHandlerFor {s : ComponentThread S} {socket : S}
    (h : ∀ x, s.invocations.count x + (socket :: s.scheduler.sockets).count x ≤ s.arrivals.count x) :
    (s.executeHandlerFor socket).Covered := by
  unfold executeHandlerFor
  split
  · refine ⟨fun x => ?_, List.nodup_nil, by simp [Pc.reported]⟩
    have hx := h x
    rw [List.count_cons] at hx
    rw [List.count_append, List.count_singleton]
    dsimp only
    omega
  · refine ⟨fun x => ?_, ?_, ?_⟩
    · have hx := h x
      rw [List.count_cons] at hx
      dsimp only [afterJob]
      omega
    · rw [reported_afterJob]
      exact List.nodup_nil
    · simp [reported_afterJob]

theorem sockets_jobsOf {sock2PrioMap : Dict S ℤ} {sockets : List S} {tag tag' : Option ℤ} {jobs : List (ℤ × S)}
    (h : jobsOf sock2PrioMap tag sockets = some (tag', jobs)) : jobs.map Prod.snd = sockets := by
  induction sockets generalizing tag jobs with
  | nil =>
    obtain ⟨-, rfl⟩ := by simpa [jobsOf] using h
    rfl
  | cons socket sockets ih =>
    simp only [jobsOf] at h
    split at h
    · obtain ⟨jobs, hjobs, rfl⟩ := by simpa using h
      rw [List.map_cons, ih hjobs]
    · cases h

/-- A round that fits leaves a covered queue covered. -/
theorem covered_add {s : ComponentThread S} (h : s.Covered) (hfits : s.Fits .proceed) {tag : Option ℤ}
    {jobs : List (ℤ × S)} (hjobs : jobsOf s.sock2PrioMap s.tag s.pc.reported = some (tag, jobs)) {q : Scheduler S}
    (hadd : s.scheduler.add jobs = some q) :
    { s with scheduler := q, tag := tag, pc := .dispatching }.Covered := by
  refine ⟨fun socket => ?_, List.nodup_nil, by simp [Pc.reported]⟩
  have hsockets := sockets_jobsOf hjobs
  have hq := h.queued socket
  dsimp only
  by_cases hsocket : socket ∈ jobs.map Prod.snd
  · obtain ⟨job, hjob, rfl⟩ := List.mem_map.mp hsocket
    rw [Scheduler.count_add hadd (hsockets ▸ h.nodup) hjob]
    by_cases hempty : s.scheduler.sockets = []
    · -- a socket that was reported has a message
      have hone := Scheduler.copies_le_one hempty jobs job
      have hwaiting := h.waiting job.2 (hsockets ▸ hsocket)
      rw [hempty, List.count_nil]
      omega
    · have hs : s.jobs = jobs := by simp [ComponentThread.jobs, hjobs]
      have hfit := hfits rfl hempty job (hs ▸ hjob)
      rw [hs, pending] at hfit
      omega
  · rw [Scheduler.count_add_of_notMem hadd hsocket]
    exact hq

/-- After a poll the sockets that it reports, if any, are to be queued. -/
theorem reported_ite (s : ComponentThread S) {pc : Pc S} (hpc : pc.reported = []) :
    (if s.ready = [] then pc else .scheduling s.ready).reported = [] ∨
      (if s.ready = [] then pc else .scheduling s.ready).reported = s.ready := by
  split
  · exact .inl hpc
  · exact .inr rfl

theorem covered_proceed {s : ComponentThread S} (h : s.Covered) (hfits : s.Fits .proceed) : s.proceed.Covered := by
  unfold proceed
  split
  case h_1 hpc =>
    have hnone : s.pc.reported = [] := by rw [hpc]; rfl
    dsimp only
    split
    · exact h.goto rfl rfl rfl (reported_ite s rfl)
    · exact covered_runCommand (h.goto rfl rfl rfl (.inl hnone)) hnone (reported_ite s rfl) rfl
  case h_2 sockets hpc =>
    split
    · exact h.goto rfl rfl rfl (.inl rfl)
    case h_2 tag jobs hjobs =>
      split
      · exact h.goto rfl rfl rfl (.inl rfl)
      case h_2 q hadd => exact covered_add h hfits (by simpa [hpc, Pc.reported] using hjobs) hadd
  case h_3 =>
    split
    · exact h.goto rfl rfl rfl (.inl rfl)
    case h_2 tag socket q hpop =>
      refine covered_executeHandlerFor fun x => ?_
      dsimp only
      rw [← (Scheduler.sockets_pop hpop).count_eq]
      exact h.queued x
  case h_4 =>
    split
    · exact covered_afterJob h
    · exact h
  case h_5 hpc =>
    have hnone : s.pc.reported = [] := by rw [hpc]; rfl
    dsimp only
    split
    · split
      · exact h
      · refine h.goto rfl rfl rfl ?_
        dsimp only
        split
        · exact .inl rfl
        · exact .inr rfl
    · exact covered_runCommand h hnone (reported_ite s rfl) rfl
  case h_6 => exact h
  case h_7 => exact h

theorem covered_step {s : ComponentThread S} (h : s.Covered) {e : Event S} (hfits : s.Fits e) :
    (step s e).Covered := by
  cases e with
  | arrive socket =>
    have hle (x : S) : s.arrivals.count x ≤ (s.arrivals ++ [socket]).count x := by simp
    exact ⟨fun x => (h.queued x).trans (hle x), h.nodup, fun x hx => (h.waiting x hx).trans_le (hle x)⟩
  | command c => exact ⟨h.queued, h.nodup, h.waiting⟩
  | register socket tag => exact ⟨h.queued, h.nodup, h.waiting⟩
  | unregister socket => exact ⟨h.queued, h.nodup, h.waiting⟩
  | proceed => exact covered_proceed h hfits

/-- A round that does not fit leaves more jobs in the queue than messages for one of its sockets. -/
theorem fits_of_covered_step {s : ComponentThread S} (h : s.Covered) {e : Event S} (hstep : (step s e).Covered) :
    s.Fits e := by
  rintro rfl - job hjob
  have hqueued := h.queued job.2
  cases hjobs : jobsOf s.sock2PrioMap s.tag s.pc.reported with
  | none => simp [jobs, hjobs] at hjob
  | some r =>
    obtain ⟨tag, jobs⟩ := r
    have hs : s.jobs = jobs := by simp [ComponentThread.jobs, hjobs]
    have hsockets := sockets_jobsOf hjobs
    rw [hs] at hjob ⊢
    rw [pending]
    have hreported : job.2 ∈ s.pc.reported := hsockets ▸ List.mem_map_of_mem hjob
    cases hadd : s.scheduler.add jobs with
    | none =>
      rw [Scheduler.copies_of_add_eq_none hadd]
      omega
    | some q =>
      -- sockets are reported, so the jobs are queued now
      have hq : s.proceed.scheduler = q ∧ s.proceed.invocations = s.invocations ∧ s.proceed.arrivals = s.arrivals := by
        cases hpc : s.pc with
        | scheduling sockets =>
          rw [hpc] at hjobs
          have hjobs' : jobsOf s.sock2PrioMap s.tag sockets = some (tag, jobs) := hjobs
          simp [proceed, hpc, hjobs', hadd]
        | _ => simp [hpc, Pc.reported] at hreported
      obtain ⟨hscheduler, hinvocations, harrivals⟩ := hq
      have hnext : s.proceed.invocations.count job.2 + s.proceed.scheduler.sockets.count job.2 ≤
          s.proceed.arrivals.count job.2 := hstep.queued job.2
      rw [hscheduler, hinvocations, harrivals, Scheduler.count_add hadd (hsockets ▸ h.nodup) hjob] at hnext
      omega

/-- The queue stays covered in exactly the runs whose rounds fit. -/
theorem always_covered_iff (schedulerType : SchedulerType) (sock2PrioMap : Dict S ℤ) (events : List (Event S)) :
    Always step Covered (init schedulerType sock2PrioMap) events ↔
      AllSteps step Fits (init schedulerType sock2PrioMap) events :=
  always_iff_allSteps (I := fun _ => True) (P := Covered) (fun _ _ _ _ => trivial)
    (fun _ _ _ h => ⟨fits_of_covered_step h, covered_step h⟩) trivial (covered_init schedulerType sock2PrioMap) events

theorem Covered.noOverDispatch {s : ComponentThread S} (h : s.Covered) : s.NoOverDispatch :=
  fun socket => (Nat.le_add_right _ _).trans (h.queued socket)

/-- A handler that was not invoked too often receives its message. -/
theorem NoOverDispatch.not_blocks {s : ComponentThread S} (h : s.NoOverDispatch) : ¬s.Blocks := by
  rintro ⟨socket, hpc, hproceed⟩
  have hafter : s.proceed = s.afterJob := by
    unfold proceed
    rw [hpc]
    exact if_pos (h socket)
  have hpc' : s.afterJob.pc = .handling socket := by rw [← hafter, hproceed, hpc]
  unfold afterJob at hpc'
  dsimp only at hpc'
  split at hpc' <;> cases hpc'

/-- **No handler without a message**: in a run in which the sockets that are queued after others always fit, no
handler is ever invoked more often than messages have arrived on its socket, and none waits for a message that is
not there. -/
theorem noOverDispatch_run (schedulerType : SchedulerType) (sock2PrioMap : Dict S ℤ) {events : List (Event S)}
    (h : AllSteps step Fits (init schedulerType sock2PrioMap) events) :
    Always step (fun s => s.NoOverDispatch ∧ ¬s.Blocks) (init schedulerType sock2PrioMap) events := by
  intro pre hpre
  have hcovered := (always_covered_iff schedulerType sock2PrioMap events).mpr h pre hpre
  exact ⟨hcovered.noOverDispatch, hcovered.noOverDispatch.not_blocks⟩

/-- Three input ports, with their indices. -/
def threePorts : Dict ℕ ℤ := ⟨[(1, 0), (2, 1), (3, 2)], by decide⟩

/-- A second message comes for socket 2 while it is in the queue, and a command with it: the socket is queued
again, for that message. -/
theorem noOverDispatch_twoMessages :
    Always step (fun s => s.NoOverDispatch ∧ ¬s.Blocks) (init .rr threePorts)
      ([.arrive 1, .arrive 2] ++ List.replicate 4 .proceed ++ [.arrive 2, .command .other] ++
        List.replicate 9 .proceed) :=
  noOverDispatch_run .rr threePorts (by decide +kernel)

/-- Two messages arrive. After the first handler socket 2 is reported again and has two jobs. With the priority
scheduler its handler is invoked for the second of them once a message has come for socket 3; with the round-robin
scheduler socket 2 is queued again, and goes on, when a command comes. -/
theorem overDispatch :
    (let s := run step (init .priority threePorts)
        ([.arrive 1, .arrive 2] ++ List.replicate 8 .proceed ++ [.arrive 3, .proceed, .proceed, .proceed])
     ¬s.NoOverDispatch ∧ s.Blocks) ∧
    (let s := run step (init .rr threePorts)
        ([.arrive 1, .arrive 2] ++ List.replicate 4 .proceed ++ [.command .other] ++ List.replicate 4 .proceed ++
          [.command .other, .proceed, .proceed])
     ¬s.NoOverDispatch ∧ s.Blocks) := by
  refine ⟨⟨fun h => ?_, 2, ?_, ?_⟩, fun h => ?_, 2, ?_, ?_⟩
  · exact absurd (h 2) (by decide +kernel)
  · decide +kernel
  · rfl
  · exact absurd (h 2) (by decide +kernel)
  · decide +kernel
  · rfl

end ComponentThread

end Riaps.Component
