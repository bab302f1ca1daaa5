import Riaps.Component.RoundRobin

/-!
# The order of the priority scheduler

The priority scheduler pushes an entry for each socket that a poll reports, with the
priority of the socket and the next count, and takes the least of them when a handler
has returned and a poll has been made. A `Journal` records the polls and the entries
that were dispatched. What is in the queue and what was dispatched are together the
entries of what the polls have reported, in the order of their reports (`Sound`).

The inner loop expects an `IndexError` only of an empty queue. One that the handler
of a command raises ends the scheduler as well, with entries in its queue:
`priorityOrder_iff`.
-/

namespace Riaps.Component

open Riaps.Foundation

universe u

variable {S : Type u}

namespace Scheduler

/-- An entry comes out before another. -/
def Before (e e' : ℤ × ℕ × S) : Prop := e.1 < e'.1 ∨ e.1 = e'.1 ∧ e.2.1 < e'.2.1

/-- Of entries with one priority, the first was inserted first. -/
def Inserted (e e' : ℤ × ℕ × S) : Prop := e.1 = e'.1 → e.2.1 < e'.2.1

/-- The entries of jobs that are pushed one after another, with counts from `tc` on. -/
def entriesFrom (tc : ℕ) : List (ℤ × S) → List (ℤ × ℕ × S)
  | [] => []
  | job :: jobs => (job.1, tc, job.2) :: entriesFrom (tc + 1) jobs

/-- Those of the sockets that the polls have reported, from the first on. -/
def entries [DecidableEq S] (sock2PrioMap : Dict S ℤ) (sockets : List S) : List (ℤ × ℕ × S) :=
  entriesFrom 0 (tagged sock2PrioMap sockets)

theorem Before.inserted {e e' : ℤ × ℕ × S} (h : Before e e') : Inserted e e' := by
  intro heq
  rcases h with hlt | ⟨-, hlt⟩
  · exact absurd heq (ne_of_lt hlt)
  · exact hlt

theorem length_entriesFrom (tc : ℕ) (jobs : List (ℤ × S)) : (entriesFrom tc jobs).length = jobs.length := by
  induction jobs generalizing tc with
  | nil => rfl
  | cons job jobs ih => rw [entriesFrom, List.length_cons, List.length_cons, ih]

theorem entriesFrom_append (tc : ℕ) (jobs jobs' : List (ℤ × S)) :
    entriesFrom tc (jobs ++ jobs') = entriesFrom tc jobs ++ entriesFrom (tc + jobs.length) jobs' := by
  induction jobs generalizing tc with
  | nil => rfl
  | cons job jobs ih =>
    have hcount : tc + (job :: jobs).length = tc + 1 + jobs.length := by
      rw [List.length_cons]
      omega
    rw [List.cons_append, entriesFrom, entriesFrom, ih, hcount, List.cons_append]

theorem count_of_mem_entriesFrom {tc : ℕ} {jobs : List (ℤ × S)} {e : ℤ × ℕ × S} (h : e ∈ entriesFrom tc jobs) :
    tc ≤ e.2.1 ∧ e.2.1 < tc + jobs.length := by
  induction jobs generalizing tc with
  | nil => cases h
  | cons job jobs ih =>
    rw [List.length_cons]
    rcases List.mem_cons.mp h with rfl | h
    · constructor <;> dsimp only <;> omega
    · have hrest := ih h
      omega

theorem job_of_mem_entriesFrom {tc : ℕ} {jobs : List (ℤ × S)} {e : ℤ × ℕ × S} (h : e ∈ entriesFrom tc jobs) :
    (e.1, e.2.2) ∈ jobs := by
  induction jobs generalizing tc with
  | nil => cases h
  | cons job jobs ih =>
    rcases List.mem_cons.mp h with rfl | h
    · exact List.mem_cons_self
    · exact List.mem_cons_of_mem job (ih h)

theorem exists_mem_entriesFrom (tc : ℕ) {jobs : List (ℤ × S)} {job : ℤ × S} (h : job ∈ jobs) :
    ∃ e ∈ entriesFrom tc jobs, e.1 = job.1 ∧ e.2.2 = job.2 := by
  induction jobs generalizing tc with
  | nil => cases h
  | cons job' jobs ih =>
    rcases List.mem_cons.mp h with rfl | h
    · exact ⟨_, List.mem_cons_self, rfl, rfl⟩
    · obtain ⟨e, he, hjob⟩ := ih (tc + 1) h
      exact ⟨e, List.mem_cons_of_mem _ he, hjob⟩

/-! ### The heap -/

theorem sorted_heappush {e : ℤ × ℕ × S} {pq : List (ℤ × ℕ × S)} (h : pq.Pairwise Before)
    (hcount : ∀ e' ∈ pq, e'.2.1 < e.2.1) : (heappush e pq).Pairwise Before := by
  induction pq with
  | nil => exact List.pairwise_singleton _ _
  | cons e' pq ih =>
    obtain ⟨hfirst, hrest⟩ := List.pairwise_cons.mp h
    obtain ⟨hcount', hcounts⟩ := List.forall_mem_cons.mp hcount
    rw [heappush]
    split
    case isTrue hbefore =>
      refine List.pairwise_cons.mpr ⟨fun e'' he'' => ?_, h⟩
      rcases List.mem_cons.mp he'' with rfl | he''
      · exact hbefore
      · have hnext := hfirst e'' he''
        unfold Before at hnext ⊢
        omega
    case isFalse hbefore =>
      refine List.pairwise_cons.mpr ⟨fun e'' he'' => ?_, ih hrest hcounts⟩
      rcases List.mem_cons.mp ((heappush_perm e pq).mem_iff.mp he'') with rfl | he''
      · unfold Before
        omega
      · exact hfirst e'' he''

/-- A round leaves the heap in order, with the new entries in it. -/
theorem pushAll_eq {pq : List (ℤ × ℕ × S)} {tc : ℕ} (h : pq.Pairwise Before) (hcount : ∀ e ∈ pq, e.2.1 < tc)
    (jobs : List (ℤ × S)) :
    ∃ pq', pushAll pq tc jobs = .priority pq' (tc + jobs.length) ∧ pq'.Pairwise Before ∧
      pq'.Perm (pq ++ entriesFrom tc jobs) := by
  induction jobs generalizing pq tc with
  | nil => exact ⟨pq, rfl, h, by rw [entriesFrom, List.append_nil]⟩
  | cons job jobs ih =>
    have hperm := heappush_perm (job.1, tc, job.2) pq
    have hcount' : ∀ e ∈ heappush (job.1, tc, job.2) pq, e.2.1 < tc + 1 := by
      intro e he
      rcases List.mem_cons.mp (hperm.mem_iff.mp he) with rfl | he
      · exact Nat.lt_succ_self tc
      · exact (hcount e he).trans (Nat.lt_succ_self tc)
    obtain ⟨pq', hpush, hsorted, hpq'⟩ := ih (sorted_heappush h hcount) hcount'
    have hlength : tc + 1 + jobs.length = tc + (job :: jobs).length := by
      rw [List.length_cons]
      omega
    refine ⟨pq', by rw [pushAll, hpush, hlength], hsorted, hpq'.trans ?_⟩
    rw [entriesFrom]
    exact (hperm.append_right _).trans List.perm_middle.symm

end Scheduler

/-! ### Journals -/

open Scheduler

/-- What happens while no port and no group comes, goes or is reset. -/
inductive Work (S : Type u) : Type u where
  /-- A message arrives on a socket. -/
  | arrive (socket : S)
  /-- A command arrives. -/
  | command (c : Control)
  /-- The thread proceeds. -/
  | proceed
  deriving DecidableEq

/-- A thread, with what its polls have reported, beside the control socket, and what it has dispatched. -/
structure Journal (S : Type u) where
  thread : ComponentThread S
  polls : List (List S)
  dispatched : List (ℤ × ℕ × S)

namespace Journal

variable [DecidableEq S]

/-- At the start of a thread with the priority scheduler. -/
def init (sock2PrioMap : Dict S ℤ) : Journal S := ⟨.init .priority sock2PrioMap, [], []⟩

/-- What the poll of the thread reports, if it is at one that returns. -/
def polled (s : ComponentThread S) : List (List S) :=
  if (s.pc = .polling ∨ s.pc = .repolling) ∧ (s.ready ≠ [] ∨ s.control ≠ []) then [s.ready] else []

/-- The entry that the thread takes from its heap, if it is about to. -/
def taken (s : ComponentThread S) : List (ℤ × ℕ × S) :=
  match s.pc, s.scheduler with
  | .dispatching, .priority (e :: _) _ => [e]
  | _, _ => []

/-- One event. -/
def step (w : Journal S) : Work S → Journal S
  | .arrive socket => { w with thread := w.thread.step (.arrive socket) }
  | .command c => { w with thread := w.thread.step (.command c) }
  | .proceed => ⟨w.thread.proceed, w.polls ++ polled w.thread, w.dispatched ++ taken w.thread⟩

/-- The sockets that the latest poll reported. -/
def latest (w : Journal S) : List S := w.polls.getLastD []

/-- Handlers run in order of priority. -/
structure Ordered (w : Journal S) : Prop where
  /-- What is dispatched next is the least of what is queued, and what the latest poll reported is. -/
  least : w.thread.pc = .dispatching → ∃ e pq tc, w.thread.scheduler = .priority (e :: pq) tc ∧
    w.thread.proceed.pc = .handling e.2.2 ∧ (∀ e' ∈ pq, Before e e') ∧
    ∀ socket ∈ w.latest, ∃ e' ∈ e :: pq, e'.2.2 = socket ∧ w.thread.sock2PrioMap.get? socket = some e'.1
  /-- Entries of one priority were dispatched in the order in which they were inserted. -/
  inserted : w.dispatched.Pairwise Inserted
  /-- When the scheduler has returned, and the thread is not stopped, all that was reported was dispatched. -/
  returned : w.thread.pc = .polling → w.dispatched.Perm (entries w.thread.sock2PrioMap w.polls.flatten)

/-- The poll between two handlers does not bring a command whose handler raises an `IndexError`. -/
def Continues (w : Journal S) (e : Work S) : Prop :=
  e = .proceed → w.thread.pc = .repolling → w.thread.control.head? ≠ some .indexError

instance (w : Journal S) (e : Work S) : Decidable (w.Continues e) := inferInstanceAs (Decidable (_ → _ → _))

/-- The thread has not ended. -/
def Live (s : ComponentThread S) : Prop := s.pc ≠ .stopped ∧ s.pc ≠ .failed

/-- The queue and what was dispatched are what the polls have reported. -/
structure Sound (w : Journal S) (pq : List (ℤ × ℕ × S)) (tc : ℕ) : Prop where
  scheduler : w.thread.scheduler = .priority pq tc
  sorted : pq.Pairwise Before
  inserted : w.dispatched.Pairwise Inserted
  behind : ∀ d ∈ w.dispatched, ∀ e ∈ pq, Inserted d e
  registered : ∀ socket ∈ w.polls.flatten, socket ∈ w.thread.sock2PrioMap
  account : Live w.thread → ∃ done, w.polls.flatten = done ++ w.thread.pc.reported ∧ tc = done.length ∧
    (w.dispatched ++ pq).Perm (entries w.thread.sock2PrioMap done)
  reported : ∀ sockets, w.thread.pc = .scheduling sockets → sockets ≠ [] ∧ w.latest = sockets
  latest : w.thread.pc = .dispatching → ∀ socket ∈ w.latest,
    ∃ e ∈ pq, e.2.2 = socket ∧ w.thread.sock2PrioMap.get? socket = some e.1
  queued : w.thread.pc = .dispatching ∨ w.thread.pc = .repolling → pq ≠ []
  returned : w.thread.pc = .polling → pq = []

/-! ### Steps -/

theorem length_tagged {sock2PrioMap : Dict S ℤ} {sockets : List S} (h : ∀ socket ∈ sockets, socket ∈ sock2PrioMap) :
    (tagged sock2PrioMap sockets).length = sockets.length := by
  induction sockets with
  | nil => rfl
  | cons socket sockets ih =>
    obtain ⟨hsocket, hsockets⟩ := List.forall_mem_cons.mp h
    obtain ⟨tag, htag⟩ := Dict.mem_iff_exists_get?.mp hsocket
    have hcons : tagged sock2PrioMap (socket :: sockets) = (tag, socket) :: tagged sock2PrioMap sockets := by
      simp [tagged, htag]
    rw [hcons, List.length_cons, ih hsockets, List.length_cons]

theorem entries_append {sock2PrioMap : Dict S ℤ} {done : List S} (h : ∀ socket ∈ done, socket ∈ sock2PrioMap)
    (sockets : List S) : entries sock2PrioMap (done ++ sockets) =
      entries sock2PrioMap done ++ entriesFrom done.length (tagged sock2PrioMap sockets) := by
  rw [entries, tagged, List.filterMap_append, entriesFrom_append, Nat.zero_add]
  exact congrArg (fun n => _ ++ entriesFrom n _) (length_tagged h)

theorem length_entries {sock2PrioMap : Dict S ℤ} {sockets : List S} (h : ∀ socket ∈ sockets, socket ∈ sock2PrioMap) :
    (entries sock2PrioMap sockets).length = sockets.length := by
  rw [entries, length_entriesFrom, length_tagged h]

omit [DecidableEq S] in
theorem latest_append (w : Journal S) (sockets : List S) (t : ComponentThread S) (d : List (ℤ × ℕ × S)) :
    latest ⟨t, w.polls ++ [sockets], d⟩ = sockets := by
  rw [latest, List.getLastD_eq_getLast?, List.getLast?_concat]
  rfl

variable {w : Journal S} {pq : List (ℤ × ℕ × S)} {tc : ℕ}

/-- After a poll. What it reports is to be queued, if it is anything and the thread goes on. -/
theorem Sound.poll (h : Sound w pq tc) (hpc : w.thread.pc = .polling ∨ w.thread.pc = .repolling)
    {t : ComponentThread S} (hscheduler : t.scheduler = w.thread.scheduler)
    (hmap : t.sock2PrioMap = w.thread.sock2PrioMap)
    (ht : ¬Live t ∨ t.pc = .scheduling w.thread.ready ∧ w.thread.ready ≠ [] ∨
      w.thread.ready = [] ∧
        (t.pc = .polling ∧ w.thread.pc = .polling ∨ t.pc = .dispatching ∧ w.thread.pc = .repolling)) :
    Sound ⟨t, w.polls ++ [w.thread.ready], w.dispatched⟩ pq tc := by
  have hlive : Live w.thread := by
    rcases hpc with hpc | hpc <;> simp [Live, hpc]
  have hnone : w.thread.pc.reported = [] := by
    rcases hpc with hpc | hpc <;> rw [hpc] <;> rfl
  obtain ⟨done, hdone, htc, hperm⟩ := h.account hlive
  have hflatten : (w.polls ++ [w.thread.ready]).flatten = done ++ w.thread.ready := by
    rw [List.flatten_append, List.flatten_singleton, hdone, hnone, List.append_nil]
  constructor
  · rw [hscheduler, h.scheduler]
  · exact h.sorted
  · exact h.inserted
  · exact h.behind
  · intro socket hsocket
    rw [hmap]
    rw [List.flatten_append, List.flatten_singleton] at hsocket
    rcases List.mem_append.mp hsocket with hsocket | hsocket
    · exact h.registered socket hsocket
    · exact (ComponentThread.mem_ready.mp hsocket).1
  · intro hgoes
    refine ⟨done, ?_, htc, hmap ▸ hperm⟩
    rw [hflatten]
    rcases ht with hdead | ⟨hsched, -⟩ | ⟨hready, ⟨hpc', -⟩ | ⟨hpc', -⟩⟩
    · exact absurd hgoes hdead
    · rw [hsched]
      rfl
    · rw [hready, hpc']
      rfl
    · rw [hready, hpc']
      rfl
  · intro sockets (hsockets : t.pc = .scheduling sockets)
    rw [latest_append]
    rcases ht with hdead | ⟨hsched, hne⟩ | ⟨-, ⟨hpc', -⟩ | ⟨hpc', -⟩⟩
    · exact absurd (by simp [Live, hsockets]) hdead
    · obtain rfl := Pc.scheduling.inj (hsched.symm.trans hsockets)
      exact ⟨hne, rfl⟩
    · simp [hpc'] at hsockets
    · simp [hpc'] at hsockets
  · intro (hdispatching : t.pc = .dispatching) socket hsocket
    rw [latest_append] at hsocket
    rcases ht with hdead | ⟨hsched, -⟩ | ⟨hready, -⟩
    · exact absurd (by simp [Live, hdispatching]) hdead
    · simp [hsched] at hdispatching
    · rw [hready] at hsocket
      cases hsocket
  · intro (hqueued : t.pc = .dispatching ∨ t.pc = .repolling)
    rcases ht with hdead | ⟨hsched, -⟩ | ⟨-, ⟨hpc', -⟩ | ⟨-, hre⟩⟩
    · exact absurd (by rcases hqueued with hq | hq <;> simp [Live, hq]) hdead
    · simp [hsched] at hqueued
    · simp [hpc'] at hqueued
    · exact h.queued (Or.inr hre)
  · intro (hpolling : t.pc = .polling)
    rcases ht with hdead | ⟨hsched, -⟩ | ⟨-, ⟨-, hpol⟩ | ⟨hpc', -⟩⟩
    · exact absurd (by simp [Live, hpolling]) hdead
    · simp [hsched] at hpolling
    · exact h.returned hpol
    · simp [hpc'] at hpolling

theorem polled_of_ne {s : ComponentThread S} (h : s.pc ≠ .polling) (h' : s.pc ≠ .repolling) : polled s = [] :=
  if_neg fun hpoll => hpoll.1.elim h h'

theorem polled_of_quiet {s : ComponentThread S} (hready : s.ready = []) (hcontrol : s.control = []) : polled s = [] :=
  if_neg fun hpoll => hpoll.2.elim (fun h => h hready) fun h => h hcontrol

theorem polled_eq {s : ComponentThread S} (hpc : s.pc = .polling ∨ s.pc = .repolling)
    (h : s.ready ≠ [] ∨ s.control ≠ []) : polled s = [s.ready] := if_pos ⟨hpc, h⟩

omit [DecidableEq S] in
theorem taken_of_ne {s : ComponentThread S} (h : s.pc ≠ .dispatching) : taken s = [] := by
  unfold taken
  split
  case h_1 hpc _ => exact absurd hpc h
  case h_2 => rfl

/-- Away from the polls and the heap the journal stays as it is. -/
theorem step_proceed_of_ne (h : w.thread.pc ≠ .polling) (h' : w.thread.pc ≠ .repolling)
    (h'' : w.thread.pc ≠ .dispatching) : w.step .proceed = ⟨w.thread.proceed, w.polls, w.dispatched⟩ := by
  rw [step, polled_of_ne h h', taken_of_ne h'', List.append_nil, List.append_nil]

/-- A round pushes an entry for each socket that was reported. -/
theorem Sound.push (h : Sound w pq tc) {sockets : List S} (hpc : w.thread.pc = .scheduling sockets) :
    ∃ pq' tc', Sound (w.step .proceed) pq' tc' := by
  obtain ⟨hne, hlatest⟩ := h.reported sockets hpc
  obtain ⟨done, hdone, htc, hperm⟩ := h.account (by simp [Live, hpc])
  rw [hpc] at hdone
  change w.polls.flatten = done ++ sockets at hdone
  have hregistered := h.registered
  rw [hdone, List.forall_mem_append] at hregistered
  obtain ⟨hold, hnew⟩ := hregistered
  -- every entry has a count below the next
  have hcount : ∀ e ∈ w.dispatched ++ pq, e.2.1 < tc := by
    intro e he
    have hmem := count_of_mem_entriesFrom (hperm.mem_iff.mp he)
    rw [length_tagged hold] at hmem
    omega
  rw [List.forall_mem_append] at hcount
  obtain ⟨tag, hjobs⟩ := ComponentThread.jobsOf_of_registered hnew w.thread.tag
  obtain ⟨pq', hpush, hsorted, hpq'⟩ := pushAll_eq h.sorted hcount.2 (tagged w.thread.sock2PrioMap sockets)
  rw [length_tagged hnew] at hpush
  obtain ⟨t, ht, hscheduler, hmap, htpc⟩ : ∃ t, w.step .proceed = ⟨t, w.polls, w.dispatched⟩ ∧
      t.scheduler = .priority pq' (tc + sockets.length) ∧ t.sock2PrioMap = w.thread.sock2PrioMap ∧
        t.pc = .dispatching := by
    refine ⟨w.thread.proceed, step_proceed_of_ne (by simp [hpc]) (by simp [hpc]) (by simp [hpc]), ?_⟩
    unfold ComponentThread.proceed
    rw [hpc]
    simp only [hjobs, h.scheduler, add, hpush, and_self]
  rw [ht]
  refine ⟨pq', tc + sockets.length, ?_⟩
  -- each socket that was reported has its entry
  have hnewest : ∀ socket ∈ sockets, ∃ e ∈ pq', e.2.2 = socket ∧ w.thread.sock2PrioMap.get? socket = some e.1 := by
    intro socket hsocket
    obtain ⟨pri, hpri⟩ := Dict.mem_iff_exists_get?.mp (hnew socket hsocket)
    have hjob : (pri, socket) ∈ tagged w.thread.sock2PrioMap sockets :=
      List.mem_filterMap.mpr ⟨socket, hsocket, by rw [hpri]; rfl⟩
    obtain ⟨e, he, hprie, hsockete⟩ := exists_mem_entriesFrom tc hjob
    exact ⟨e, hpq'.mem_iff.mpr (List.mem_append_right _ he), hsockete, by rw [hpri, hprie]⟩
  constructor
  · exact hscheduler
  · exact hsorted
  · exact h.inserted
  · intro d hd e he
    rcases List.mem_append.mp (hpq'.mem_iff.mp he) with he | he
    · exact h.behind d hd e he
    · intro _
      exact (hcount.1 d hd).trans_le (count_of_mem_entriesFrom he).1
  · rw [hmap]
    exact h.registered
  · intro _
    refine ⟨done ++ sockets, ?_, ?_, ?_⟩
    · rw [htpc, hdone]
      exact (List.append_nil _).symm
    · rw [List.length_append, htc]
    · rw [hmap, entries_append hold, ← htc]
      refine (hpq'.append_left _).trans ?_
      rw [← List.append_assoc]
      exact hperm.append_right _
  · intro sockets' (hsockets : t.pc = .scheduling sockets')
    simp [htpc] at hsockets
  · intro _ socket hsocket
    rw [hmap]
    exact hnewest socket (hlatest ▸ hsocket)
  · rintro - rfl
    obtain ⟨socket, hsocket⟩ := List.exists_mem_of_ne_nil sockets hne
    obtain ⟨e, he, -⟩ := hnewest socket hsocket
    cases he
  · intro (hpolling : t.pc = .polling)
    simp [htpc] at hpolling

/-- The least entry is taken from the heap, and its handler runs. -/
theorem Sound.dispatch (h : Sound w pq tc) (hpc : w.thread.pc = .dispatching) :
    ∃ e pq', pq = e :: pq' ∧ w.thread.proceed.pc = .handling e.2.2 ∧ Sound (w.step .proceed) pq' tc := by
  obtain ⟨done, hdone, htc, hperm⟩ := h.account (by simp [Live, hpc])
  obtain ⟨e, pq', rfl⟩ := List.exists_cons_of_ne_nil (h.queued (Or.inl hpc))
  rw [hpc] at hdone
  change w.polls.flatten = done ++ [] at hdone
  have hsocket : e.2.2 ∈ w.thread.sock2PrioMap := by
    have hjob := job_of_mem_entriesFrom (hperm.mem_iff.mp (List.mem_append_right _ List.mem_cons_self))
    obtain ⟨socket, hsocket, hget⟩ := List.mem_filterMap.mp hjob
    obtain ⟨pri, -, heq⟩ := Option.map_eq_some_iff.mp hget
    obtain ⟨-, rfl⟩ := Prod.mk.inj heq
    exact h.registered _ (hdone ▸ List.mem_append_left _ hsocket)
  obtain ⟨t, ht, hproceed, hscheduler, hmap, htpc⟩ : ∃ t, w.step .proceed = ⟨t, w.polls, w.dispatched ++ [e]⟩ ∧
      w.thread.proceed = t ∧ t.scheduler = .priority pq' tc ∧ t.sock2PrioMap = w.thread.sock2PrioMap ∧
      t.pc = .handling e.2.2 := by
    refine ⟨w.thread.proceed, ?_, rfl, ?_⟩
    · have htaken : taken w.thread = [e] := by rw [taken, hpc, h.scheduler]
      rw [step, polled_of_ne (by simp [hpc]) (by simp [hpc]), htaken, List.append_nil]
    · unfold ComponentThread.proceed
      rw [hpc]
      simp [h.scheduler, pop, ComponentThread.executeHandlerFor, hsocket]
  refine ⟨e, pq', rfl, hproceed ▸ htpc, ?_⟩
  rw [ht]
  obtain ⟨hfirst, hrest⟩ := List.pairwise_cons.mp h.sorted
  constructor
  · exact hscheduler
  · exact hrest
  · refine List.pairwise_append.mpr ⟨h.inserted, List.pairwise_singleton _ _, ?_⟩
    rintro d hd e' he'
    obtain rfl := List.mem_singleton.mp he'
    exact h.behind d hd _ List.mem_cons_self
  · intro d hd e' he'
    rcases List.mem_append.mp hd with hd | hd
    · exact h.behind d hd e' (List.mem_cons_of_mem _ he')
    · obtain rfl := List.mem_singleton.mp hd
      exact (hfirst e' he').inserted
  · rw [hmap]
    exact h.registered
  · intro _
    refine ⟨done, ?_, htc, ?_⟩
    · rw [htpc, hdone]
      rfl
    · rw [hmap, List.append_assoc]
      exact hperm
  all_goals simp [htpc]

/-- A handler that has returned leads to a poll, or out of the scheduler when its queue is empty. -/
theorem Sound.handle (h : Sound w pq tc) {socket : S} (hpc : w.thread.pc = .handling socket) :
    Sound (w.step .proceed) pq tc := by
  obtain ⟨done, hdone, htc, hperm⟩ := h.account (by simp [Live, hpc])
  rw [hpc] at hdone
  change w.polls.flatten = done ++ [] at hdone
  rw [step_proceed_of_ne (by simp [hpc]) (by simp [hpc]) (by simp [hpc])]
  have hproceed : w.thread.proceed =
      if w.thread.invocations.count socket ≤ w.thread.arrivals.count socket then w.thread.afterJob else w.thread := by
    unfold ComponentThread.proceed
    rw [hpc]
  rw [hproceed]
  split
  swap
  · exact h
  have hsockets : w.thread.scheduler.sockets = [] ↔ pq = [] := by
    rw [h.scheduler]
    exact List.map_eq_nil_iff
  have hafter : w.thread.afterJob.pc = if pq = [] then .polling else .repolling := by
    rw [ComponentThread.afterJob]
    simp only [hsockets]
  refine ⟨h.scheduler, h.sorted, h.inserted, h.behind, h.registered, fun _ => ⟨done, ?_, htc, hperm⟩, ?_, ?_, ?_, ?_⟩
  · rw [ComponentThread.reported_afterJob]
    exact hdone
  all_goals simp only [hafter]
  · intro sockets hsched
    split at hsched <;> cases hsched
  · intro hdispatching
    split at hdispatching <;> cases hdispatching
  · rintro hqueued rfl
    simp at hqueued
  · intro hpolling
    by_contra hne
    simp [hne] at hpolling

/-- What is said of a thread is said of its heap, its priorities and where it is. -/
theorem Sound.congr (h : Sound w pq tc) {t : ComponentThread S} (hscheduler : t.scheduler = w.thread.scheduler)
    (hmap : t.sock2PrioMap = w.thread.sock2PrioMap) (hpc : t.pc = w.thread.pc) :
    Sound ⟨t, w.polls, w.dispatched⟩ pq tc := by
  obtain ⟨s, polls, dispatched⟩ := w
  dsimp only at hscheduler hmap hpc
  refine ⟨hscheduler.trans h.scheduler, h.sorted, h.inserted, h.behind, ?_, ?_, ?_, ?_, ?_, ?_⟩ <;>
    simp only [Live, hmap, hpc]
  · exact h.registered
  · exact h.account
  · exact h.reported
  · exact h.latest
  · exact h.queued
  · exact h.returned

omit [DecidableEq S] in
/-- After a command the thread has ended, or is where it goes on, or where an `IndexError` is caught. -/
theorem runCommand_cases {s : ComponentThread S} (h : s.control ≠ []) (next caught : Pc S) :
    (s.runCommand next caught).scheduler = s.scheduler ∧ (s.runCommand next caught).sock2PrioMap = s.sock2PrioMap ∧
      (¬Live (s.runCommand next caught) ∨ (s.runCommand next caught).pc = next ∨
        s.control.head? = some .indexError ∧ (s.runCommand next caught).pc = caught) := by
  unfold ComponentThread.runCommand
  split
  case h_1 => exact ⟨rfl, rfl, .inl (by simp [Live])⟩
  case h_2 => exact ⟨rfl, rfl, .inr (.inl rfl)⟩
  case h_3 control hcontrol => exact ⟨rfl, rfl, .inr (.inr ⟨by rw [hcontrol]; rfl, rfl⟩)⟩
  case h_4 => exact ⟨rfl, rfl, .inl (by simp [Live])⟩
  case h_5 hcontrol => exact absurd hcontrol h

/-- The poll of `run`. -/
theorem Sound.polling (h : Sound w pq tc) (hpc : w.thread.pc = .polling) : Sound (w.step .proceed) pq tc := by
  rw [step, taken_of_ne (by simp [hpc]), List.append_nil]
  have hproceed : w.thread.proceed =
      if w.thread.control = [] then
        { w.thread with pc := if w.thread.ready = [] then .polling else .scheduling w.thread.ready, tag := none }
      else { w.thread with tag := none }.runCommand
        (if w.thread.ready = [] then .polling else .scheduling w.thread.ready) .failed := by
    unfold ComponentThread.proceed
    rw [hpc]
    dsimp only
    rw [hpc]
  have hgoes {t : ComponentThread S}
      (ht : t.pc = if w.thread.ready = [] then .polling else .scheduling w.thread.ready) :
      t.pc = .scheduling w.thread.ready ∧ w.thread.ready ≠ [] ∨
        w.thread.ready = [] ∧
          (t.pc = .polling ∧ w.thread.pc = .polling ∨ t.pc = .dispatching ∧ w.thread.pc = .repolling) := by
    by_cases hready : w.thread.ready = []
    · exact .inr ⟨hready, .inl ⟨ht.trans (if_pos hready), hpc⟩⟩
    · exact .inl ⟨ht.trans (if_neg hready), hready⟩
  by_cases hcontrol : w.thread.control = []
  · rw [hproceed, if_pos hcontrol]
    by_cases hready : w.thread.ready = []
    · rw [polled_of_quiet hready hcontrol, List.append_nil]
      exact h.congr rfl rfl ((if_pos hready).trans hpc.symm)
    · rw [polled_eq (.inl hpc) (.inl hready)]
      exact h.poll (.inl hpc) rfl rfl (.inr (hgoes rfl))
  · rw [hproceed, if_neg hcontrol, polled_eq (.inl hpc) (.inr hcontrol)]
    obtain ⟨hscheduler, hmap, hnext⟩ := runCommand_cases (s := { w.thread with tag := none }) hcontrol
      (if w.thread.ready = [] then .polling else .scheduling w.thread.ready) .failed
    refine h.poll (.inl hpc) hscheduler hmap ?_
    rcases hnext with hdead | hnext | ⟨-, hfailed⟩
    · exact .inl hdead
    · exact .inr (hgoes hnext)
    · exact .inl fun hlive => hlive.2 hfailed

/-- The poll between two handlers. -/
theorem Sound.repolling (h : Sound w pq tc) (hpc : w.thread.pc = .repolling) (hc : w.Continues .proceed) :
    Sound (w.step .proceed) pq tc := by
  rw [step, taken_of_ne (by simp [hpc]), List.append_nil]
  have hbreaks : w.thread.scheduler.breaksAfterControl = false := by
    rw [h.scheduler]
    rfl
  have hproceed : w.thread.proceed =
      if w.thread.control = [] then
        if w.thread.ready = [] then w.thread else { w.thread with pc := .scheduling w.thread.ready }
      else w.thread.runCommand (if w.thread.ready = [] then .dispatching else .scheduling w.thread.ready) .polling := by
    unfold ComponentThread.proceed
    rw [hpc]
    dsimp only
    rw [hbreaks]
    by_cases hready : w.thread.ready = [] <;> simp [hready]
  by_cases hcontrol : w.thread.control = []
  · rw [hproceed, if_pos hcontrol]
    by_cases hready : w.thread.ready = []
    · rw [if_pos hready, polled_of_quiet hready hcontrol, List.append_nil]
      exact h
    · rw [if_neg hready, polled_eq (.inr hpc) (.inl hready)]
      exact h.poll (.inr hpc) rfl rfl (.inr (.inl ⟨rfl, hready⟩))
  · rw [hproceed, if_neg hcontrol, polled_eq (.inr hpc) (.inr hcontrol)]
    obtain ⟨hscheduler, hmap, hnext⟩ := runCommand_cases hcontrol
      (if w.thread.ready = [] then .dispatching else .scheduling w.thread.ready) .polling
    refine h.poll (.inr hpc) hscheduler hmap ?_
    rcases hnext with hdead | hnext | ⟨hindex, -⟩
    · exact .inl hdead
    · by_cases hready : w.thread.ready = []
      · exact .inr (.inr ⟨hready, .inr ⟨hnext.trans (if_pos hready), hpc⟩⟩)
      · exact .inr (.inl ⟨hnext.trans (if_neg hready), hready⟩)
    · exact absurd hindex (hc rfl hpc)

/-! ### Runs -/

theorem sound_init (sock2PrioMap : Dict S ℤ) : Sound (init sock2PrioMap) [] 0 where
  scheduler := rfl
  sorted := List.Pairwise.nil
  inserted := List.Pairwise.nil
  behind _ h := nomatch h
  registered _ h := nomatch h
  account _ := ⟨[], rfl, rfl, .refl _⟩
  reported sockets h := nomatch h
  latest h := nomatch h
  queued h := by simp [init, ComponentThread.init] at h
  returned _ := rfl

theorem sound_step (h : Sound w pq tc) {e : Work S} (hc : w.Continues e) : ∃ pq' tc', Sound (w.step e) pq' tc' := by
  cases e with
  | arrive socket => exact ⟨pq, tc, h.congr rfl rfl rfl⟩
  | command c => exact ⟨pq, tc, h.congr rfl rfl rfl⟩
  | proceed =>
    cases hpc : w.thread.pc with
    | polling => exact ⟨pq, tc, h.polling hpc⟩
    | scheduling sockets => exact h.push hpc
    | dispatching =>
      obtain ⟨e, pq', -, -, hstep⟩ := h.dispatch hpc
      exact ⟨pq', tc, hstep⟩
    | handling socket => exact ⟨pq, tc, h.handle hpc⟩
    | repolling => exact ⟨pq, tc, h.repolling hpc hc⟩
    | stopped | failed =>
      have hproceed : w.thread.proceed = w.thread := by
        unfold ComponentThread.proceed
        rw [hpc]
      rw [step_proceed_of_ne (by simp [hpc]) (by simp [hpc]) (by simp [hpc]), hproceed]
      exact ⟨pq, tc, h⟩

theorem Sound.ordered (h : Sound w pq tc) : w.Ordered where
  least hpc := by
    obtain ⟨e, pq', rfl, hproceed, -⟩ := h.dispatch hpc
    exact ⟨e, pq', tc, h.scheduler, hproceed, (List.pairwise_cons.mp h.sorted).1, h.latest hpc⟩
  inserted := h.inserted
  returned hpc := by
    obtain ⟨done, hdone, -, hperm⟩ := h.account (by simp [Live, hpc])
    rw [hpc] at hdone
    rw [h.returned hpc, List.append_nil] at hperm
    rw [hdone]
    exact (List.append_nil done).symm ▸ hperm

/-- A scheduler that a command ends leaves entries in its queue. -/
theorem Sound.continues_of_ordered (h : Sound w pq tc) {e : Work S} (hstep : (w.step e).Ordered) : w.Continues e := by
  rintro rfl hpc hindex
  obtain ⟨done, hdone, -, hperm⟩ := h.account (by simp [Live, hpc])
  rw [hpc] at hdone
  change w.polls.flatten = done ++ [] at hdone
  obtain ⟨control, hcontrol⟩ := List.head?_eq_some_iff.mp hindex
  have hne : w.thread.control ≠ [] := by simp [hcontrol]
  obtain ⟨t, ht, hmap, htpc⟩ : ∃ t, w.step .proceed = ⟨t, w.polls ++ [w.thread.ready], w.dispatched⟩ ∧
      t.sock2PrioMap = w.thread.sock2PrioMap ∧ t.pc = .polling := by
    refine ⟨w.thread.proceed, ?_, ?_⟩
    · rw [step, taken_of_ne (by simp [hpc]), List.append_nil, polled_eq (.inr hpc) (.inr hne)]
    · unfold ComponentThread.proceed
      rw [hpc]
      simp [hcontrol, ComponentThread.runCommand]
  rw [ht] at hstep
  have hreported : ∀ socket ∈ (w.polls ++ [w.thread.ready]).flatten, socket ∈ w.thread.sock2PrioMap := by
    intro socket hsocket
    rw [List.flatten_append, List.flatten_singleton] at hsocket
    rcases List.mem_append.mp hsocket with hsocket | hsocket
    · exact h.registered socket hsocket
    · exact (ComponentThread.mem_ready.mp hsocket).1
  -- fewer entries were dispatched than sockets were reported
  have hall := (hstep.returned htpc).length_eq
  have hsome := hperm.length_eq
  rw [hmap, length_entries hreported, List.flatten_append, List.length_append] at hall
  rw [List.append_nil] at hdone
  rw [List.length_append, ← hdone, length_entries h.registered] at hsome
  have hpos := List.length_pos_iff.mpr (h.queued (Or.inr hpc))
  dsimp only at hall
  omega

/-- **Which runs keep the order of priority**: those in which no poll between two handlers brings a command whose
handler raises an `IndexError`. -/
theorem priorityOrder_iff (sock2PrioMap : Dict S ℤ) (events : List (Work S)) :
    Always step Ordered (init sock2PrioMap) events ↔ AllSteps step Continues (init sock2PrioMap) events :=
  always_iff_allSteps_of_inv (J := fun w => ∃ pq tc, Sound w pq tc) (fun _ ⟨_, _, h⟩ => h.ordered)
    (fun _ _ ⟨_, _, h⟩ hc => sound_step h hc) (fun _ _ ⟨_, _, h⟩ hstep => h.continues_of_ordered hstep)
    ⟨[], 0, sound_init sock2PrioMap⟩ events

/-- Two messages have come, and while the handler of the first runs, a command: its handler raises an `IndexError`, and
the scheduler returns without the second. -/
theorem not_priorityOrder :
    ¬Always step Ordered (init ComponentThread.threePorts)
      ([.arrive 1, .arrive 2] ++ List.replicate 3 .proceed ++ [.command .indexError] ++ List.replicate 2 .proceed) := by
  intro h
  exact absurd (h.last.returned (by decide +kernel)) (by decide +kernel)

end Journal

end Riaps.Component
