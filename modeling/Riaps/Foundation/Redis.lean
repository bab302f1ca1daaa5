import Mathlib.Data.List.Basic
import Riaps.Foundation.Dict

/-!
# Sets with notifications

A server that keeps sets under keys and notifies of every change, and the connection of a
subscriber. A channel is named by its key. Who is subscribed to the channel of a key gets a
message for each change of its set, which waits until it is read.

The server is that of another package. A `Redis` is any of its kind: the sets are sets, a value
that is new to one is notified of, and a message of a channel that is subscribed is read after
some readings. A reading may also give nothing while messages wait. `Redis.ofDict` is one
of them, where a subscription and its end are confirmed among the messages, and a confirmation
looks, to a reader that is to ignore it, as if there were nothing to read.
-/

namespace Riaps.Foundation

namespace Redis

/-- What so many readings give. -/
def received {P C : Type} (getMessage : P → Option C × P) : ℕ → P → List C
  | 0, _ => []
  | n + 1, p => (getMessage p).1.toList ++ received getMessage n (getMessage p).2

end Redis

/-- A server of sets, and a connection to its channels. -/
structure Redis (K V : Type) where
  /-- What is at the server. -/
  Sets : Type
  /-- A connection, with what came and was not read. -/
  PubSub : Type
  smembers : K → Sets → List V
  /-- `sadd`, and the keys whose channels are notified. -/
  sadd : K → V → Sets → Sets × List K
  /-- `srem`, and the keys whose channels are notified. -/
  srem : K → V → Sets → Sets × List K
  /-- `r.pubsub()` -/
  pubsub : PubSub
  /-- Those that are subscribed. -/
  channels : PubSub → List K
  subscribe : K → PubSub → PubSub
  unsubscribe : K → PubSub → PubSub
  /-- Channels are notified. -/
  notify : List K → PubSub → PubSub
  /-- `get_message(True)`: the channel of a message, or nothing. -/
  getMessage : PubSub → Option K × PubSub
  /-- How much waits. -/
  waiting : PubSub → ℕ
  mem_smembers_sadd : ∀ {k v j w sets}, w ∈ smembers j (sadd k v sets).1 ↔ j = k ∧ w = v ∨ w ∈ smembers j sets
  mem_smembers_srem : ∀ {k v j w sets}, w ∈ smembers j (srem k v sets).1 ↔ w ∈ smembers j sets ∧ ¬(j = k ∧ w = v)
  notified_sadd : ∀ {k v sets}, v ∉ smembers k sets → k ∈ (sadd k v sets).2
  channels_pubsub : channels pubsub = []
  mem_channels_subscribe : ∀ {k j p}, j ∈ channels (subscribe k p) ↔ j = k ∨ j ∈ channels p
  mem_channels_unsubscribe : ∀ {k j p}, j ∈ channels (unsubscribe k p) ↔ j ∈ channels p ∧ j ≠ k
  channels_notify : ∀ ks p, channels (notify ks p) = channels p
  channels_getMessage : ∀ p, channels (getMessage p).2 = channels p
  getMessage_of_waiting : ∀ {p}, waiting p ≠ 0 → waiting (getMessage p).2 < waiting p
  getMessage_of_not_waiting : ∀ {p}, waiting p = 0 → getMessage p = (none, p)
  received_notify : ∀ {ks k p}, k ∈ ks → k ∈ channels p → ∃ n, k ∈ Redis.received getMessage n (notify ks p)

namespace Redis

/-! ### Reading -/

section Reading

variable {K V : Type} (R : Redis K V)

/-- `get_message` until it gives nothing, so often at most: the channels of the messages. -/
def readWhile : ℕ → R.PubSub → List K × R.PubSub
  | 0, p => ([], p)
  | n + 1, p =>
    match R.getMessage p with
    | (none, p) => ([], p)
    | (some k, p) => (k :: (readWhile n p).1, (readWhile n p).2)

/-- The loop, which ends, since each message that is read was waiting. -/
def readAll (p : R.PubSub) : List K × R.PubSub := R.readWhile (R.waiting p + 1) p

/-- What is left after the loop was run so often. -/
def left (p : R.PubSub) : ℕ → R.PubSub
  | 0 => p
  | n + 1 => left (R.readAll p).2 n

variable {p : R.PubSub} {k : K}

/-- More rounds than there are messages change nothing. -/
theorem readWhile_eq {n : ℕ} (h : R.waiting p < n) : R.readWhile n p = R.readAll p := by
  have hsame : ∀ {n m : ℕ} {p : R.PubSub}, R.waiting p < n → R.waiting p < m → R.readWhile n p = R.readWhile m p := by
    intro n
    induction n with
    | zero => exact fun h => absurd h (Nat.not_lt_zero _)
    | succ n ih =>
      intro m p hn hm
      obtain ⟨m, rfl⟩ := Nat.exists_eq_succ_of_ne_zero (Nat.ne_zero_of_lt hm)
      by_cases hp : R.waiting p = 0
      · simp only [readWhile, R.getMessage_of_not_waiting hp]
      · have hlt := R.getMessage_of_waiting hp
        have hrest : R.readWhile n (R.getMessage p).2 = R.readWhile m (R.getMessage p).2 := ih (by omega) (by omega)
        rw [readWhile, readWhile]
        rcases hget : R.getMessage p with ⟨_ | c, p'⟩
        · rfl
        · simp only [hget] at hrest ⊢
          rw [hrest]
  exact hsame h (Nat.lt_succ_self _)

theorem readAll_of_none (h : (R.getMessage p).1 = none) : R.readAll p = ([], (R.getMessage p).2) := by
  rcases hget : R.getMessage p with ⟨c, p'⟩
  rw [hget] at h
  rw [readAll, readWhile, hget, show c = none from h]

theorem readAll_of_some {c : K} (h : (R.getMessage p).1 = some c) :
    R.readAll p = (c :: (R.readAll (R.getMessage p).2).1, (R.readAll (R.getMessage p).2).2) := by
  have hp : R.waiting p ≠ 0 := fun hp => by simp [R.getMessage_of_not_waiting hp] at h
  rw [← R.readWhile_eq (R.getMessage_of_waiting hp), readAll, readWhile]
  rcases hget : R.getMessage p with ⟨d, p'⟩
  rw [hget] at h
  rw [show d = some c from h]

/-- A message that comes with some reading is in what one of the loops reads: where a reading gives nothing, the
loop ends and another one goes on. -/
theorem exists_mem_readAll {n : ℕ} (h : k ∈ received R.getMessage n p) : ∃ n, k ∈ (R.readAll (R.left p n)).1 := by
  induction n generalizing p with
  | zero => exact absurd h List.not_mem_nil
  | succ n ih =>
    rw [received, List.mem_append, Option.mem_toList] at h
    cases hget : (R.getMessage p).1 with
    | none =>
      obtain ⟨m, hm⟩ := ih (h.resolve_left (by simp [hget]))
      refine ⟨m + 1, ?_⟩
      rwa [left, R.readAll_of_none hget]
    | some c =>
      have hread := R.readAll_of_some hget
      rcases h with h | h
      · refine ⟨0, ?_⟩
        rw [left, hread, Option.mem_unique h hget]
        exact List.mem_cons_self
      · obtain ⟨m, hm⟩ := ih h
        cases m with
        | zero =>
          refine ⟨0, ?_⟩
          rw [left, hread]
          exact List.mem_cons_of_mem _ hm
        | succ m =>
          refine ⟨m + 1, ?_⟩
          rwa [left, hread]

/-- A change of a channel that is subscribed is read at last. -/
theorem exists_mem_readAll_notify {ks : List K} (hk : k ∈ ks) (hp : k ∈ R.channels p) :
    ∃ n, k ∈ (R.readAll (R.left (R.notify ks p) n)).1 := by
  obtain ⟨n, hn⟩ := R.received_notify hk hp
  exact R.exists_mem_readAll hn

theorem channels_readAll (p : R.PubSub) : R.channels (R.readAll p).2 = R.channels p := by
  have hwhile : ∀ n p, R.channels (R.readWhile n p).2 = R.channels p := by
    intro n
    induction n with
    | zero => exact fun _ => rfl
    | succ n ih =>
      intro p
      have hchannels := R.channels_getMessage p
      rw [readWhile]
      rcases hget : R.getMessage p with ⟨_ | c, p'⟩
      · rwa [hget] at hchannels
      · rw [hget] at hchannels
        exact (ih p').trans hchannels
  exact hwhile _ p

end Reading

/-! ### Sets in a dictionary, and a queue of messages -/

section Dictionary

variable {K V : Type} [DecidableEq K] [DecidableEq V]

/-- The values under a key; a key whose set is empty is not there. -/
def dictMembers (k : K) (sets : Dict K (List V)) : List V := (sets.get? k).getD []

/-- A value that is new is notified of. -/
def dictAdd (k : K) (v : V) (sets : Dict K (List V)) : Dict K (List V) × List K :=
  if v ∈ dictMembers k sets then (sets, []) else (sets.set k (dictMembers k sets ++ [v]), [k])

/-- A value that is removed is notified of, and a set that is emptied once more. -/
def dictRemove (k : K) (v : V) (sets : Dict K (List V)) : Dict K (List V) × List K :=
  if v ∈ dictMembers k sets then
    let rest := (dictMembers k sets).filter (· ≠ v)
    if rest = [] then (sets.del k, [k, k]) else (sets.set k rest, [k])
  else (sets, [])

variable {sets : Dict K (List V)} {k j : K} {v w : V}

theorem mem_dictMembers_dictAdd :
    w ∈ dictMembers j (dictAdd k v sets).1 ↔ j = k ∧ w = v ∨ w ∈ dictMembers j sets := by
  unfold dictAdd
  split_ifs with hv
  · refine ⟨Or.inr, ?_⟩
    rintro (⟨rfl, rfl⟩ | h)
    exacts [hv, h]
  · simp only [dictMembers, Dict.get?_set]
    by_cases hj : j = k
    · simp [hj, or_comm]
    · simp [hj]

theorem mem_dictMembers_dictRemove :
    w ∈ dictMembers j (dictRemove k v sets).1 ↔ w ∈ dictMembers j sets ∧ ¬(j = k ∧ w = v) := by
  unfold dictRemove
  dsimp only
  split_ifs with hv hrest
  · have hall : ∀ w ∈ dictMembers k sets, w = v := by
      rw [List.filter_eq_nil_iff] at hrest
      simpa using hrest
    simp only [dictMembers, Dict.get?_del]
    by_cases hj : j = k
    · subst hj
      simpa [dictMembers] using hall w
    · simp [hj]
  · simp only [dictMembers, Dict.get?_set]
    by_cases hj : j = k
    · simp [hj]
    · simp [hj]
  · refine ⟨fun h => ⟨h, ?_⟩, And.left⟩
    rintro ⟨rfl, rfl⟩
    exact hv h

/-- A message of a channel, or a confirmation. -/
inductive Message (K : Type) where
  | confirmation
  | message (channel : K)

/-- A connection whose messages wait in a queue. -/
structure Subscriber (K : Type) where
  channels : List K
  queue : List (Message K)

namespace Subscriber

/-- The messages of the channels that are subscribed come. -/
def notify (ks : List K) (p : Subscriber K) : Subscriber K :=
  { p with queue := p.queue ++ (ks.filter (· ∈ p.channels)).map .message }

/-- A confirmation is taken, and gives nothing. -/
def getMessage (p : Subscriber K) : Option K × Subscriber K :=
  match p.queue with
  | [] => (none, p)
  | .confirmation :: queue => (none, { p with queue := queue })
  | .message k :: queue => (some k, { p with queue := queue })

/-- What is in the queue is received. -/
theorem mem_received {p : Subscriber K} {k : K} (h : .message k ∈ p.queue) :
    k ∈ received getMessage p.queue.length p := by
  obtain ⟨channels, queue⟩ := p
  induction queue with
  | nil => simp at h
  | cons m queue ih =>
    rw [List.length_cons, received, List.mem_append]
    cases m with
    | confirmation => exact Or.inr (ih ((List.mem_cons.mp h).resolve_left (by simp)))
    | message c =>
      by_cases hc : k = c
      · exact Or.inl (by simp [getMessage, hc])
      · exact Or.inr (ih ((List.mem_cons.mp h).resolve_left (by simpa using hc)))

end Subscriber

/-- A server whose sets are a dictionary. -/
def ofDict (K V : Type) [DecidableEq K] [DecidableEq V] : Redis K V where
  Sets := Dict K (List V)
  PubSub := Subscriber K
  smembers := dictMembers
  sadd := dictAdd
  srem := dictRemove
  pubsub := ⟨[], []⟩
  channels := Subscriber.channels
  subscribe k p := ⟨p.channels.insert k, p.queue ++ [.confirmation]⟩
  unsubscribe k p := ⟨p.channels.filter (· ≠ k), p.queue ++ [.confirmation]⟩
  notify := Subscriber.notify
  getMessage := Subscriber.getMessage
  waiting p := p.queue.length
  mem_smembers_sadd := mem_dictMembers_dictAdd
  mem_smembers_srem := mem_dictMembers_dictRemove
  notified_sadd hv := by
    rw [dictAdd, if_neg hv]
    exact List.mem_singleton_self _
  channels_pubsub := rfl
  mem_channels_subscribe := List.mem_insert_iff
  mem_channels_unsubscribe := by simp
  channels_notify _ _ := rfl
  channels_getMessage p := by
    obtain ⟨channels, queue⟩ := p
    rcases queue with _ | ⟨_ | _, _⟩ <;> rfl
  getMessage_of_waiting := by
    rintro ⟨channels, queue⟩ h
    rcases queue with _ | ⟨_ | _, _⟩
    · exact absurd rfl h
    all_goals exact Nat.lt_succ_self _
  getMessage_of_not_waiting := by
    rintro ⟨channels, queue⟩ h
    obtain rfl : queue = [] := List.length_eq_zero_iff.mp h
    rfl
  received_notify hk hp := ⟨_, Subscriber.mem_received <|
    List.mem_append_right _ (List.mem_map_of_mem (List.mem_filter.mpr ⟨hk, decide_eq_true hp⟩))⟩

end Dictionary

end Redis

end Riaps.Foundation
