import Mathlib.Data.Fintype.EquivFin
import Riaps.Foundation.Histories
import Riaps.Foundation.PyText
import Riaps.Foundation.Redis
import Riaps.Foundation.Runs

/-!
# The discovery database over redis

The other store that a discovery server can have. The values of a key are a set at a redis
server that all hosts share, which is any `Redis`, and its clients are another one. A server
that looks up a key subscribes to the changes of its set, so that it hears of values that come
later.

What ends the subscription is a `remove` after which the key has no value, whoever still waits
for one. Clients that are attached hear of what is inserted, for as long as that does not happen
under their key: `follows_iff`.
-/

namespace Riaps.Discovery

open Riaps.Foundation

/-- `key + "_clients"`. -/
def clientsKey (key : Text) : Text := key ++ ['_', 'c', 'l', 'i', 'e', 'n', 't', 's']

/-- What the name of a channel has before its key. -/
def keyspace : Text := ['_', '_', 'k', 'e', 'y', 's', 'p', 'a', 'c', 'e', '@', '0', '_', '_', ':']

/-- A text up to where it has `pat`. -/
def upTo (pat : Text) : Text → Text
  | [] => []
  | c :: s => if pat <+: c :: s then [] else c :: upTo pat s

/-- The state of a `RedisDbase`, with what is at the server. A channel is named by its key. -/
structure RedisDbase (R : Redis Text Text) where
  sets : R.Sets
  /-- `notesPubSub`. -/
  pubSub : R.PubSub
  subKeys : List Text

namespace RedisDbase

variable {R : Redis Text Text}

/-- `start`, with the sets that are at the server. -/
def start (sets : R.Sets) : RedisDbase R := ⟨sets, R.pubsub, []⟩

/-- `smembers`. -/
def smembers (key : Text) (d : RedisDbase R) : List Text := R.smembers key d.sets

/-- `sadd`: who is subscribed is notified. -/
def sadd (key value : Text) (d : RedisDbase R) : RedisDbase R :=
  let (sets, keys) := R.sadd key value d.sets
  { d with sets := sets, pubSub := R.notify keys d.pubSub }

/-- `srem`. -/
def srem (key value : Text) (d : RedisDbase R) : RedisDbase R :=
  let (sets, keys) := R.srem key value d.sets
  { d with sets := sets, pubSub := R.notify keys d.pubSub }

/-- `addSub`. -/
def addSub (newKey : Text) (d : RedisDbase R) : RedisDbase R :=
  if newKey ∈ d.subKeys then d
  else { d with subKeys := d.subKeys ++ [newKey], pubSub := R.subscribe newKey d.pubSub }

/-- `delSub`. -/
def delSub (key : Text) (d : RedisDbase R) : RedisDbase R :=
  if key ∈ d.subKeys then
    { d with subKeys := d.subKeys.filter (· ≠ key), pubSub := R.unsubscribe key d.pubSub }
  else d

/-- `insert`, and the clients that it returns. -/
def insert (key value : Text) (d : RedisDbase R) : RedisDbase R × List Text :=
  if value ∈ d.smembers key then (d, [])
  else
    let d := d.sadd key value
    (d, d.smembers (clientsKey key))

/-- `fetch`, and the values that it returns. -/
def fetch (key client : Text) (d : RedisDbase R) : RedisDbase R × List Text :=
  let d := d.addSub key
  (d.sadd (clientsKey key) client, d.smembers key)

/-- `remove`, and the values that it returns. -/
def remove (key value : Text) (d : RedisDbase R) : RedisDbase R × List Text :=
  let d := d.srem key value
  let values := d.smembers key
  (if values = [] then d.delSub key else d, values)

/-- `detach`. -/
def detach (key target : Text) (d : RedisDbase R) : RedisDbase R := d.srem (clientsKey key) target

/-- Another state of the connection. -/
def withPubSub (pubSub : R.PubSub) (d : RedisDbase R) : RedisDbase R := { d with pubSub := pubSub }

/-- `fetchUpdates`: of each key that a message names, the values, with the clients. A key is read from the
name of its channel up to where that has the prefix again. -/
def fetchUpdates (d : RedisDbase R) : RedisDbase R × List (Text × Text × List Text) :=
  if d.subKeys = [] then (d, [])
  else
    let (channels, pubSub) := R.readAll d.pubSub
    (d.withPubSub pubSub,
      (channels.map (upTo keyspace)).flatMap fun key =>
        (d.smembers key).map fun value => (key, value, d.smembers (clientsKey key)))

/-! ### What happens -/

/-- A call. -/
inductive Call where
  | insert (key value : Text)
  | fetch (key client : Text)
  | remove (key value : Text)
  | detach (key client : Text)
  deriving DecidableEq

/-- What happens: a call, one that another server makes, or that updates are fetched. -/
inductive Op where
  | call (c : Call)
  | other (c : Call)
  | fetchUpdates
  deriving DecidableEq

/-- The call. -/
def call (d : RedisDbase R) : Call → RedisDbase R
  | .insert key value => (d.insert key value).1
  | .fetch key client => (d.fetch key client).1
  | .remove key value => (d.remove key value).1
  | .detach key client => d.detach key client

/-- What a call of another server does to the sets. -/
def other (d : RedisDbase R) : Call → RedisDbase R
  | .insert key value => d.sadd key value
  | .fetch key client => d.sadd (clientsKey key) client
  | .remove key value => d.srem key value
  | .detach key client => d.srem (clientsKey key) client

/-- It happens. -/
def step (d : RedisDbase R) : Op → RedisDbase R
  | .call c => d.call c
  | .other c => d.other c
  | .fetchUpdates => d.fetchUpdates.1

/-- The client fetched the key through this server, and was not detached since. -/
def Attached (key client : Text) (ops : List Op) : Prop :=
  IsOpen (· = .call (.fetch key client)) (fun op => op = .call (.detach key client) ∨ op = .other (.detach key client))
    ops

/-- Updates are fetched until the value is reported with the client. -/
def Reports (d : RedisDbase R) (key value client : Text) : Prop :=
  ∃ n, ∃ u ∈ (run step d (List.replicate n .fetchUpdates)).fetchUpdates.2,
    u.1 = key ∧ u.2.1 = value ∧ client ∈ u.2.2

/-- A key with a client that is attached is subscribed, and a new value that this server or another one
inserts is reported with the client. -/
def Follows (t : RedisDbase R × List Op) : Prop :=
  ∀ key client, Attached key client t.2 → key ∈ t.1.subKeys ∧ key ∈ R.channels t.1.pubSub ∧
    ∀ value, value ∉ t.1.smembers key → Reports (step t.1 (.call (.insert key value))) key value client ∧
      Reports (step t.1 (.other (.insert key value))) key value client

/-- What this server removes leaves the key a value, or a key without clients that are attached; what is
removed is not a client that is attached, from the set of its key; and a key that is fetched can be read
from the name of its channel. -/
def Keeps (t : RedisDbase R × List Op) : Op → Prop
  | .call (.fetch key _) => ¬ keyspace <:+: key
  | .call (.remove key value) =>
    ((∃ w ∈ t.1.smembers key, w ≠ value) ∨ ∀ client, ¬ Attached key client t.2) ∧
      ∀ k client, Attached k client t.2 → ¬(clientsKey k = key ∧ client = value)
  | .other (.remove key value) => ∀ k client, Attached k client t.2 → ¬(clientsKey k = key ∧ client = value)
  | _ => True

/-! ### The names of keys -/

theorem clientsKey_inj {k j : Text} : clientsKey k = clientsKey j ↔ k = j := List.append_left_inj _

theorem clientsKey_ne (k : Text) : clientsKey k ≠ k := by
  intro h
  have hlength := congrArg List.length h
  simp [clientsKey] at hlength

theorem not_infix_upTo {pat : Text} (hpat : pat ≠ []) (s : Text) : ¬ pat <:+: upTo pat s := by
  induction s with
  | nil => simpa [upTo] using hpat
  | cons c s ih =>
    rw [upTo]
    split_ifs with hpre
    · simpa using hpat
    · intro hinfix
      have hprefix : ∀ s : Text, upTo pat s <+: s := by
        intro s
        induction s with
        | nil => exact List.nil_prefix
        | cons c s ih =>
          rw [upTo]
          split_ifs
          · exact List.nil_prefix
          · exact List.cons_prefix_cons.mpr ⟨rfl, ih⟩
      rcases List.infix_cons_iff.mp hinfix with h | h
      · exact hpre (h.trans (List.cons_prefix_cons.mpr ⟨rfl, hprefix s⟩))
      · exact ih h

theorem upTo_eq_self {pat : Text} {s : Text} (h : ¬ pat <:+: s) : upTo pat s = s := by
  induction s with
  | nil => rfl
  | cons c s ih =>
    rw [upTo, if_neg fun hpre => h hpre.isInfix, ih fun hs => h (hs.trans (List.suffix_cons c s).isInfix)]

/-! ### What the operations do -/

section Sets

variable {d : RedisDbase R} {key value k v : Text}

@[simp] theorem channels_sadd (key value : Text) (d : RedisDbase R) :
    R.channels (d.sadd key value).pubSub = R.channels d.pubSub := R.channels_notify ..

@[simp] theorem channels_srem (key value : Text) (d : RedisDbase R) :
    R.channels (d.srem key value).pubSub = R.channels d.pubSub := R.channels_notify ..

theorem mem_smembers_sadd : v ∈ (d.sadd key value).smembers k ↔ k = key ∧ v = value ∨ v ∈ d.smembers k :=
  R.mem_smembers_sadd

theorem mem_smembers_srem : v ∈ (d.srem key value).smembers k ↔ v ∈ d.smembers k ∧ ¬(k = key ∧ v = value) :=
  R.mem_smembers_srem

@[simp] theorem smembers_addSub (newKey k : Text) (d : RedisDbase R) : (d.addSub newKey).smembers k = d.smembers k := by
  unfold addSub
  split_ifs <;> rfl

@[simp] theorem smembers_delSub (key k : Text) (d : RedisDbase R) : (d.delSub key).smembers k = d.smembers k := by
  unfold delSub
  split_ifs <;> rfl

/-- The call that inserts does to the sets what another server's does. -/
theorem insert_eq (h : value ∉ d.smembers key) : (d.insert key value).1 = d.sadd key value := by
  rw [insert, if_neg h]

end Sets

/-- Keys that are in the list are subscribed. -/
def Listed (d : RedisDbase R) : Prop := ∀ key ∈ d.subKeys, key ∈ R.channels d.pubSub

section Subscriptions

variable {d : RedisDbase R} {newKey key k : Text}

theorem mem_subKeys_addSub : k ∈ (d.addSub newKey).subKeys ↔ k = newKey ∨ k ∈ d.subKeys := by
  unfold addSub
  split_ifs with h
  · refine ⟨Or.inr, ?_⟩
    rintro (rfl | hk)
    exacts [h, hk]
  · simp [or_comm]

theorem mem_channels_addSub (hd : Listed d) :
    k ∈ R.channels (d.addSub newKey).pubSub ↔ k = newKey ∨ k ∈ R.channels d.pubSub := by
  unfold addSub
  split_ifs with h
  · refine ⟨Or.inr, ?_⟩
    rintro (rfl | hk)
    exacts [hd _ h, hk]
  · exact R.mem_channels_subscribe

theorem mem_subKeys_delSub : k ∈ (d.delSub key).subKeys ↔ k ∈ d.subKeys ∧ k ≠ key := by
  unfold delSub
  split_ifs with h
  · simp
  · refine ⟨fun hk => ⟨hk, ?_⟩, And.left⟩
    rintro rfl
    exact h hk

theorem mem_channels_delSub (hk : k ∈ R.channels d.pubSub) (hne : k ≠ key) :
    k ∈ R.channels (d.delSub key).pubSub := by
  unfold delSub
  split_ifs
  · exact R.mem_channels_unsubscribe.mpr ⟨hk, hne⟩
  · exact hk

end Subscriptions

/-! ### What is reported -/

section Reporting

variable {d : RedisDbase R} {key value client : Text}

theorem fetchUpdates_fst (h : d.subKeys ≠ []) :
    d.fetchUpdates.1 = d.withPubSub (R.readAll d.pubSub).2 := by
  rw [fetchUpdates, if_neg h]

theorem mem_fetchUpdates (h : d.subKeys ≠ []) (u : Text × Text × List Text) :
    u ∈ d.fetchUpdates.2 ↔ ∃ channel ∈ (R.readAll d.pubSub).1, u.1 = upTo keyspace channel ∧
      u.2.1 ∈ d.smembers u.1 ∧ u.2.2 = d.smembers (clientsKey u.1) := by
  obtain ⟨k, v, clients⟩ := u
  rw [fetchUpdates, if_neg h]
  simp only [List.mem_flatMap, List.mem_map, Prod.mk.injEq, exists_exists_and_eq_and]
  constructor
  · rintro ⟨channel, hchannel, value, hvalue, rfl, rfl, rfl⟩
    exact ⟨channel, hchannel, rfl, hvalue, rfl⟩
  · rintro ⟨channel, hchannel, rfl, hvalue, rfl⟩
    exact ⟨channel, hchannel, v, hvalue, rfl, rfl, rfl⟩

theorem run_fetchUpdates (n : ℕ) (h : d.subKeys ≠ []) :
    run step d (List.replicate n .fetchUpdates) = d.withPubSub (R.left d.pubSub n) := by
  induction n generalizing d with
  | zero => rfl
  | succ n ih =>
    have hleft : (d.withPubSub (R.readAll d.pubSub).2).subKeys ≠ [] := h
    rw [List.replicate_succ, run_cons, step, fetchUpdates_fst h, ih hleft]
    rfl

/-- A new value of a key that is subscribed is reported with the clients of the key, if the key can be read from
the name of its channel. -/
theorem reports_iff (hsub : key ∈ d.subKeys) (hchannel : key ∈ R.channels d.pubSub) (hvalue : value ∉ d.smembers key) :
    Reports (d.sadd key value) key value client ↔ client ∈ d.smembers (clientsKey key) ∧ ¬ keyspace <:+: key := by
  have hne : (d.sadd key value).subKeys ≠ [] := List.ne_nil_of_mem hsub
  have hmem : ∀ n u, u ∈ (run step (d.sadd key value) (List.replicate n .fetchUpdates)).fetchUpdates.2 ↔
      ∃ channel ∈ (R.readAll (R.left (d.sadd key value).pubSub n)).1, u.1 = upTo keyspace channel ∧
        u.2.1 ∈ (d.sadd key value).smembers u.1 ∧ u.2.2 = (d.sadd key value).smembers (clientsKey u.1) := by
    intro n u
    rw [run_fetchUpdates n hne]
    exact mem_fetchUpdates (d := (d.sadd key value).withPubSub (R.left (d.sadd key value).pubSub n)) hne u
  have hclients : client ∈ (d.sadd key value).smembers (clientsKey key) ↔ client ∈ d.smembers (clientsKey key) := by
    rw [mem_smembers_sadd]
    exact or_iff_right fun h => clientsKey_ne key h.1
  constructor
  · rintro ⟨n, u, hu, rfl, -, hclient⟩
    obtain ⟨channel, -, hkey, -, hclients'⟩ := (hmem n u).mp hu
    refine ⟨hclients.mp (hclients' ▸ hclient), ?_⟩
    rw [hkey]
    exact not_infix_upTo (by simp [keyspace]) channel
  · rintro ⟨hclient, hinfix⟩
    have hnotified : key ∈ (R.sadd key value d.sets).2 := R.notified_sadd hvalue
    obtain ⟨n, hn⟩ := R.exists_mem_readAll_notify hnotified hchannel
    refine ⟨n, (key, value, (d.sadd key value).smembers (clientsKey key)), (hmem n _).mpr ?_, rfl, rfl,
      hclients.mpr hclient⟩
    exact ⟨key, hn, (upTo_eq_self hinfix).symm, mem_smembers_sadd.mpr (Or.inl ⟨rfl, rfl⟩), rfl⟩

end Reporting

/-! ### Who hears -/

/-- The key is subscribed, the client is one of its clients and the key can be read from its channel. -/
structure Hears (d : RedisDbase R) (key client : Text) : Prop where
  subKeys : key ∈ d.subKeys
  channels : key ∈ R.channels d.pubSub
  clients : client ∈ d.smembers (clientsKey key)
  readable : ¬ keyspace <:+: key

theorem follows_iff_hears {t : RedisDbase R × List Op} :
    Follows t ↔ ∀ key client, Attached key client t.2 → Hears t.1 key client := by
  refine forall₃_congr fun key client _ => ?_
  constructor
  · rintro ⟨hsub, hchannel, hreports⟩
    obtain ⟨value, hvalue⟩ := Infinite.exists_notMem_finset (t.1.smembers key).toFinset
    replace hvalue : value ∉ t.1.smembers key := fun h => hvalue (List.mem_toFinset.mpr h)
    obtain ⟨hclient, hinfix⟩ := (reports_iff hsub hchannel hvalue).mp (hreports value hvalue).2
    exact ⟨hsub, hchannel, hclient, hinfix⟩
  · intro h
    refine ⟨h.subKeys, h.channels, fun value hvalue => ?_⟩
    have hreports := (reports_iff h.subKeys h.channels hvalue).mpr ⟨h.clients, h.readable⟩
    refine ⟨?_, hreports⟩
    rw [step, call, insert_eq hvalue]
    exact hreports

section Step

variable {t : RedisDbase R × List Op} {key client k : Text}

theorem attached_fetch {k c : Text} : Attached key client (t.2 ++ [.call (.fetch k c)]) ↔
    (k = key ∧ c = client) ∨ Attached key client t.2 := by
  rw [Attached, isOpen_concat, Attached]
  simp

theorem attached_detach {op : Op} {k c : Text} (hop : op = .call (.detach k c) ∨ op = .other (.detach k c)) :
    Attached key client (t.2 ++ [op]) ↔ Attached key client t.2 ∧ ¬(k = key ∧ c = client) := by
  rw [Attached, isOpen_concat, Attached]
  rcases hop with rfl | rfl <;> simp

/-- What neither fetches nor detaches. -/
theorem attached_other {op : Op} (hfetch : ∀ k c, op ≠ .call (.fetch k c)) (hcall : ∀ k c, op ≠ .call (.detach k c))
    (hother : ∀ k c, op ≠ .other (.detach k c)) : Attached key client (t.2 ++ [op]) ↔ Attached key client t.2 := by
  rw [Attached, isOpen_concat, Attached]
  simp [hfetch, hcall, hother]

/-- What leaves the subscriptions and takes no client. -/
theorem Hears.of_sets {d d' : RedisDbase R} (h : Hears d key client) (hsub : d'.subKeys = d.subKeys)
    (hchannels : R.channels d'.pubSub = R.channels d.pubSub)
    (hclients : client ∈ d.smembers (clientsKey key) → client ∈ d'.smembers (clientsKey key)) :
    Hears d' key client where
  subKeys := hsub ▸ h.subKeys
  channels := hchannels ▸ h.channels
  clients := hclients h.clients
  readable := h.readable

/-- A set from which a value is removed. -/
theorem hears_srem_iff {d : RedisDbase R} (h : Hears d key client) (k v : Text) :
    Hears (d.srem k v) key client ↔ ¬(clientsKey key = k ∧ client = v) := by
  refine ⟨fun h' => (mem_smembers_srem.mp h'.clients).2, fun hne => ?_⟩
  exact h.of_sets rfl (channels_srem ..) fun hclient => mem_smembers_srem.mpr ⟨hclient, hne⟩

/-- A set from which this server removes a value. -/
theorem hears_remove_iff {d : RedisDbase R} (h : Hears d key client) (k v : Text) :
    Hears (d.remove k v).1 key client ↔
      ((∃ w ∈ d.smembers k, w ≠ v) ∨ key ≠ k) ∧ ¬(clientsKey key = k ∧ client = v) := by
  have hempty : (d.srem k v).smembers k = [] ↔ ¬ ∃ w ∈ d.smembers k, w ≠ v := by
    simp only [List.eq_nil_iff_forall_not_mem, mem_smembers_srem, true_and, not_exists, not_and, ne_eq]
  rw [remove]
  dsimp only
  by_cases hw : ∃ w ∈ d.smembers k, w ≠ v
  · rw [if_neg fun he => hempty.mp he hw, hears_srem_iff h]
    simp [hw]
  · rw [if_pos (hempty.mpr hw)]
    constructor
    · intro h'
      have hclients := h'.clients
      rw [smembers_delSub] at hclients
      exact ⟨Or.inr (mem_subKeys_delSub.mp h'.subKeys).2, (mem_smembers_srem.mp hclients).2⟩
    · rintro ⟨hkey, hne⟩
      have hsrem := (hears_srem_iff h k v).mpr hne
      replace hkey := hkey.resolve_left hw
      exact ⟨mem_subKeys_delSub.mpr ⟨hsrem.subKeys, hkey⟩, mem_channels_delSub hsrem.channels hkey,
        by rw [smembers_delSub]; exact hsrem.clients, h.readable⟩

/-- A key that is fetched, and the others. -/
theorem hears_fetch_iff {d : RedisDbase R} (hd : Listed d) {k c : Text}
    (h : (k = key ∧ c = client) ∨ Hears d key client) :
    Hears (d.fetch k c).1 key client ↔ (k = key ∧ c = client → ¬ keyspace <:+: key) := by
  refine ⟨fun h' _ => h'.readable, fun hread => ?_⟩
  refine ⟨?_, ?_, ?_, ?_⟩
  · exact mem_subKeys_addSub.mpr (h.imp (fun h => h.1.symm) Hears.subKeys)
  · rw [fetch, channels_sadd]
    exact (mem_channels_addSub hd).mpr (h.imp (fun h => h.1.symm) Hears.channels)
  · refine mem_smembers_sadd.mpr (h.imp (fun h => ⟨by rw [h.1], h.2.symm⟩) fun h => ?_)
    rw [smembers_addSub]
    exact h.clients
  · exact h.elim hread Hears.readable

theorem Hears.sadd {d : RedisDbase R} (h : Hears d key client) (k v : Text) : Hears (d.sadd k v) key client :=
  h.of_sets rfl (channels_sadd ..) fun hclient => mem_smembers_sadd.mpr (Or.inr hclient)

/-- A client that is detached is no other one. -/
theorem Hears.detach {d : RedisDbase R} (h : Hears d key client) {k c : Text} (hne : ¬(k = key ∧ c = client)) :
    Hears (d.detach k c) key client := by
  refine (hears_srem_iff h _ _).mpr fun he => hne ?_
  exact ⟨(clientsKey_inj.mp he.1).symm, he.2.symm⟩

theorem Hears.fetchUpdates {d : RedisDbase R} (h : Hears d key client) : Hears d.fetchUpdates.1 key client := by
  rw [fetchUpdates_fst (List.ne_nil_of_mem h.subKeys)]
  exact h.of_sets rfl (R.channels_readAll _) id

/-- What happens leaves all clients that are attached hearing of new values exactly if it keeps their
subscriptions. -/
theorem follows_step_iff (hd : Listed t.1) (h : Follows t) (op : Op) : Follows (recorded step t op) ↔ Keeps t op := by
  rw [follows_iff_hears] at h ⊢
  change (∀ key client, Attached key client (t.2 ++ [op]) → Hears (step t.1 op) key client) ↔ _
  cases op with
  | fetchUpdates =>
    refine iff_of_true (fun key client ha => ?_) trivial
    exact (h key client ((attached_other (by simp) (by simp) (by simp)).mp ha)).fetchUpdates
  | call c =>
    cases c with
    | insert k v =>
      refine iff_of_true (fun key client ha => ?_) trivial
      have hears := h key client ((attached_other (by simp) (by simp) (by simp)).mp ha)
      change Hears (t.1.insert k v).1 key client
      by_cases hv : v ∈ t.1.smembers k
      · rwa [RedisDbase.insert, if_pos hv]
      · rw [insert_eq hv]
        exact hears.sadd k v
    | detach k c =>
      refine iff_of_true (fun key client ha => ?_) trivial
      obtain ⟨ha, hne⟩ := (attached_detach (Or.inl rfl)).mp ha
      exact (h key client ha).detach hne
    | fetch k c =>
      simp only [attached_fetch, Keeps]
      constructor
      · intro hall
        exact (hall k c (Or.inl ⟨rfl, rfl⟩)).readable
      · rintro hread key client ha
        refine (hears_fetch_iff hd (ha.imp_right (h key client))).mpr ?_
        rintro ⟨rfl, -⟩
        exact hread
    | remove k v =>
      have hsame (key client : Text) : Attached key client (t.2 ++ [.call (.remove k v)]) ↔ Attached key client t.2 :=
        attached_other (by simp) (by simp) (by simp)
      simp only [hsame, Keeps]
      constructor
      · intro hall
        have hiff := fun key client ha => (hears_remove_iff (h key client ha) k v).mp (hall key client ha)
        refine ⟨or_iff_not_imp_left.mpr fun hno client ha => ?_, fun key client ha => (hiff key client ha).2⟩
        exact (hiff k client ha).1.resolve_left hno rfl
      · rintro ⟨hleft, hclient⟩ key client ha
        refine (hears_remove_iff (h key client ha) k v).mpr ⟨hleft.imp_right fun hno => ?_, hclient key client ha⟩
        rintro rfl
        exact hno client ha
  | other c =>
    cases c with
    | insert k v | fetch k v =>
      refine iff_of_true (fun key client ha => ?_) trivial
      exact (h key client ((attached_other (by simp) (by simp) (by simp)).mp ha)).sadd _ v
    | detach k c =>
      refine iff_of_true (fun key client ha => ?_) trivial
      obtain ⟨ha, hne⟩ := (attached_detach (Or.inr rfl)).mp ha
      exact (h key client ha).detach hne
    | remove k v =>
      have hsame (key client : Text) : Attached key client (t.2 ++ [.other (.remove k v)]) ↔ Attached key client t.2 :=
        attached_other (by simp) (by simp) (by simp)
      simp only [hsame, Keeps]
      exact forall₃_congr fun key client ha => hears_srem_iff (h key client ha) k v

end Step

/-! ### Runs -/

theorem Listed.addSub {d : RedisDbase R} (h : Listed d) (newKey : Text) : Listed (d.addSub newKey) := by
  intro k hk
  exact (mem_channels_addSub h).mpr ((mem_subKeys_addSub.mp hk).imp_right (h k))

theorem Listed.delSub {d : RedisDbase R} (h : Listed d) (key : Text) : Listed (d.delSub key) := by
  intro k hk
  obtain ⟨hk, hne⟩ := mem_subKeys_delSub.mp hk
  exact mem_channels_delSub (h k hk) hne

theorem Listed.sadd {d : RedisDbase R} (h : Listed d) (key value : Text) : Listed (d.sadd key value) := by
  intro k hk
  rw [channels_sadd]
  exact h k hk

theorem Listed.srem {d : RedisDbase R} (h : Listed d) (key value : Text) : Listed (d.srem key value) := by
  intro k hk
  rw [channels_srem]
  exact h k hk

theorem Listed.fetchUpdates {d : RedisDbase R} (h : Listed d) : Listed d.fetchUpdates.1 := by
  rw [RedisDbase.fetchUpdates]
  split_ifs
  · exact h
  · intro k hk
    change k ∈ R.channels (R.readAll d.pubSub).2
    rw [R.channels_readAll]
    exact h k hk

theorem Listed.step {d : RedisDbase R} (h : Listed d) (op : Op) : Listed (step d op) := by
  cases op with
  | fetchUpdates => exact h.fetchUpdates
  | other c =>
    cases c with
    | insert k v | fetch k v => exact h.sadd _ v
    | remove k v | detach k v => exact h.srem _ v
  | call c =>
    cases c with
    | insert k v =>
      change Listed (d.insert k v).1
      rw [RedisDbase.insert]
      split_ifs
      · exact h
      · exact h.sadd k v
    | fetch k c => exact (h.addSub k).sadd _ c
    | detach k c => exact h.srem _ c
    | remove k v =>
      change Listed (d.remove k v).1
      rw [RedisDbase.remove]
      dsimp only
      split_ifs
      · exact (h.srem k v).delSub k
      · exact h.srem k v

/-- **Subscriptions follow clients** all along a run exactly if this server removes no last value of a key that has a
client attached, no attached client is removed from the set of its key, and keys can be read from channels. -/
theorem follows_iff (sets : R.Sets) (ops : List Op) :
    Always (recorded step) Follows (start sets, []) ops ↔ AllSteps (recorded step) Keeps (start sets, []) ops := by
  have hstart : Follows (start sets, []) := fun key client ha => absurd ha not_isOpen_nil
  have hlisted : Listed (start sets) := fun key hkey => absurd hkey List.not_mem_nil
  exact always_iff_allSteps (I := fun t : RedisDbase R × List Op => Listed t.1) (fun _ op hd _ => hd.step op)
    (fun t op hd h => follows_step_iff (t := t) hd h op) hlisted hstart ops

/-- At a server whose sets are a dictionary, and that has none yet. -/
def startEmpty : RedisDbase (Redis.ofDict Text Text) := start Dict.empty

/-- The only value of a key is removed, and its client hears of nothing any more. -/
theorem not_follows :
    ¬ Always (recorded step) Follows (startEmpty, [])
      [.call (.fetch ['k'] ['a']), .call (.insert ['k'] ['v']), .call (.remove ['k'] ['v'])] := by
  intro h
  have ha : Attached ['k'] ['a']
      [.call (.fetch ['k'] ['a']), .call (.insert ['k'] ['v']), .call (.remove ['k'] ['v'])] :=
    ⟨[], _, [_, _], rfl, rfl, by simp⟩
  have hsub := (h.last ['k'] ['a'] ha).1
  exact absurd hsub (by decide +kernel)

end RedisDbase

end Riaps.Discovery
