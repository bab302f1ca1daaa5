import Mathlib.Tactic.Linarith
import Riaps.Coordination.Polling

/-!
# Timeouts and deadlines

Two times of a group thread are computed from others. The timeout of its loop goes on
while messages come in: each of them takes off what has passed since the one
before, in whole milliseconds, and starts the measurement anew. The fraction of
a millisecond that is left is not counted, so messages that come often enough
postpone the timeout for as long as they come (`updates_of_frequent`).

A request for a vote has a time by which it is to be decided. The leader's deadline
takes the delay of the request off twice, once as the time that has passed and once
to compensate for it, and so it can be over when the poll is opened. And a request
that leaves its timeout to the group gets a number of milliseconds as if it were
one of seconds (`punctual_iff`).
-/

namespace Riaps.Coordination

open Riaps.Foundation

universe u

variable {Id : Type u}

namespace GroupThread

/-! ### The timeout of the loop -/

/-- `updateTimeout` at one time after another. -/
def updates (ts : List ℚ) (s : GroupThread Id) : GroupThread Id := ts.foldl (fun s t => s.updateTimeout t) s

/-- The whole milliseconds between one time and the next, added up. -/
def wholeMs : ℚ → List ℚ → ℤ
  | _, [] => 0
  | t₀, t :: ts => ⌊(t - t₀) * 1000⌋ + wholeMs t ts

theorem pyInt_of_le {t₀ t : ℚ} (h : t₀ ≤ t) : pyInt ((t - t₀) * 1000) = ⌊(t - t₀) * 1000⌋ := by
  have hpos : 0 ≤ (t - t₀) * 1000 := by linarith
  rw [pyInt, if_pos hpos]

theorem wholeMs_nonneg {t₀ : ℚ} {ts : List ℚ} (h : (t₀ :: ts).Pairwise (· ≤ ·)) : 0 ≤ wholeMs t₀ ts := by
  induction ts generalizing t₀ with
  | nil => exact le_rfl
  | cons t ts ih =>
    obtain ⟨hle, hts⟩ := List.pairwise_cons.mp h
    have hgap : 0 ≤ ⌊(t - t₀) * 1000⌋ := Int.floor_nonneg.mpr (by linarith [hle t List.mem_cons_self])
    exact add_nonneg hgap (ih hts)

/-- They are at most the whole milliseconds of all the time. -/
theorem wholeMs_le (t₀ : ℚ) (ts : List ℚ) : wholeMs t₀ ts ≤ ⌊(ts.getLastD t₀ - t₀) * 1000⌋ := by
  induction ts generalizing t₀ with
  | nil => simp [wholeMs]
  | cons t ts ih =>
    have hsplit : ((t :: ts).getLastD t₀ - t₀) * 1000 = (t - t₀) * 1000 + (ts.getLastD t - t) * 1000 := by
      rw [List.getLastD_cons]
      ring
    rw [hsplit]
    exact (add_le_add_right (ih t) _).trans (Int.le_floor_add _ _)

/-- What remains: the updates together take the whole milliseconds off, and leave 1. -/
theorem timeout_updates {ts : List ℚ} (s : GroupThread Id) (hne : ts ≠ [])
    (h : (s.lastWait :: ts).Pairwise (· ≤ ·)) :
    (s.updates ts).timeout = max (s.timeout - wholeMs s.lastWait ts) 1 := by
  induction ts generalizing s with
  | nil => exact absurd rfl hne
  | cons t ts ih =>
    obtain ⟨hle, hts⟩ := List.pairwise_cons.mp h
    have hone : (s.updateTimeout t).timeout = max (s.timeout - ⌊(t - s.lastWait) * 1000⌋) 1 := by
      rw [updateTimeout, pyInt_of_le (hle t List.mem_cons_self)]
    show ((s.updateTimeout t).updates ts).timeout = _
    cases ts with
    | nil =>
      rw [wholeMs, wholeMs, add_zero]
      exact hone
    | cons t' ts =>
      have hpos := wholeMs_nonneg hts
      have hsum : wholeMs s.lastWait (t :: t' :: ts) = ⌊(t - s.lastWait) * 1000⌋ + wholeMs t (t' :: ts) := rfl
      rw [ih (s.updateTimeout t) (List.cons_ne_nil t' ts) hts, hone, hsum]
      show max (_ - wholeMs t (t' :: ts)) 1 = _
      omega

/-- After the updates the timeout is not longer than it should be. -/
structure InTime (T : ℤ) (t₀ : ℚ) (ts : List ℚ) (s : GroupThread Id) : Prop where
  remains : ((s.setTimeout T t₀).updates ts).timeout ≤ max (T - ⌊(ts.getLastD t₀ - t₀) * 1000⌋) 1
  /-- To the millisecond, the next `handleTimeout` is due by the time that was set, or at once. -/
  due : ts.getLastD t₀ * 1000 + ((s.setTimeout T t₀).updates ts).timeout ≤
    max (t₀ * 1000 + T) (ts.getLastD t₀ * 1000) + 1

/-- A timeout that is not longer than it should be is due in time. -/
theorem due_of_remains {T remains : ℤ} {t₀ now : ℚ} (h : remains ≤ max (T - ⌊(now - t₀) * 1000⌋) 1) :
    now * 1000 + remains ≤ max (t₀ * 1000 + T) (now * 1000) + 1 := by
  have hfloor := Int.lt_floor_add_one ((now - t₀) * 1000)
  rcases le_max_iff.mp h with h | h
  · have hcast : (remains : ℚ) ≤ T - ⌊(now - t₀) * 1000⌋ := by exact_mod_cast h
    have hleft := le_max_left (t₀ * 1000 + T) (now * 1000)
    linarith
  · have hcast : (remains : ℚ) ≤ 1 := by exact_mod_cast h
    have hright := le_max_right (t₀ * 1000 + T) (now * 1000)
    linarith

/-- **When messages do not postpone the timeout**: when the fractions of milliseconds between them do not add up to one,
or what is counted is enough. -/
theorem inTime_iff (T : ℤ) {t₀ : ℚ} {ts : List ℚ} (s : GroupThread Id) (h : (t₀ :: ts).Pairwise (· ≤ ·)) :
    InTime T t₀ ts s ↔ wholeMs t₀ ts = ⌊(ts.getLastD t₀ - t₀) * 1000⌋ ∨ T ≤ wholeMs t₀ ts + 1 := by
  have hle := wholeMs_le t₀ ts
  have hiff : ((s.setTimeout T t₀).updates ts).timeout ≤ max (T - ⌊(ts.getLastD t₀ - t₀) * 1000⌋) 1 ↔
      wholeMs t₀ ts = ⌊(ts.getLastD t₀ - t₀) * 1000⌋ ∨ T ≤ wholeMs t₀ ts + 1 := by
    cases hts : ts with
    | nil => simp [updates, setTimeout, wholeMs]
    | cons t ts' =>
      have hremains : ((s.setTimeout T t₀).updates ts).timeout = _ :=
        timeout_updates (s.setTimeout T t₀) (hts ▸ List.cons_ne_nil t ts') h
      rw [← hts, hremains]
      show max (T - wholeMs t₀ ts) 1 ≤ _ ↔ _
      omega
  exact ⟨fun hin => hiff.mp hin.remains, fun hcond => ⟨hiff.mpr hcond, due_of_remains (hiff.mpr hcond)⟩⟩

/-- Messages that come less than a millisecond apart postpone the timeout for as long as they come. -/
theorem updates_of_frequent {T : ℤ} (hT : 1 ≤ T) {t₀ : ℚ} {ts : List ℚ} (s : GroupThread Id)
    (h : (t₀ :: ts).Pairwise (· ≤ ·)) (hfrequent : (t₀ :: ts).IsChain fun t t' => t' < t + 1 / 1000) :
    ((s.setTimeout T t₀).updates ts).timeout = T := by
  have hwhole : ∀ (ts : List ℚ) (t₀ : ℚ), (t₀ :: ts).Pairwise (· ≤ ·) →
      ((t₀ :: ts).IsChain fun t t' => t' < t + 1 / 1000) → wholeMs t₀ ts = 0 := by
    intro ts
    induction ts with
    | nil => exact fun _ _ _ => rfl
    | cons t ts ih =>
      intro t₀ h hchain
      obtain ⟨hle, hts⟩ := List.pairwise_cons.mp h
      obtain ⟨hlt, hchain⟩ := List.isChain_cons_cons.mp hchain
      have hzero : ⌊(t - t₀) * 1000⌋ = 0 := by
        rw [Int.floor_eq_zero_iff]
        exact ⟨by linarith [hle t List.mem_cons_self], by linarith⟩
      rw [wholeMs, hzero, ih t hts hchain, add_zero]
  cases hts : ts with
  | nil => rfl
  | cons t ts' =>
    rw [← hts, timeout_updates _ (hts ▸ List.cons_ne_nil t ts') h]
    show max (T - wholeMs t₀ ts) 1 = T
    rw [hwhole ts t₀ h hfrequent]
    omega

/-- One message half a second after. -/
theorem inTime_once : InTime 1000 100 [100 + 1 / 2] (.start (Member.standard 0) (.least _ 100)) :=
  (inTime_iff 1000 _ (by decide +kernel)).mpr (by decide +kernel)

/-- Two messages in two milliseconds, and none of the time is counted. -/
theorem not_inTime : ¬ InTime 1000 100 [100 + 9 / 10000, 100 + 18 / 10000]
    (.start (Member.standard 0) (.least _ 100)) := by
  intro h
  exact absurd h.remains (by decide +kernel)

/-! ### The timeout among the calls -/

/-- What `setTimeout` and `updateTimeout` change. -/
def clock (s : GroupThread Id) : ℤ × ℚ := (s.timeout, s.lastWait)

theorem clock_updates {s s' : GroupThread Id} (h : s.clock = s'.clock) (ts : List ℚ) :
    (s.updates ts).clock = (s'.updates ts).clock := by
  induction ts generalizing s s' with
  | nil => exact h
  | cons t ts ih =>
    refine ih ?_
    obtain ⟨htimeout, hwait⟩ := Prod.mk.inj h
    simp only [clock, updateTimeout, htimeout, hwait]

theorem clock_sendGroup (err : Option ℕ) (m : GroupMsg Id) (s : GroupThread Id) :
    (s.sendGroup err m).clock = s.clock := by
  cases err <;> rfl

theorem clock_forward (g : GroupParams) (m : CompMsg Id) (s : GroupThread Id) : (s.forward g m).clock = s.clock := by
  unfold forward
  split_ifs <;> rfl

theorem clock_checkPoll (err : Option ℕ) (poll : Poll) (now : ℚ) (s : GroupThread Id) :
    (s.checkPoll err poll now).2.clock = s.clock := by
  rw [checkPoll_eq]
  split
  · exact clock_sendGroup err _ s
  · rfl

theorem clock_requestVote (g : GroupParams) (err : Option ℕ) (time : ℚ) (m : GroupVote) (member : Bytes)
    (s : GroupThread Id) : (s.requestVote g err time m member).clock = s.clock := by
  unfold requestVote
  cases m with
  | rfv rfv =>
    rw [startPoll_eq]
    split_ifs <;> exact clock_sendGroup err _ _
  | rtc | ann => rfl

theorem clock_updatePoll (err : Option ℕ) (time : ℚ) (m : GroupVote) (s : GroupThread Id) :
    (s.updatePoll err time m).clock = s.clock := by
  unfold updatePoll
  cases m with
  | rtc rtc =>
    simp only
    cases s.polls.get? rtc.rfvId with
    | none => rfl
    | some poll =>
      simp only
      split_ifs <;> exact clock_checkPoll err _ time (s.setPolls _)
  | rfv | ann => rfl

theorem clock_toLeader (err : Option ℕ) (m : LeaderMsg) (s : GroupThread Id) : (s.toLeader err m).clock = s.clock := by
  unfold toLeader
  split
  · cases err <;> rfl
  · rfl

variable [DecidableEq Id]

theorem clock_wake (g : Member Id) (now : ℚ) (s : GroupThread Id) : (s.wake g now).clock = s.clock := by
  have hbeat : (s.heartbeat g now).clock = s.clock := by
    unfold heartbeat
    split_ifs <;> rfl
  have hdrop : ∀ (leavers : List Id) (s : GroupThread Id), (leavers.foldl dropPeer s).clock = s.clock := by
    intro leavers
    induction leavers with
    | nil => exact fun _ => rfl
    | cons l leavers ih => exact fun s => ih (s.dropPeer l)
  rw [wake, ← hbeat]
  unfold updatePeers
  simp only
  split_ifs
  · exact hdrop _ _
  · rfl

theorem clock_handleCompMessage (g : Member Id) (e : Env g.toGroupParams) (err : Option ℕ) (req : CompReq)
    (s : GroupThread Id) : (s.handleCompMessage g e err req).clock = s.clock := by
  unfold handleCompMessage
  cases req with
  | upd host port =>
    simp only
    split_ifs <;> rfl
  | msg payload => cases err <;> rfl
  | mtl payload =>
    simp only
    split_ifs
    · rfl
    · exact clock_forward _ _ _
    · exact clock_toLeader err _ s
  | mfl payload identity =>
    simp only
    split_ifs
    · rfl
    · exact clock_forward _ _ _
    · cases err <;> rfl
  | rfv m =>
    simp only
    split_ifs
    · rfl
    · exact clock_requestVote _ err _ m [] _
    · exact clock_toLeader err _ s
  | rtc m =>
    simp only
    split_ifs
    · rfl
    · exact clock_updatePoll err _ m s
    · exact clock_updatePoll err _ m s
    · exact clock_toLeader err _ s
  | mlt =>
    simp only
    split_ifs <;> exact clock_sendGroup err _ s

end GroupThread

/-- Everything but timeouts, elections and members that leave. -/
def Call.isTraffic {g : Member Id} : Call Id g → Bool
  | .timeout _ | .net _ (.mlt _) | .net _ (.reqvote _ _) | .net _ (.rspvote _ _ _ _) | .net _ (.authority _ _ _ _) =>
    false
  | _ => true

/-- When the handler calls `updateTimeout`, if it does. -/
def Call.updateTimes {g : Member Id} : Call Id g → List ℚ
  | .net e _ => [e.now]
  | _ => []

namespace GroupThread

variable [DecidableEq Id]

theorem clock_call {g : Member Id} {s : GroupThread Id} {c : Call Id g} (hc : c.isTraffic)
    (hexc : (call g s c).exc = none) : (call g s c).clock = (s.updates c.updateTimes).clock := by
  have hs := exc_of_call hexc
  unfold call at hexc ⊢
  rw [if_neg (not_not.mpr hs)] at hexc ⊢
  cases c with
  | wake e => exact clock_wake g e.now s
  | timeout e => cases hc
  | comp e err req => exact clock_handleCompMessage g e err req s
  | forLeader e sender identity m =>
    cases m with
    | mtl payload => exact clock_forward _ _ _
    | rfv m => exact clock_requestVote _ none _ m identity _
    | rtc m => exact clock_updatePoll none _ m _
  | forMember e payload => exact clock_forward _ _ s
  | net e m =>
    -- a message that is not passed on ends the thread before the timeout is updated
    have hforward {m : CompMsg Id} (h : (s.forward g.toGroupParams m).exc = none) :
        ((s.forward g.toGroupParams m).updateTimeout e.now).clock = (s.updates [e.now]).clock :=
      clock_updates (clock_forward _ m s) [e.now]
    cases m with
    | msg payload =>
      simp only [handleNetMessage] at hexc ⊢
      split_ifs at hexc ⊢ with h
      · exact hforward h
      · exact absurd hexc h
    | rcm m | ann m =>
      simp only [handleNetMessage] at hexc ⊢
      split_ifs at hexc ⊢ with h
      · exact hforward h
      · exact absurd hexc h
    | heartbeat peer =>
      simp only [handleNetMessage]
      split_ifs <;> rfl
    | mlt | reqvote | rspvote | authority => cases hc

/-- **Among the calls**: while there are no timeouts and no elections, the timeout goes on as if there were nothing but
the updates of the messages. -/
theorem clock_run {g : Member Id} {s : GroupThread Id} {cs : List (Call Id g)} (hcs : ∀ c ∈ cs, c.isTraffic)
    (hexc : (run (call g) s cs).exc = none) :
    (run (call g) s cs).clock = (s.updates (cs.flatMap Call.updateTimes)).clock := by
  induction cs generalizing s with
  | nil => rfl
  | cons c cs ih =>
    have hrun : (call g s c).exc = none := by
      by_contra hs
      have hsame : run (call g) (call g s c) cs = call g s c := by
        clear hcs ih hexc
        induction cs with
        | nil => rfl
        | cons d cs ih => rw [run_cons, call_of_exc hs, ih]
      rw [run_cons, hsame] at hexc
      exact hs hexc
    have hrest := ih (fun d hd => hcs d (List.mem_cons_of_mem c hd)) hexc
    rw [run_cons, hrest, List.flatMap_cons]
    refine (clock_updates (clock_call (hcs c List.mem_cons_self) hrun) _).trans ?_
    rw [updates, updates, updates, List.foldl_append]

/-- However long it lasts, a run with messages less than a millisecond apart leaves the timeout where it was. -/
theorem postponed_run {g : Member Id} {s : GroupThread Id} {cs : List (Call Id g)} {T : ℤ} {t₀ : ℚ} (hT : 1 ≤ T)
    (hcs : ∀ c ∈ cs, c.isTraffic) (hexc : (run (call g) (s.setTimeout T t₀) cs).exc = none)
    (h : (t₀ :: cs.flatMap Call.updateTimes).Pairwise (· ≤ ·))
    (hfrequent : (t₀ :: cs.flatMap Call.updateTimes).IsChain fun t t' => t' < t + 1 / 1000) :
    (run (call g) (s.setTimeout T t₀) cs).timeout = T :=
  (congrArg Prod.fst (clock_run hcs hexc)).trans (updates_of_frequent hT s h hfrequent)

end GroupThread

/-! ### Deadlines of polls -/

/-- The timeout of a request in seconds: what it asks for, or the group's own, which is in milliseconds. -/
def ReqForVote.limit (g : GroupParams) (rfv : ReqForVote) : ℚ :=
  if rfv.timeout = 0 then g.groupConsensusTimeout / 1000 else rfv.timeout

namespace GroupThread

/-- A poll is opened exactly for a request that comes in time, and it can be decided from then on and not longer than
the request says. -/
structure Punctual (g : GroupParams) (time : ℚ) (rfv : ReqForVote) (member : Bytes) (s : GroupThread Id) : Prop where
  opens_iff : (s.startPoll g time (.rfv rfv) member).1 = true ↔ time ≤ rfv.started + rfv.limit g
  opened : (s.startPoll g time (.rfv rfv) member).1 = true →
    ∃ poll, (s.startPoll g time (.rfv rfv) member).2.polls.get? rfv.rfvId = some poll ∧
      time ≤ poll.deadline ∧ poll.expired time = false ∧ poll.deadline ≤ rfv.started + rfv.limit g

/-- In terms of the timeout as the code reads it. -/
theorem punctual_iff_of_timeout {g : GroupParams} {time : ℚ} {rfv : ReqForVote} {member : Bytes} {s : GroupThread Id}
    {timeout : ℚ} (htimeout : (if rfv.timeout = 0 then (g.groupConsensusTimeout : ℚ) else rfv.timeout) = timeout) :
    Punctual g time rfv member s ↔
      (time - rfv.started ≤ timeout ↔ time ≤ rfv.started + rfv.limit g) ∧
        (time - rfv.started ≤ timeout → time ≤ rfv.started + timeout - (time - rfv.started) ∧
          rfv.started + timeout - (time - rfv.started) ≤ rfv.started + rfv.limit g) := by
  have hdeadline : (rfv.poll g time member s.numPeers).deadline = rfv.started + timeout - (time - rfv.started) := by
    rw [ReqForVote.poll, htimeout]
    rfl
  by_cases hlate : timeout < time - rfv.started
  · have hstart : s.startPoll g time (.rfv rfv) member = (false, s) := by
      rw [startPoll_eq, ReqForVote.late, htimeout, decide_eq_true hlate]
      rfl
    have hnot : ¬time - rfv.started ≤ timeout := not_le.mpr hlate
    constructor
    · intro hp
      have hopens := hp.opens_iff
      rw [hstart] at hopens
      exact ⟨⟨fun h => absurd h hnot, fun h => absurd (hopens.mpr h) Bool.false_ne_true⟩, fun h => absurd h hnot⟩
    · rintro ⟨hopens, -⟩
      refine ⟨?_, ?_⟩ <;> rw [hstart]
      · exact ⟨fun h => absurd h Bool.false_ne_true, fun h => absurd (hopens.mpr h) hnot⟩
      · exact fun h => absurd h Bool.false_ne_true
  · have hstart : s.startPoll g time (.rfv rfv) member =
        (true, s.setPolls (s.polls.set rfv.rfvId (rfv.poll g time member s.numPeers))) := by
      rw [startPoll_eq, ReqForVote.late, htimeout, decide_eq_false hlate]
      rfl
    rw [not_lt] at hlate
    constructor
    · intro hp
      have hopens := hp.opens_iff
      obtain ⟨poll, hpoll, hnow, -, hlimit⟩ := hp.opened (by rw [hstart])
      rw [hstart] at hopens hpoll
      obtain rfl := Option.some.inj ((Dict.get?_set_self ..).symm.trans hpoll)
      rw [hdeadline] at hnow hlimit
      exact ⟨⟨fun _ => hopens.mp rfl, fun _ => hlate⟩, fun _ => ⟨hnow, hlimit⟩⟩
    · rintro ⟨hopens, hopened⟩
      obtain ⟨hnow, hlimit⟩ := hopened hlate
      rw [← hdeadline] at hnow hlimit
      refine ⟨?_, fun _ => ⟨rfv.poll g time member s.numPeers, ?_, hnow, ?_, hlimit⟩⟩
      · rw [hstart]
        exact ⟨fun _ => hopens.mp hlate, fun _ => rfl⟩
      · rw [hstart]
        exact Dict.get?_set_self ..
      · exact decide_eq_false (not_lt.mpr hnow)

/-- **Which requests are polled in time**: those that come when their timeout, as the code reads it, is over; and those
that name a timeout and come before more than half of it has passed. -/
theorem punctual_iff (g : GroupParams) (time : ℚ) (rfv : ReqForVote) (member : Bytes) (s : GroupThread Id)
    (h : rfv.started ≤ time) :
    Punctual g time rfv member s ↔
      if rfv.timeout = 0 then g.groupConsensusTimeout < time - rfv.started
      else rfv.timeout < time - rfv.started ∨ 2 * (time - rfv.started) ≤ rfv.timeout := by
  by_cases hzero : rfv.timeout = 0
  · have hpos : (0 : ℚ) < g.groupConsensusTimeout := by exact_mod_cast g.consensus_pos
    rw [punctual_iff_of_timeout (if_pos hzero), ReqForVote.limit, if_pos hzero, if_pos hzero]
    constructor
    · rintro ⟨hopens, hopened⟩
      -- a poll that is opened would end too late
      by_contra hlate
      rw [not_lt] at hlate
      have hsoon := hopens.mp hlate
      obtain ⟨-, hlimit⟩ := hopened hlate
      linarith
    · intro hlate
      have hnot : ¬time - rfv.started ≤ g.groupConsensusTimeout := not_le.mpr hlate
      exact ⟨⟨fun hle => absurd hle hnot, fun hle => by linarith⟩, fun hle => absurd hle hnot⟩
  · rw [punctual_iff_of_timeout (if_neg hzero), ReqForVote.limit, if_neg hzero, if_neg hzero]
    constructor
    · rintro ⟨-, hopened⟩
      by_contra hlate
      rw [not_or, not_lt, not_le] at hlate
      obtain ⟨hnow, -⟩ := hopened hlate.1
      linarith [hlate.2]
    · rintro (hlate | hhalf)
      · have hnot : ¬time - rfv.started ≤ rfv.timeout := not_le.mpr hlate
        exact ⟨⟨fun hle => absurd hle hnot, fun hle => by linarith⟩, fun hle => absurd hle hnot⟩
      · exact ⟨⟨fun _ => by linarith, fun _ => by linarith⟩, fun _ => ⟨by linarith, by linarith⟩⟩

/-- A request that names a timeout, or none. -/
def request (timeout : ℚ) : ReqForVote := ⟨[], "", .majority, .value, 0, 100, timeout⟩

/-- A request for a second that comes at once. -/
theorem punctual_at_once :
    Punctual (Member.standard 0).toGroupParams 100 (request 1) [] (.start (Member.standard 0) (.least _ 100)) :=
  (punctual_iff _ 100 (request 1) [] _ le_rfl).mpr (by decide +kernel)

/-- One that comes late is polled and has expired; one that leaves its timeout to the group is polled after it is over.
-/
theorem not_punctual :
    ¬ Punctual (Member.standard 0).toGroupParams (100 + 3 / 5) (request 1) []
        (.start (Member.standard 0) (.least _ 100)) ∧
      ¬ Punctual (Member.standard 0).toGroupParams 110 (request 0) [] (.start (Member.standard 0) (.least _ 100)) := by
  constructor
  · intro h
    have hexpired : ∀ poll ∈ ((start (Member.standard 0) (.least _ 100)).startPoll (Member.standard 0).toGroupParams
        (100 + 3 / 5) (.rfv (request 1)) []).2.polls.get? (request 1).rfvId, poll.expired (100 + 3 / 5) = true := by
      decide +kernel
    obtain ⟨poll, hpoll, -, hopen, -⟩ := h.opened (by decide +kernel)
    exact Bool.false_ne_true (hopen.symm.trans (hexpired poll hpoll))
  · intro h
    exact absurd (h.opens_iff.mp (by decide +kernel)) (by decide +kernel)

end GroupThread

end Riaps.Coordination
