import Riaps.Coordination.GroupThread

/-!
# What the operations on polls do

The operations on polls in closed form: what each does to the dictionary of
polls and what it sends, as one change of the state. A check settles a poll
with an outcome or leaves it (`Poll.settle`); the loops of `checkAllPolls` come
to a deletion of the polls that are settled and one announcement for each of
them, in the order of the dictionary (`checkAllPolls_eq`).
-/

namespace Riaps.Coordination

open Riaps.Foundation

universe u

variable {Id : Type u}

/-- The outcome with which a check at `now` settles a poll, if it does. -/
def Poll.settle (p : Poll) (now : ℚ) : Option Vote :=
  if p.expired now then some .timeout
  else if p.allVoted then some (if p.result then .yes else .no)
  else none

namespace GroupThread

/-- The announcement of an outcome, by a member in state `st`. -/
def announcement (st : MemberState) (rfvId : String) (vote : Vote) : Sent Id := .pub st (.ann (.ann ⟨rfvId, vote⟩))

theorem checkPoll_eq (err : Option ℕ) (poll : Poll) (now : ℚ) (s : GroupThread Id) :
    s.checkPoll err poll now =
      ((poll.settle now).isSome,
        match poll.settle now with
        | some vote => s.announceConsensus err poll.rfvId vote
        | none => s) := by
  unfold checkPoll Poll.settle
  split
  · rfl
  · split <;> rfl

/-- The polls, of a list of items, that a check at `now` settles. -/
def settledKeys (now : ℚ) (items : List (String × Poll)) : List String :=
  (items.filter fun i => (i.2.settle now).isSome).map Prod.fst

/-- The announcements that checks at `now` make, by a member in state `st`. -/
def settledNotes (st : MemberState) (now : ℚ) (items : List (String × Poll)) : List (Sent Id) :=
  items.filterMap fun i => (i.2.settle now).map (announcement st i.2.rfvId)

/-- The loop of `checkAllPolls`. -/
theorem foldl_checkOne (now : ℚ) (items : List (String × Poll)) (s : GroupThread Id) (ks : List String) :
    items.foldl (checkOne now) (s, ks) =
      ({ s with sent := s.sent ++ settledNotes s.state now items }, ks ++ settledKeys now items) := by
  induction items generalizing s ks with
  | nil => simp [settledNotes, settledKeys]
  | cons i items ih =>
    rw [List.foldl_cons, checkOne, checkPoll_eq]
    cases hi : i.2.settle now with
    | none =>
      simp only [ih]
      simp [settledNotes, settledKeys, hi]
    | some vote =>
      simp only [ih, announceConsensus, sendGroup, publish]
      simp [settledNotes, settledKeys, hi, announcement, List.append_assoc]

/-- **`checkAllPolls`** deletes the polls that are settled and announces their outcomes. -/
theorem checkAllPolls_eq (now : ℚ) (s : GroupThread Id) :
    s.checkAllPolls now =
      { s with
        polls := s.polls.delAll (settledKeys now s.polls.items)
        sent := s.sent ++ settledNotes s.state now s.polls.items } := by
  simp only [checkAllPolls, foldl_checkOne, setPolls, List.nil_append]

/-- `updatePoll` of a vote on a poll that is not there does nothing. -/
theorem updatePoll_of_not_mem (err : Option ℕ) (time : ℚ) {rtc : RepToVote} {s : GroupThread Id}
    (h : rtc.rfvId ∉ s.polls) : s.updatePoll err time (.rtc rtc) = s := by
  simp only [updatePoll, Dict.get?_eq_none_iff.mpr h]

end GroupThread

end Riaps.Coordination
