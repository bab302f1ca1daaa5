import Riaps.Coordination.Mail
import Riaps.Coordination.Reelection

/-!
# Handling every message

A group of kind `default` has no election and no list of members. Its threads
pass data on, and a member that leaves says so with a frame that is empty, for
it has no id. A thread of a coordinated group has its state and its list of
members from the start.

The handlers of what comes in from the group, from the leader and from the members
should end without an exception and pass on what is for the component. In a
timed group they call `recvTime`, which is a number, before they pass a message
on. In a group of kind `default` they unpack an id from the empty frame of a member
that leaves. And a member of a coordinated group that is elected again fails
(`Reelection`). In all other cases they do what they should (`handled_iff`).
-/

namespace Riaps.Coordination

open Riaps.Foundation

universe u

variable {Id : Type u}

/-! ### Groups of kind `default` -/

/-- A message of a group of kind `default`. -/
inductive PlainMsg where
  /-- Data for the components. -/
  | msg (payload : Bytes)
  /-- A member leaves. The frame is empty: `zmq.Frame(self.ownId)`, and `ownId` is `None`. -/
  | mlt
  deriving DecidableEq

/-- What it is for the component, if it is passed on. -/
def PlainMsg.carried : PlainMsg → Option (CompMsg Empty)
  | .msg payload => some (.msg payload)
  | .mlt => none

/-- The state of a group thread of kind `default`. Its leader is `None` for ever, and so is its timeout. -/
structure PlainThread where
  /-- The publishers the subscribe port is connected to. -/
  subServers : List (String × ℚ)
  /-- What was published so far, -/
  published : List PlainMsg
  /-- and what was sent to the component. -/
  toComp : List (CompMsg Empty)
  /-- The exception that ended the thread. -/
  exc : Option PyExc
  /-- The component has left the group. -/
  toStop : Bool

/-- The calls that the loop of such a thread makes. -/
inductive PlainCall where
  /-- A message of the component, and how the port it needs fails, if it does. -/
  | comp (err : Option ℕ) (req : CompReq)
  /-- A message of the group. -/
  | net (m : PlainMsg)

namespace PlainThread

/-- The thread when `run` enters its loop. -/
def start : PlainThread := ⟨[], [], [], none, false⟩

/-- Raise an exception. -/
def raise (x : PyExc) (s : PlainThread) : PlainThread := { s with exc := some x }

/-- `groupSocket.send_multipart`. -/
def sendComp (m : CompMsg Empty) (s : PlainThread) : PlainThread := { s with toComp := s.toComp ++ [m] }

/-- `pubPort.sendGroup`, when the socket fails with `err`, if at all. -/
def sendGroup (err : Option ℕ) (m : PlainMsg) (s : PlainThread) : PlainThread :=
  match err with
  | none => { s with published := s.published ++ [m] }
  | some errno => s.raise (.portError errno)

/-- `handleCompMessage`. -/
def handleCompMessage (err : Option ℕ) (req : CompReq) (s : PlainThread) : PlainThread :=
  match req with
  | .upd host port =>
    if s.subServers.contains (host, port) then s else { s with subServers := s.subServers ++ [(host, port)] }
  | .mlt =>
    let s := s.sendGroup err .mlt
    if s.exc = none then { s with toStop := true } else s
  | .msg payload =>
    let s := s.sendGroup err (.msg payload)
    if s.exc = none then s.sendComp .ack else s
  -- there is no leader
  | .mtl _ | .mfl _ _ | .rfv _ | .rtc _ => s.sendComp .nld

/-- `handleNetMessage`. -/
def handleNetMessage (g : GroupParams) (m : PlainMsg) (s : PlainThread) : PlainThread :=
  match m with
  | .msg payload => if g.isTimed then s.raise .typeError else s.sendComp (.msg payload)
  -- `struct.unpack('!16s', frame)`; after it comes a look at `self.peers`, which the thread does not have
  | .mlt => s.raise .structError

/-- One call. A thread that an exception has ended makes none. -/
def call (g : GroupParams) (s : PlainThread) (c : PlainCall) : PlainThread :=
  if s.exc ≠ none then s
  else
    match c with
    | .comp err req => s.handleCompMessage err req
    | .net m => s.handleNetMessage g m

/-- The message is handled: no exception, and the component is passed what is for it, once. -/
structure Handled (g : GroupParams) (s : PlainThread) (m : PlainMsg) : Prop where
  exc : (s.call g (.net m)).exc = none
  carried : (s.call g (.net m)).toComp = s.toComp ++ m.carried.toList

theorem handled_iff (g : GroupParams) {s : PlainThread} (hs : s.exc = none) (m : PlainMsg) :
    s.Handled g m ↔ g.isTimed = false ∧ m ≠ .mlt := by
  have hcall : s.call g (.net m) = s.handleNetMessage g m := if_neg (not_not.mpr hs)
  cases m with
  | mlt =>
    refine iff_of_false (fun h => ?_) fun h => h.2 rfl
    have hexc := h.exc
    rw [hcall] at hexc
    exact Option.some_ne_none _ hexc
  | msg payload =>
    cases htimed : g.isTimed with
    | true =>
      refine iff_of_false (fun h => ?_) fun h => Bool.false_ne_true h.1.symm
      have hexc := h.exc
      rw [hcall, handleNetMessage, if_pos htimed] at hexc
      exact Option.some_ne_none _ hexc
    | false =>
      have hsend : s.call g (.net (.msg payload)) = s.sendComp (.msg payload) :=
        hcall.trans (if_neg (Bool.not_eq_true _ ▸ htimed))
      refine iff_of_true ⟨?_, ?_⟩ ⟨rfl, by simp⟩
      · rw [hsend]
        exact hs
      · rw [hsend]
        rfl

end PlainThread

/-! ### Coordinated groups -/

/-- A message of another component, passed on to the own one. -/
def Sent.isCarried : Sent Id → Bool
  | .comp m => m.isCarried
  | _ => false

theorem carried_isCarried : Carried (Sent.isCarried : Sent Id → Bool) where
  pub _ _ := rfl
  qry _ := rfl
  word _ hm := hm

/-- A message of the group, a message to the leader or one from it. -/
def Call.isIncoming {g : Member Id} : Call Id g → Bool
  | .net _ _ | .forLeader _ _ _ (.mtl _) | .forMember _ _ => true
  | _ => false

/-- What an incoming message is for the component, if it is passed on. -/
def Call.carried {g : Member Id} : Call Id g → Option (CompMsg Id)
  | .net _ m => m.carried
  | .forLeader _ _ identity (.mtl payload) => some (.mtl payload identity)
  | .forMember _ payload => some (.mfl payload)
  | _ => none

namespace GroupThread

theorem exc_forward (g : GroupParams) (m : CompMsg Id) (s : GroupThread Id) :
    (s.forward g m).exc = if g.isTimed then some .typeError else s.exc := by
  unfold forward
  split_ifs <;> rfl

theorem exc_leaderExited (s : GroupThread Id) : s.leaderExited.exc = s.exc := by rw [leaderExited_eq]

variable [DecidableEq Id]

theorem exc_followerReqvote (g : Member Id) (e : Env g.toGroupParams) (term : ℕ) (node : Id) (s : GroupThread Id) :
    (s.followerReqvote g e term node).exc = s.exc := by
  unfold followerReqvote
  simp only
  split <;> exact exc_leaderExited _

theorem exc_candidateReqvote (g : Member Id) (e : Env g.toGroupParams) (term : ℕ) (node : Id) (s : GroupThread Id) :
    (s.candidateReqvote g e term node).exc = s.exc := by
  unfold candidateReqvote
  simp only
  split_ifs
  · rfl
  · rfl
  · exact exc_leaderExited _
  · rfl

theorem exc_setLeader (leader : Id) (s : GroupThread Id) : (s.setLeader leader).exc = s.exc := by
  unfold setLeader
  split_ifs <;> rfl

/-- A vote ends the thread of a candidate that wins with it and cannot make an answer port, or announce its term. -/
theorem exc_candidateRspvote {g : Member Id} {e : Env g.toGroupParams} (term : ℕ) (cand : Id) (vote : Bool)
    (node : Id) {s : GroupThread Id} (hs : s.exc = none) (hst : s.state = .candidate) :
    (s.candidateRspvote g e cand vote).exc = none ↔
      ((s.won g (.net e (.rspvote term cand vote node))).isSome → s.ansPort.portNum = none ∧ s.term < 2 ^ 32) := by
  simp only [candidateRspvote,
    show ({ s with votes := s.votes + 1 } : GroupThread Id).threshold = s.threshold from rfl]
  by_cases hvote : vote ∧ cand = g.ownId
  · rw [if_pos hvote]
    by_cases hvotes : s.threshold ≤ s.votes + 1
    · rw [if_pos hvotes, exc_winElection]
      have hwon : (s.won g (.net e (.rspvote term cand vote node))).isSome := by simp [won, hs, hst, hvote, hvotes]
      cases hport : s.ansPort.portNum with
      | some port => simp [hwon]
      | none => simp [hwon, hs]
    · rw [if_neg hvotes]
      simp [won, hvotes, hs]
  · rw [if_neg hvote]
    simp [won, hvote, hs]

/-- Which messages of the group end the thread. -/
theorem exc_handleNetMessage {g : Member Id} {e : Env g.toGroupParams} (m : GroupMsg Id) {s : GroupThread Id}
    (hs : s.exc = none) :
    (s.handleNetMessage g e m).exc = none ↔
      (g.isTimed → m.carried = none) ∧
        ((s.won g (.net e m)).isSome → s.ansPort.portNum = none ∧ s.term < 2 ^ 32) := by
  have hforward {n : CompMsg Id} {t : GroupThread Id} (hn : m.carried = some n)
      (ht : t.exc = (s.forward g.toGroupParams n).exc) (hwon : s.won g (.net e m) = none) :
      t.exc = none ↔ (g.isTimed → m.carried = none) ∧
        ((s.won g (.net e m)).isSome → s.ansPort.portNum = none ∧ s.term < 2 ^ 32) := by
    rw [ht, exc_forward, hn, hwon]
    cases g.isTimed <;> simp [hs]
  have hother {t : GroupThread Id} (hn : m.carried = none) (ht : t.exc = s.exc) (hwon : s.won g (.net e m) = none) :
      t.exc = none ↔ (g.isTimed → m.carried = none) ∧
        ((s.won g (.net e m)).isSome → s.ansPort.portNum = none ∧ s.term < 2 ^ 32) := by
    simp [ht, hs, hn, hwon]
  unfold handleNetMessage
  cases m with
  | msg payload =>
    refine hforward (n := .msg payload) rfl ?_ rfl
    simp only
    split_ifs <;> rfl
  | mlt leaver =>
    refine hother rfl ?_ rfl
    simp only
    split_ifs <;> rfl
  | heartbeat peer =>
    refine hother rfl ?_ rfl
    simp only
    split_ifs <;> rfl
  | rcm m =>
    refine hforward (n := .rcm m) rfl ?_ rfl
    simp only
    split_ifs <;> rfl
  | ann m =>
    refine hforward (n := .ann m) rfl ?_ rfl
    simp only
    split_ifs <;> rfl
  | reqvote term node =>
    refine hother rfl ?_ rfl
    simp only
    cases s.state with
    | follower => exact exc_followerReqvote g e term node s
    | candidate => exact exc_candidateReqvote g e term node s
    | leader => rfl
  | authority term leader host port =>
    refine hother rfl ?_ rfl
    simp only
    cases s.state with
    | follower =>
      simp only [followerAuthority]
      split_ifs <;> exact exc_setLeader leader _
    | candidate => exact exc_setLeader leader _
    | leader =>
      simp only [leaderAuthority]
      split_ifs
      · exact exc_setLeader leader _
      · rfl
  | rspvote term cand vote node =>
    simp only
    cases hst : s.state with
    | follower => exact hother rfl rfl (by simp [won, hst])
    | leader => exact hother rfl rfl (by simp [won, hst])
    | candidate =>
      exact (exc_candidateRspvote term cand vote node hs hst).trans (and_iff_right fun _ => rfl).symm

/-- The message is handled: no exception, and the component is passed what is for it, once. -/
structure Handled (g : Member Id) (s : GroupThread Id) (c : Call Id g) : Prop where
  exc : (call g s c).exc = none
  carried : (s.sends g c).filter Sent.isCarried = (c.carried.map Sent.comp).toList

/-- In a timed group the message is one that is not passed on; and it is not a vote that elects the member again. -/
def Handles (g : Member Id) (s : GroupThread Id) (c : Call Id g) : Prop :=
  (g.isTimed → c.carried = none) ∧ ((s.won g c).isSome → s.ansPort.portNum = none)

/-- What is passed on is what should be, if the group is not timed. -/
theorem filter_sends {g : Member Id} {s : GroupThread Id} {c : Call Id g} (hs : s.exc = none)
    (hc : c.isIncoming) :
    (s.sends g c).filter Sent.isCarried = if g.isTimed then [] else (c.carried.map Sent.comp).toList := by
  have hsends : ∀ {l : List (Sent Id)}, (call g s c).sent.filter Sent.isCarried = s.sent.filter Sent.isCarried ++ l →
      (s.sends g c).filter Sent.isCarried = l := by
    intro l hl
    rw [sent_call, List.filter_append] at hl
    exact List.append_cancel_left hl
  have hall : ∀ o : Option (CompMsg Id), (∀ m ∈ o, m.isCarried) →
      (o.map Sent.comp).toList.filter Sent.isCarried = (o.map Sent.comp).toList := by
    intro o ho
    cases o with
    | none => rfl
    | some m =>
      refine List.filter_eq_self.mpr fun x hx => ?_
      rw [List.mem_singleton.mp hx]
      exact ho m rfl
  refine hsends ?_
  unfold call
  rw [if_neg (not_not.mpr hs)]
  cases c with
  | net e m =>
    refine (filter_handleNetMessage carried_isCarried g e m s).trans ?_
    rw [hall m.carried (by cases m <;> simp [GroupMsg.carried, CompMsg.isCarried])]
    rfl
  | forLeader e sender identity m =>
    cases m with
    | mtl payload => exact filter_forward _ _ _
    | rfv | rtc => cases hc
  | forMember e payload => exact filter_forward _ _ s
  | wake | timeout | comp => cases hc

theorem handled_iff_handles {g : Member Id} {s : GroupThread Id} {c : Call Id g} (hs : s.exc = none)
    (hterm : s.state = .candidate → s.term < 2 ^ 32) (hc : c.isIncoming) : Handled g s c ↔ Handles g s c := by
  have hexc : (call g s c).exc = none ↔ Handles g s c := by
    unfold call Handles
    rw [if_neg (not_not.mpr hs)]
    cases c with
    | net e m =>
      refine (exc_handleNetMessage m hs).trans (and_congr_right fun _ => imp_congr_right fun hwon => ?_)
      obtain ⟨port, hwon⟩ := Option.isSome_iff_exists.mp hwon
      exact and_iff_left (hterm (running_of_won hwon).2)
    | forLeader e sender identity m =>
      cases m with
      | mtl payload =>
        simp only [handleMessageForLeader, exc_forward, Call.carried, won]
        cases g.isTimed <;> simp [hs, setIdentity]
      | rfv | rtc => cases hc
    | forMember e payload =>
      simp only [handleMessageForMember, exc_forward, Call.carried, won]
      cases g.isTimed <;> simp [hs]
    | wake | timeout | comp => cases hc
  rw [← hexc]
  refine ⟨Handled.exc, fun h => ⟨h, ?_⟩⟩
  rw [filter_sends hs hc]
  split_ifs with htimed
  · rw [(hexc.mp h).1 htimed]
    rfl
  · rfl

end GroupThread

/-- **Which messages are handled**, in a coordinated group and in a group of kind `default`: what comes in at a thread
that is running, after any calls. -/
theorem messages_handled_iff [DecidableEq Id] (g : Member Id) (e : Env g.toGroupParams) :
    (∀ (cs : List (Call Id g)) (c : Call Id g), (run (GroupThread.call g) (.start g e) cs).exc = none → c.isIncoming →
      (GroupThread.Handled g (run (GroupThread.call g) (.start g e) cs) c ↔
        GroupThread.Handles g (run (GroupThread.call g) (.start g e) cs) c)) ∧
    ∀ (cs : List PlainCall) (m : PlainMsg), (run (PlainThread.call g.toGroupParams) .start cs).exc = none →
      ((run (PlainThread.call g.toGroupParams) .start cs).Handled g.toGroupParams m ↔
        g.isTimed = false ∧ m ≠ .mlt) := by
  refine ⟨fun cs c hs hc => ?_, fun cs m hs => PlainThread.handled_iff _ hs m⟩
  have hterm := (Elector.fitted_run g e cs).term
  rw [Elector.thread_run] at hterm
  exact GroupThread.handled_iff_handles hs (hterm hs) hc

/-- Data are handled by a thread that has just been set up, of either kind. -/
theorem data_handled :
    GroupThread.Handled (Member.standard 0) (.start (Member.standard 0) (.least _ 100))
        (.net (.least _ 101) (.msg [1]) : Call ℕ (Member.standard 0)) ∧
      PlainThread.start.Handled (Member.standard 0).toGroupParams (.msg [1]) :=
  ⟨((messages_handled_iff (Member.standard 0) (.least _ 100)).1 [] _ (by decide +kernel) rfl).mpr
      ⟨fun h => absurd h Bool.false_ne_true, fun h => absurd h Bool.false_ne_true⟩,
    ((messages_handled_iff (Member.standard 0) (.least _ 100)).2 [] (.msg [1]) rfl).mpr ⟨rfl, by decide⟩⟩

/-- The standard member, of a timed group. -/
def timedMember : Member ℕ := { Member.standard 0 with isTimed := true }

/-- Not handled are data in a timed group, a member that leaves a group of kind `default`, and the vote by which a
member is elected again. -/
theorem not_handled :
    ¬ GroupThread.Handled timedMember (.start timedMember (.least _ 100)) (.net (.least _ 101) (.msg [1])) ∧
      ¬ PlainThread.start.Handled (Member.standard 0).toGroupParams .mlt ∧
      ¬ GroupThread.Handled (Member.standard 0)
        (run (GroupThread.call (Member.standard 0)) (.start (Member.standard 0) (.least _ 100)) Elector.candidacyAgain)
        (Tally.vote 2 2) :=
  ⟨fun h => absurd h.exc (by decide +kernel), fun h => absurd h.exc (by decide),
    fun h => absurd h.exc (by decide +kernel)⟩

end Riaps.Coordination
