import Riaps.Coordination.Winning

/-!
# Being elected again

The answer port has a socket from the start. It is registered with the thread's
poller, and it is not bound. The vote that wins an election makes `updatePoller`
bind it, and the number of its port goes out to the members in an `AUTHORITY`.

A member that has been the leader before has a bound socket, and `updatePoller` is to
put a new one in its place. It does not get there: it looks up `self.self`, which
the port does not have, and this ends the thread. So an election is completed by
those members exactly that have not been the leader before (`reelected_iff`).
-/

namespace Riaps.Coordination

open Riaps.Foundation

universe u

variable {Id : Type u}

/-! ### The sockets of the answer port -/

/-- A socket of the answer port. -/
structure AnsSocket where
  /-- Which one it is of those that were made. -/
  num : ℕ
  /-- The port that it is bound to. -/
  port : Option ℕ
  deriving DecidableEq

/-- The answer port's socket, and what the thread has of it. -/
structure AnsSockets where
  socket : AnsSocket
  portNum : Option ℕ
  /-- The thread's own `ansSocket`, which its loop looks for among the events. -/
  ansSocket : ℕ
  /-- The sockets of the port that are registered with the poller. -/
  poller : List ℕ
  deriving DecidableEq

namespace AnsSockets

/-- As `setupSocket` and the start of `run` leave them. -/
def init : AnsSockets := ⟨⟨0, none⟩, none, 0, [0]⟩

/-- `updatePoller`. -/
def updatePoller (freePort : ℕ) (p : AnsSockets) : Except PyExc AnsSockets :=
  match p.portNum with
  -- `poller.register(self.self.socket, 0)`, before the socket is closed and replaced
  | some _ => .error .attributeError
  | none => .ok { p with socket := { p.socket with port := some freePort }, portNum := some freePort }

/-- What a candidate does with its answer port when it has won: `updatePoller`, then `getSocket`. -/
def renew (freePort : ℕ) (p : AnsSockets) : AnsSockets :=
  match p.updatePoller freePort with
  | .ok p => { p with ansSocket := p.socket.num }
  | .error _ => p

end AnsSockets

/-! ### The thread with its sockets -/

variable [DecidableEq Id]

namespace GroupThread

/-- The vote that reaches a candidate's threshold, and the port that a bind would get then. -/
def won (g : Member Id) (s : GroupThread Id) : Call Id g → Option ℕ
  | .net e (.rspvote _ cand vote _) =>
    if s.exc = none ∧ s.state = .candidate ∧ (vote ∧ cand = g.ownId) ∧ s.threshold ≤ s.votes + 1 then
      some e.freePort
    else none
  | _ => none

variable {g : Member Id} {s : GroupThread Id} {c : Call Id g}

/-- What the vote does that reaches the threshold. -/
theorem event_of_won {port : ℕ} (h : s.won g c = some port) :
    s.event g c =
      match s.ansPort.portNum with
      | some _ => .winFails none
      | none => if 2 ^ 32 ≤ s.term then .winFails (some port) else .win port := by
  unfold won at h
  split at h
  · rename_i e term cand vote node
    split at h
    · rename_i hwin
      obtain ⟨hs, hst, hvote, hvotes⟩ := hwin
      obtain rfl := Option.some.inj h
      simp only [event, hs, hst, ne_eq, not_true_eq_false, if_false, hvotes, if_true]
      exact if_pos hvote
    · cases h
  · cases h

theorem running_of_won {port : ℕ} (h : s.won g c = some port) : s.exc = none ∧ s.state = .candidate := by
  unfold won at h
  split at h
  · split at h
    · rename_i hwin
      exact ⟨hwin.1, hwin.2.1⟩
    · cases h
  · cases h

/-- A win does not end the thread. -/
theorem exc_of_win {port : ℕ} (h : s.event g c = .win port) : (call g s c).exc = none := by
  have hs := exc_of_event h (by simp)
  have hg := guard_event g s c
  rw [h] at hg
  obtain ⟨hst, hvotes, hport, hterm, e, term, node, rfl⟩ := hg
  rw [call_winning hs hst hvotes, exc_winElection, hport]
  exact (if_neg (not_le.mpr hterm)).trans hs

/-- Without it there is no leader more, nor a bound port. -/
theorem seat_of_not_won (h : s.won g c = none) :
    (call g s c).ansPort.portNum = s.ansPort.portNum ∧ ((call g s c).state = .leader → s.state = .leader) := by
  have hseat := seat_call g s c
  have hport : (call g s c).ansPort.portNum = ((s.event g c).apply g s.seat).portNum := congrArg Seat.portNum hseat
  have hstate : (call g s c).state = ((s.event g c).apply g s.seat).state := congrArg Seat.state hseat
  have hg := guard_event g s c
  have hwin : ∀ e term node, c = .net e (.rspvote term g.ownId true node) → s.exc = none → s.state = .candidate →
      ¬s.threshold ≤ s.votes + 1 := by
    rintro e term node rfl hs hst hvotes
    simp [won, hs, hst, hvotes] at h
  rw [hport, hstate]
  cases hev : s.event g c with
  | win port =>
    rw [hev] at hg
    obtain ⟨hst, hvotes, -, -, e, term, node, hc⟩ := hg
    exact absurd hvotes (hwin e term node hc (exc_of_event hev (by simp)) hst)
  | winFails port =>
    rw [hev] at hg
    obtain ⟨hst, hvotes, -, e, term, node, hc⟩ := hg
    exact absurd hvotes (hwin e term node hc (exc_of_event hev (by simp)) hst)
  | idle | rearm | announce | refuse | answer | count => exact ⟨rfl, id⟩
  | candidacy | candidacyFails | giveUp | accept | defer => exact ⟨rfl, fun h => by cases h⟩

/-- A candidate has a term that goes into a message. -/
theorem term_of_candidate (h : s.exc = none → s.state = .candidate → s.term < 2 ^ 32)
    (hexc : (call g s c).exc = none) (hst : (call g s c).state = .candidate) : (call g s c).term < 2 ^ 32 := by
  have hs := exc_of_call hexc
  have hg := guard_event g s c
  rw [term_call]
  rw [state_call] at hst
  cases hev : s.event g c with
  | candidacy =>
    rw [hev] at hg
    exact hg.2.1
  | candidacyFails => simp [exc_of_candidacyFails hev] at hexc
  | idle | rearm | announce | refuse | count =>
    rw [hev] at hst
    exact h hs hst
  | answer =>
    rw [hev] at hst hg
    exact absurd (hg.1.symm.trans hst) (by decide)
  | win | winFails | giveUp | accept | defer =>
    rw [hev] at hst
    cases hst

end GroupThread

/-- A group thread and the sockets of its answer port. -/
structure Elector (Id : Type u) where
  thread : GroupThread Id
  sockets : AnsSockets

namespace Elector

open GroupThread

omit [DecidableEq Id] in
/-- A thread that has just been set up. -/
def start (g : Member Id) (e : Env g.toGroupParams) : Elector Id := ⟨.start g e, .init⟩

/-- One call. -/
def call (g : Member Id) (x : Elector Id) (c : Call Id g) : Elector Id where
  thread := x.thread.call g c
  sockets :=
    match x.thread.won g c with
    | some port => x.sockets.renew port
    | none => x.sockets

/-- The call completes an election. -/
structure Reelected (g : Member Id) (x : Elector Id) (c : Call Id g) : Prop where
  exc : (x.call g c).thread.exc = none
  state : (x.call g c).thread.state = .leader
  /-- The answer socket is bound, to a port with that number, and it is a new one or was not bound before. -/
  port : ∃ port, (x.call g c).sockets.socket.port = some port ∧ (x.call g c).sockets.portNum = some port ∧
    (x.call g c).thread.ldrPort = some port ∧
    elections (x.thread.sends g c) = [.authority x.thread.term g.ownId g.host port]
  fresh : (x.call g c).sockets.socket.num = x.sockets.socket.num → x.sockets.socket.port = none
  registered : (x.call g c).sockets.socket.num ∈ (x.call g c).sockets.poller
  polled : (x.call g c).sockets.ansSocket = (x.call g c).sockets.socket.num

/-! ### What the sockets have to do with the thread -/

/-- What is known of a thread and its sockets. -/
structure Fitted (x : Elector Id) : Prop where
  portNum : x.sockets.portNum = x.thread.ansPort.portNum
  bound : x.sockets.socket.port = x.sockets.portNum
  registered : x.sockets.socket.num ∈ x.sockets.poller
  polled : x.sockets.ansSocket = x.sockets.socket.num
  /-- A leader's port is bound. -/
  led : x.thread.ansPort.portNum = none → x.thread.state ≠ .leader
  /-- A candidate's term goes into a message. -/
  term : x.thread.exc = none → x.thread.state = .candidate → x.thread.term < 2 ^ 32

variable {g : Member Id} {x : Elector Id} {c : Call Id g}

/-- The thread does not see its sockets. -/
theorem thread_run (x : Elector Id) (cs : List (Call Id g)) :
    (run (Elector.call g) x cs).thread = run (GroupThread.call g) x.thread cs := by
  induction cs generalizing x with
  | nil => rfl
  | cons c cs ih => exact ih (x.call g c)

omit [DecidableEq Id] in
theorem fitted_start (g : Member Id) (e : Env g.toGroupParams) : Fitted (start g e) := by
  have hseat := seat_start g e
  refine ⟨(congrArg Seat.portNum hseat).symm, rfl, List.mem_singleton_self _, rfl, fun _ hst => ?_, fun _ hst => ?_⟩
  · exact absurd ((state_start g e).symm.trans hst) (by decide)
  · exact absurd ((state_start g e).symm.trans hst) (by decide)

/-- The second time, the sockets stay what they are; -/
theorem renew_of_some {p : AnsSockets} {port : ℕ} (h : p.portNum = some port) (freePort : ℕ) :
    p.renew freePort = p := by
  simp only [AnsSockets.renew, AnsSockets.updatePoller, h]

/-- the first time the socket is bound. -/
theorem renew_of_none {p : AnsSockets} (h : p.portNum = none) (freePort : ℕ) :
    p.renew freePort = ⟨⟨p.socket.num, some freePort⟩, some freePort, p.socket.num, p.poller⟩ := by
  simp only [AnsSockets.renew, AnsSockets.updatePoller, h]

/-- A call keeps it. -/
theorem Fitted.call (h : Fitted x) (c : Call Id g) : Fitted (x.call g c) := by
  have hterm := term_of_candidate (c := c) h.term
  cases hwon : x.thread.won g c with
  | none =>
    have hsame : (x.call g c).sockets = x.sockets := by rw [Elector.call, hwon]
    obtain ⟨hport, hlead⟩ := seat_of_not_won hwon
    refine ⟨?_, hsame ▸ h.bound, hsame ▸ h.registered, hsame ▸ h.polled, fun hnone hst => ?_, hterm⟩
    · rw [hsame]
      exact h.portNum.trans hport.symm
    · exact h.led (hport.symm.trans hnone) (hlead hst)
  | some port =>
    have hseat := seat_call g x.thread c
    rw [event_of_won hwon] at hseat
    have hnum : (x.thread.call g c).ansPort.portNum = _ := congrArg Seat.portNum hseat
    cases hold : x.thread.ansPort.portNum with
    | some old =>
      -- `updatePoller` fails
      have hsame : (x.call g c).sockets = x.sockets := by
        rw [Elector.call, hwon]
        exact renew_of_some (h.portNum.trans hold) port
      have hport : (x.thread.call g c).ansPort.portNum = x.thread.ansPort.portNum := by
        rw [hnum, hold]
        exact hold
      refine ⟨?_, hsame ▸ h.bound, hsame ▸ h.registered, hsame ▸ h.polled, fun hnone => ?_, hterm⟩
      · rw [hsame]
        exact h.portNum.trans hport.symm
      · exact absurd ((hold.symm.trans hport.symm).trans hnone) (Option.some_ne_none old)
    | none =>
      have hnew : (x.call g c).sockets = ⟨⟨x.sockets.socket.num, some port⟩, some port, x.sockets.socket.num,
          x.sockets.poller⟩ := by
        rw [Elector.call, hwon]
        exact renew_of_none (h.portNum.trans hold) port
      have hport : (x.thread.call g c).ansPort.portNum = some port := by
        rw [hnum, hold]
        simp only
        split_ifs <;> rfl
      refine ⟨hnew ▸ hport.symm, hnew ▸ rfl, hnew ▸ h.registered, hnew ▸ rfl, fun hnone => ?_, hterm⟩
      exact absurd (hport.symm.trans hnone) (Option.some_ne_none port)

theorem fitted_run (g : Member Id) (e : Env g.toGroupParams) (cs : List (Call Id g)) :
    Fitted (run (call g) (start g e) cs) :=
  inv_run (fun _ c h => h.call c) (fitted_start g e) cs

/-- The port is bound by becoming the leader. -/
theorem Fitted.portNum_call (h : Fitted x) (c : Call Id g) :
    (x.call g c).thread.ansPort.portNum = none ↔
      x.thread.ansPort.portNum = none ∧ (x.call g c).thread.state ≠ .leader := by
  cases hwon : x.thread.won g c with
  | none =>
    obtain ⟨hport, hlead⟩ := seat_of_not_won hwon
    rw [show (x.call g c).thread.ansPort.portNum = x.thread.ansPort.portNum from hport]
    exact ⟨fun hnone => ⟨hnone, fun hst => h.led hnone (hlead hst)⟩, And.left⟩
  | some port =>
    have hseat := seat_call g x.thread c
    rw [event_of_won hwon] at hseat
    have hnum : (x.call g c).thread.ansPort.portNum = _ := congrArg Seat.portNum hseat
    have hst : (x.call g c).thread.state = _ := congrArg Seat.state hseat
    rw [hnum, hst]
    cases hold : x.thread.ansPort.portNum with
    | some old => simp [ElectionEvent.apply, seat, hold]
    | none =>
      simp only
      split_ifs <;> simp [ElectionEvent.apply]

/-- So it is unbound in the runs that have not come to be the leader. -/
theorem Fitted.portNum_run (h : Fitted x) (cs : List (Call Id g)) :
    (run (Elector.call g) x cs).thread.ansPort.portNum = none ↔
      x.thread.ansPort.portNum = none ∧ Always (Elector.call g) (fun y => y.thread.state ≠ .leader) x cs := by
  induction cs generalizing x with
  | nil =>
    rw [always_nil]
    exact ⟨fun hnone => ⟨hnone, h.led hnone⟩, And.left⟩
  | cons c cs ih =>
    rw [run_cons, ih (h.call c), h.portNum_call, always_cons, and_assoc]
    refine and_congr_right fun hnone => ?_
    rw [and_iff_right (h.led hnone)]
    refine ⟨And.right, fun hall => ⟨hall [] List.nil_prefix, hall⟩⟩

/-- **An election is completed by a member that has not been the leader before**, and by no other. -/
theorem reelected_iff (g : Member Id) (e : Env g.toGroupParams) (cs : List (Call Id g)) (c : Call Id g)
    (hwon : ((run (call g) (start g e) cs).thread.won g c).isSome) :
    Reelected g (run (call g) (start g e) cs) c ↔
      Always (call g) (fun x => x.thread.state ≠ .leader) (start g e) cs := by
  have hfit := fitted_run g e cs
  have hunbound : (start g e).thread.ansPort.portNum = none := congrArg Seat.portNum (seat_start g e)
  have hnone := (fitted_start g e).portNum_run cs
  rw [and_iff_right hunbound] at hnone
  rw [← hnone]
  generalize run (call g) (start g e) cs = x at hwon hfit
  obtain ⟨port, hwon⟩ := Option.isSome_iff_exists.mp hwon
  have hevent := event_of_won hwon
  constructor
  · intro h
    by_contra hport
    obtain ⟨old, hold⟩ := Option.ne_none_iff_exists'.mp hport
    rw [hold] at hevent
    exact exc_of_winFails hevent h.exc
  · intro hport
    obtain ⟨hs, hst⟩ := running_of_won hwon
    rw [hport, if_neg (not_le.mpr (hfit.term hs hst))] at hevent
    have hseat := seat_call g x.thread c
    rw [hevent] at hseat
    have hnew : (x.call g c).sockets = ⟨⟨x.sockets.socket.num, some port⟩, some port, x.sockets.socket.num,
        x.sockets.poller⟩ := by
      rw [Elector.call, hwon]
      exact renew_of_none (hfit.portNum.trans hport) port
    refine ⟨?_, congrArg Seat.state hseat, ⟨port, ?_, ?_, congrArg Seat.ldrPort hseat, ?_⟩, fun _ => ?_, ?_, ?_⟩
    · exact exc_of_win hevent
    · rw [hnew]
    · rw [hnew]
    · rw [elections_sends, hevent]
      rfl
    · exact hfit.bound.trans (hfit.portNum.trans hport)
    · rw [hnew]
      exact hfit.registered
    · rw [hnew]

/-! ### Four members -/

/-- The member of `candidacy` is elected by the votes of members 1 and 2. -/
theorem reelected_once :
    Reelected (Member.standard 0)
      (run (call (Member.standard 0)) (start (Member.standard 0) (.least _ 100)) (Tally.candidacy ++ [Tally.vote 1 1]))
      (Tally.vote 1 2) := by
  refine (reelected_iff (Member.standard 0) (.least _ 100) _ _ (by decide +kernel)).mpr ?_
  iterate 6 refine always_cons.mpr ⟨by decide +kernel, ?_⟩
  exact always_nil.mpr (by decide +kernel)

/-- Member 7 is a leader of the same term; member 0 follows it, hears no more of it, and is a candidate again. -/
def candidacyAgain : List (Call ℕ (Member.standard 0)) :=
  Tally.candidacy ++ [Tally.vote 1 1, Tally.vote 1 2, .net (.least _ 104) (.authority 1 7 0x7f000002 50000),
    .net (.least _ 105) (.heartbeat 0), .net (.least _ 105) (.heartbeat 1), .net (.least _ 105) (.heartbeat 2),
    .net (.least _ 105) (.heartbeat 3), .timeout (.least _ 107), Tally.vote 2 1]

/-- The second vote ends the thread. -/
theorem not_reelected :
    ((run (call (Member.standard 0)) (start (Member.standard 0) (.least _ 100)) candidacyAgain).thread.won
        (Member.standard 0) (Tally.vote 2 2)).isSome ∧
      ¬ Reelected (Member.standard 0)
        (run (call (Member.standard 0)) (start (Member.standard 0) (.least _ 100)) candidacyAgain) (Tally.vote 2 2) :=
  ⟨by decide +kernel, fun h => absurd h.exc (by decide +kernel)⟩

end Elector

end Riaps.Coordination
