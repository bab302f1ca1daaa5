import Mathlib.Data.List.Chain
import Riaps.Foundation.Runs
import Riaps.Foundation.PyText

/-!
# The monitor of the network interface

The fault manager has a thread that listens to the links of the host, and tells the
deployment manager when the interface of the node goes down and when it is up again.

A link is up when its state is `UP` and it has a carrier. The thread keeps the state and the
carrier of the last event, and it sends a notification only if an event changes both, whatever
the notification is. So it is silent when one of them alone changes, and it repeats itself when
both change and the link is as it was: `reported_iff`.
-/

namespace Riaps.Deployment

open Riaps.Foundation

/-! ### Links -/

/-- `IFLA_OPERSTATE`. -/
inductive OperState where
  | unknown | notPresent | down | lowerLayerDown | testing | dormant | up
  deriving DecidableEq

/-- What an event says of a link. -/
structure LinkInfo where
  /-- `IFLA_IFNAME`. -/
  ifname : Text
  state : OperState
  /-- `IFLA_CARRIER`. -/
  carrier : UInt8
  deriving DecidableEq

/-- What the deployment manager is told: `nic+`, `nic-`. -/
inductive NicNote where
  | up
  | down
  deriving DecidableEq

/-- The notification for a state and a carrier. -/
def nicNote (state : OperState) (carrier : UInt8) : NicNote :=
  if state ≠ .up ∨ carrier ≠ 1 then .down else .up

/-! ### The thread -/

/-- The state of a `NICMonitor`. -/
structure NicMonitor where
  /-- `NIC_NAME`. -/
  nicName : Text
  /-- The state of the last event, `''` before there is one. -/
  state : Option OperState
  /-- Its carrier, -1 before there is one. -/
  carrier : ℤ
  /-- What was sent. -/
  sent : List NicNote
  deriving DecidableEq

namespace NicMonitor

/-- `__init__`. -/
def init (nicName : Text) : NicMonitor := ⟨nicName, none, -1, []⟩

/-- What `run` does for an event. -/
def step (m : NicMonitor) (info : LinkInfo) : NicMonitor :=
  if info.ifname = m.nicName then
    let sent :=
      if some info.state ≠ m.state ∧ (info.carrier.toNat : ℤ) ≠ m.carrier then
        m.sent ++ [nicNote info.state info.carrier]
      else m.sent
    { m with sent := sent, state := some info.state, carrier := info.carrier.toNat }
  else m

/-- The last event of the interface. -/
def latest (nicName : Text) (infos : List LinkInfo) : Option LinkInfo :=
  infos.reverse.find? fun info => info.ifname = nicName

/-- After the events, the last notification is the one for the last event, and none was sent twice
in a row. -/
structure Reports (nicName : Text) (infos : List LinkInfo) : Prop where
  last : (run step (init nicName) infos).sent.getLast? =
    (latest nicName infos).map fun info => nicNote info.state info.carrier
  changes : (run step (init nicName) infos).sent.IsChain (· ≠ ·)

/-- The notification for the last event. -/
def note (m : NicMonitor) : Option NicNote :=
  m.state.map fun state => if state ≠ .up ∨ m.carrier ≠ 1 then .down else .up

/-- The event is of another interface, or it changes both the state and the carrier exactly if it changes whether
the link is up. -/
def Noticed (m : NicMonitor) (info : LinkInfo) : Prop :=
  info.ifname = m.nicName →
    (some info.state ≠ m.state ∧ (info.carrier.toNat : ℤ) ≠ m.carrier ↔
      some (nicNote info.state info.carrier) ≠ m.note)

instance (m : NicMonitor) (info : LinkInfo) : Decidable (m.Noticed info) :=
  inferInstanceAs (Decidable (_ → _))

/-! ### One event -/

variable {m : NicMonitor} {info : LinkInfo}

theorem step_other (h : info.ifname ≠ m.nicName) : m.step info = m := if_neg h

@[simp] theorem step_nicName (m : NicMonitor) (info : LinkInfo) : (m.step info).nicName = m.nicName := by
  rw [step]
  split_ifs <;> rfl

theorem note_step (h : info.ifname = m.nicName) : (m.step info).note = some (nicNote info.state info.carrier) := by
  have hcarrier : (info.carrier.toNat : ℤ) ≠ 1 ↔ info.carrier ≠ 1 := by
    rw [ne_eq, ne_eq, ← UInt8.toNat_inj, UInt8.toNat_one]
    omega
  rw [step, if_pos h, note, Option.map_some, nicNote]
  simp only [hcarrier]

/-- The memory is that of the last event. -/
theorem note_run (nicName : Text) (infos : List LinkInfo) :
    (run step (init nicName) infos).nicName = nicName ∧
      (run step (init nicName) infos).note =
        (latest nicName infos).map fun info => nicNote info.state info.carrier := by
  induction infos using List.reverseRecOn with
  | nil => exact ⟨rfl, rfl⟩
  | append_singleton infos info ih =>
    obtain ⟨hname, hnote⟩ := ih
    rw [run_append, run_cons, run_nil, latest, List.reverse_append, List.reverse_singleton, List.singleton_append,
      List.find?_cons]
    refine ⟨by rw [step_nicName, hname], ?_⟩
    by_cases hown : info.ifname = nicName
    · rw [note_step (hown.trans hname.symm), decide_eq_true hown]
      rfl
    · rw [step_other fun h => hown (h.trans hname), decide_eq_false hown]
      exact hnote

/-! ### Runs -/

/-- The last notification is the one for the last event, and none was sent twice in a row. -/
def Faithful (m : NicMonitor) : Prop := m.sent.getLast? = m.note ∧ m.sent.IsChain (· ≠ ·)

theorem faithful_init (nicName : Text) : Faithful (init nicName) := ⟨rfl, .nil⟩

/-- After an event that is noticed as it should be, and after no other, what was sent is right again. -/
theorem faithful_step_iff (h : Faithful m) (info : LinkInfo) : Faithful (m.step info) ↔ m.Noticed info := by
  by_cases hown : info.ifname = m.nicName
  · rw [Faithful, note_step hown, Noticed, imp_iff_right hown, step, if_pos hown]
    by_cases hboth : some info.state ≠ m.state ∧ (info.carrier.toNat : ℤ) ≠ m.carrier
    · simp only [if_pos hboth, List.getLast?_concat, true_and, iff_true_left hboth]
      have hne : (∀ last ∈ m.sent.getLast?, last ≠ nicNote info.state info.carrier) ↔
          some (nicNote info.state info.carrier) ≠ m.sent.getLast? :=
        ⟨fun hall heq => hall _ heq.symm rfl, fun hne last hlast heq => hne (heq ▸ hlast.symm)⟩
      rw [List.isChain_append, ← h.1, ← hne]
      simp [h.2]
    · simp only [if_neg hboth, h.1, h.2, and_true, iff_false_left hboth, not_not]
      exact eq_comm
  · rw [step_other hown]
    exact iff_of_true h fun h => absurd h hown

/-- **The notifications are those of the link** after every event if, and only if, each event of the interface
changes the state and the carrier together exactly if it changes whether the link is up. -/
theorem reported_iff (nicName : Text) (infos : List LinkInfo) :
    (∀ pre, pre <+: infos → Reports nicName pre) ↔ AllSteps step Noticed (init nicName) infos := by
  rw [← always_iff_allSteps (I := fun _ => True) (P := Faithful) (fun _ _ _ _ => trivial)
    (fun m info _ h => faithful_step_iff h info) trivial (faithful_init nicName)]
  refine forall₂_congr fun pre _ => ?_
  rw [Faithful, (note_run nicName pre).2]
  exact ⟨fun h => ⟨h.last, h.changes⟩, fun h => ⟨h.1, h.2⟩⟩

/-- A cable that is pulled out and put in again: at first the carrier alone changes. -/
theorem not_reported :
    let nic : Text := ['e', 't', 'h', '0']
    ¬∀ pre, pre <+: [⟨nic, .up, 1⟩, ⟨nic, .up, 0⟩] → Reports nic pre := by
  intro nic h
  have hlast := (h _ (List.prefix_refl _)).last
  revert hlast
  decide

/-- The state and the carrier change together: the link goes down, and comes up. -/
example (nic : Text) : AllSteps step Noticed (init nic) [⟨nic, .up, 1⟩, ⟨nic, .down, 0⟩, ⟨nic, .up, 1⟩] := by
  simp [allSteps_cons, allSteps_nil, Noticed, step, init, note, nicNote]

end NicMonitor

end Riaps.Deployment
