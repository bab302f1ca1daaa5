import Mathlib.Data.Rat.Encodable
import Mathlib.Logic.Equiv.List
import Mathlib.Tactic.DeriveEncodable
import Riaps.Foundation.Struct
import Riaps.Coordination.Safety

/-!
# The frames of a group

What a member publishes goes out as two frames, a command of three letters and a record. The records
of elections are packed: terms, addresses and ports in four bytes, ids in sixteen. A thread unpacks
them where it needs to, and a record of another length ends the thread, but for that of a heartbeat,
which is passed over.

The members of a group that exchange frames do what they do when they exchange messages, so that
what is proved of groups elsewhere holds of them: `wire_same`.
-/

namespace Riaps.Coordination

open Riaps.Foundation
open Riaps.Foundation.Struct (Field)

/-- The bytes of a `uuid`. -/
abbrev Uuid := { b : Bytes // b.length = 16 }

/-! ### Records -/

/-- `!16s`. -/
abbrev idFormat : List Field := [.bytes 16]

/-- `!L16s`. -/
abbrev reqvoteFormat : List Field := [.ulong, .bytes 16]

/-- `!L16sL16s`. -/
abbrev rspvoteFormat : List Field := [.ulong, .bytes 16, .ulong, .bytes 16]

/-- `!L16sLL`. -/
abbrev authorityFormat : List Field := [.ulong, .bytes 16, .ulong, .ulong]

/-- `b'msg'`, and so on. -/
inductive GroupCommand where
  | msg
  | mlt
  | tic
  | req
  | vot
  | ldr
  | rcm
  | ann
  deriving DecidableEq

/-- How votes are written and read: what `capnp` makes from the schema. -/
structure VoteCodec where
  write : GroupVote → Bytes
  read : Bytes → Option GroupVote
  read_write : ∀ m, read (write m) = some m

/-- A frame, where `pack` raises no exception. -/
def record (fs : List Field) (vs : Struct.Values fs) : Bytes := (Struct.pack fs vs).getD []

/-- The two frames of a message. -/
def frames (C : VoteCodec) : GroupMsg Uuid → GroupCommand × Bytes
  | .msg payload => (.msg, payload)
  | .mlt leaver => (.mlt, leaver.1)
  | .heartbeat peer => (.tic, record idFormat (peer.1, ()))
  | .reqvote term node => (.req, record reqvoteFormat (term, node.1, ()))
  | .rspvote term cand vote node =>
    (.vot, record rspvoteFormat (term, cand.1, (if vote then 1 else 0 : ℕ), node.1, ()))
  | .authority term leader host port => (.ldr, record authorityFormat (term, leader.1, host, port, ()))
  | .rcm m => (.rcm, C.write m)
  | .ann m => (.ann, C.write m)

/-- Bytes taken for an id. -/
def asUuid (b : Bytes) : Option Uuid := if h : b.length = 16 then some ⟨b, h⟩ else none

/-- The message of two frames, with all of it unpacked. -/
def parse (C : VoteCodec) : GroupCommand × Bytes → Option (GroupMsg Uuid)
  | (.msg, frame) => some (.msg frame)
  | (.mlt, frame) => do return .mlt (← asUuid (← Struct.unpack idFormat frame).1)
  | (.tic, frame) => do return .heartbeat (← asUuid (← Struct.unpack idFormat frame).1)
  | (.req, frame) => do
    let (term, node, _) ← Struct.unpack reqvoteFormat frame
    return .reqvote term (← asUuid node)
  | (.vot, frame) => do
    let (term, cand, vote, node, _) ← Struct.unpack rspvoteFormat frame
    return .rspvote term (← asUuid cand) (decide (vote ≠ (0 : ℕ))) (← asUuid node)
  | (.ldr, frame) => do
    let (term, leader, host, port, _) ← Struct.unpack authorityFormat frame
    return .authority term (← asUuid leader) host port
  | (.rcm, frame) => (C.read frame).map .rcm
  | (.ann, frame) => (C.read frame).map .ann

/-- The numbers of a message fit their fields. -/
def GroupMsg.Fits : GroupMsg Uuid → Prop
  | .reqvote term _ | .rspvote term _ _ _ => term < 2 ^ 32
  | .authority term _ host port => term < 2 ^ 32 ∧ host < 2 ^ 32 ∧ port < 2 ^ 32
  | _ => True

theorem asUuid_coe (id : Uuid) : asUuid id.1 = some id := dif_pos id.2

theorem unpack_record {fs : List Field} {vs : Struct.Values fs} (h : Struct.Fits fs vs) :
    Struct.unpack fs (record fs vs) = some vs := by
  obtain ⟨b, hb, -⟩ := Struct.pack_of_fits h
  rw [record, hb]
  exact Struct.unpack_eq_some.mpr ⟨h, hb⟩

theorem unpack_id (id : Uuid) : Struct.unpack idFormat id.1 = some (id.1, ()) := by
  refine Struct.unpack_eq_some.mpr ⟨⟨id.2, trivial⟩, ?_⟩
  simp [Struct.pack, Field.pack, id.2, List.take_of_length_le]

/-- **A message is read as it was sent.** -/
theorem parse_frames (C : VoteCodec) {m : GroupMsg Uuid} (h : m.Fits) : parse C (frames C m) = some m := by
  cases m with
  | msg payload => rfl
  | mlt leaver =>
    simp only [parse, frames, unpack_id, Option.bind_eq_bind, Option.bind_some, asUuid_coe, Option.pure_def]
  | heartbeat peer =>
    have hfits : Struct.Fits idFormat (peer.1, ()) := ⟨peer.2, trivial⟩
    simp only [parse, frames, unpack_record hfits, Option.bind_eq_bind, Option.bind_some, asUuid_coe, Option.pure_def]
  | reqvote term node =>
    have hfits : Struct.Fits reqvoteFormat (term, node.1, ()) := ⟨h, node.2, trivial⟩
    simp only [parse, frames, unpack_record hfits, Option.bind_eq_bind, Option.bind_some, asUuid_coe, Option.pure_def]
  | rspvote term cand vote node =>
    have hbool : (if vote then 1 else 0 : ℕ) < 2 ^ 32 := by split <;> decide
    have hfits : Struct.Fits rspvoteFormat (term, cand.1, (if vote then 1 else 0 : ℕ), node.1, ()) :=
      ⟨h, cand.2, hbool, node.2, trivial⟩
    have hvote : decide ((if vote then 1 else 0 : ℕ) ≠ 0) = vote := by cases vote <;> rfl
    simp only [parse, frames, unpack_record hfits, Option.bind_eq_bind, Option.bind_some, asUuid_coe, Option.pure_def,
      hvote]
  | authority term leader host port =>
    obtain ⟨hterm, hhost, hport⟩ := h
    have hfits : Struct.Fits authorityFormat (term, leader.1, host, port, ()) :=
      ⟨hterm, leader.2, hhost, hport, trivial⟩
    simp only [parse, frames, unpack_record hfits, Option.bind_eq_bind, Option.bind_some, asUuid_coe, Option.pure_def]
  | rcm m => simp [parse, frames, C.read_write]
  | ann m => simp [parse, frames, C.read_write]

/-! ### The thread -/

namespace GroupThread

/-- `handleNetMessage`, with the frames that come. What the state does not ask for is not unpacked. A vote is passed on
as it is, and a vote that cannot be read is not shown among what the component gets. -/
def handleFrames (C : VoteCodec) (g : Member Uuid) (e : Env g.toGroupParams) (m : GroupCommand × Bytes)
    (s : GroupThread Uuid) : GroupThread Uuid :=
  match parse C m, m.1, s.state with
  | some m, _, _ => s.handleNetMessage g e m
  | none, .tic, _ | none, .msg, _ => s
  | none, .rcm, _ | none, .ann, _ =>
    if g.isTimed then s.raise .typeError else (s.updateTimeout e.now).setLeaderDeadline e
  | none, .req, .leader | none, .vot, .leader => s.setTimeout g.groupHeartbeat e.now
  | none, .vot, .follower => s.setTimeout e.election e.now
  | none, .mlt, _ | none, .req, _ | none, .vot, .candidate | none, .ldr, _ => s.raise .structError

/-- The call for the frames that come. -/
def callFrames (C : VoteCodec) (g : Member Uuid) (e : Env g.toGroupParams) (m : GroupCommand × Bytes)
    (s : GroupThread Uuid) : GroupThread Uuid :=
  if s.exc ≠ none then s else s.handleFrames C g e m

theorem callFrames_frames (C : VoteCodec) (g : Member Uuid) (e : Env g.toGroupParams) {m : GroupMsg Uuid} (h : m.Fits)
    (s : GroupThread Uuid) : s.callFrames C g e (frames C m) = s.call g (.net e m) := by
  rw [callFrames, handleFrames, parse_frames C h]
  rfl

/-- What comes, nothing that was sent is taken back. -/
theorem sent_callFrames (C : VoteCodec) (g : Member Uuid) (e : Env g.toGroupParams) (m : GroupCommand × Bytes)
    (s : GroupThread Uuid) : published s.sent <+: published (s.callFrames C g e m).sent := by
  cases hparse : parse C m with
  | some msg =>
    have heq : s.callFrames C g e m = s.call g (.net e msg) := by
      rw [callFrames, handleFrames, hparse]
      rfl
    rw [heq, sent_call, published_append]
    exact List.prefix_append _ _
  | none =>
    rw [callFrames]
    split_ifs
    · exact List.prefix_refl _
    · rw [handleFrames, hparse]
      split <;> try contradiction
      all_goals first | exact List.prefix_refl _ | (split_ifs <;> exact List.prefix_refl _)

/-! ### What a member publishes fits -/

variable {g : Member Uuid} {s : GroupThread Uuid} {c : Call Uuid g}

/-- What was published fits, and so does the port that a leader tells. -/
structure Wired (g : Member Uuid) (s : GroupThread Uuid) : Prop where
  published : ∀ m ∈ published s.sent, m.Fits
  ldrPort : ∀ port, s.ldrPort = some port → port < 2 ^ 32

/-- The port that a winner is bound to. -/
theorem port_of_event {port : ℕ} (h : s.event g c = .win port ∨ s.event g c = .winFails (some port)) :
    port < 2 ^ 32 := by
  obtain ⟨-, e, rfl⟩ := freePort_of_event h
  exact lt_trans e.freePort_mem.2 (by decide)

/-- A leader that informs the members is of a term that fits. -/
theorem term_of_announce {port : ℕ} (h : s.event g c = .announce port) : s.term < 2 ^ 32 := by
  have hexc := exc_of_event h (by simp)
  have hg := guard_event g s c
  rw [h] at hg
  obtain ⟨hst, hleader, hport, e, rfl⟩ := hg
  simp only [event, hexc, hst, hleader, hport, ne_eq, not_true_eq_false, if_false] at h
  split_ifs at h with hterm
  exact Nat.lt_of_not_le hterm

/-- The election messages of a call fit. -/
theorem Wired.pubs (h : Wired g s) (hhost : g.host < 2 ^ 32) (hc : ∀ m ∈ heardOf c, m.Fits) :
    ∀ m ∈ (s.event g c).pubs g s.seat, m.Fits := by
  have hg := guard_event g s c
  intro m hm
  cases hev : s.event g c with
  | announce port =>
    rw [hev] at hg hm
    obtain rfl := List.mem_singleton.mp hm
    exact ⟨term_of_announce hev, hhost, h.ldrPort port hg.2.2.1⟩
  | win port =>
    rw [hev] at hg hm
    obtain rfl := List.mem_singleton.mp hm
    exact ⟨hg.2.2.2.1, hhost, port_of_event (.inl hev)⟩
  | candidacy =>
    rw [hev] at hg hm
    obtain rfl := List.mem_singleton.mp hm
    exact hg.2.1
  | answer term node =>
    rw [hev] at hg hm
    obtain rfl := List.mem_singleton.mp hm
    obtain ⟨-, e, rfl⟩ := hg
    exact hc (.reqvote term node) (List.mem_singleton.mpr rfl)
  | refuse term node =>
    rw [hev] at hg hm
    obtain rfl := List.mem_singleton.mp hm
    obtain ⟨-, -, -, e, rfl⟩ := hg
    exact hc (.reqvote term node) (List.mem_singleton.mpr rfl)
  | «defer» term node =>
    rw [hev] at hg hm
    obtain rfl := List.mem_singleton.mp hm
    obtain ⟨-, -, e, rfl⟩ := hg
    exact hc (.reqvote term node) (List.mem_singleton.mpr rfl)
  | _ =>
    rw [hev] at hm
    exact absurd hm List.not_mem_nil

theorem Wired.call (h : Wired g s) (hhost : g.host < 2 ^ 32) (hc : ∀ m ∈ heardOf c, m.Fits) :
    Wired g (call g s c) := by
  constructor
  · intro m hm
    rw [sent_call, published_append] at hm
    rcases List.mem_append.mp hm with hm | hm
    · exact h.published m hm
    · cases hel : m.isElection with
      | true =>
        refine h.pubs hhost hc m ?_
        rw [← elections_sends]
        exact mem_elections.mpr ⟨hm, hel⟩
      | false =>
        cases m with
        | reqvote | rspvote | authority => contradiction
        | _ => trivial
  · intro port hport
    have hseat : ((s.event g c).apply g s.seat).ldrPort = some port := by
      rw [← seat_call]
      exact hport
    cases hev : s.event g c with
    | win freePort =>
      rw [hev] at hseat
      obtain rfl := Option.some.inj hseat
      exact port_of_event (.inl hev)
    | winFails freePort =>
      rw [hev] at hseat
      cases freePort with
      | none => exact h.ldrPort port hseat
      | some p =>
        obtain rfl := Option.some.inj hseat
        exact port_of_event (.inr hev)
    | _ =>
      rw [hev] at hseat
      exact h.ldrPort port hseat

theorem wired_start (g : Member Uuid) (e : Env g.toGroupParams) : Wired g (start g e) := by
  constructor
  · intro m hm
    rcases sent_start g e with h | h <;> rw [h] at hm
    · exact absurd hm List.not_mem_nil
    · obtain rfl := List.mem_singleton.mp hm
      trivial
  · intro port hport
    have hseat := congrArg Seat.ldrPort (seat_start g e)
    rw [show (start g e).seat.ldrPort = some port from hport] at hseat
    contradiction

end GroupThread

/-! ### The network -/

variable {ι : Type*}

/-- The members on the network, with frames. -/
def Group.wire (G : Group ι Uuid) (C : VoteCodec) :
    Broadcast ι (GroupThread Uuid) (GroupCommand × Bytes) G.Own fun i => Env (G.member i).toGroupParams where
  act i s c := s.call (G.member i) c.1
  hear i s e m := s.callFrames C (G.member i) e m
  log s := (published s.sent).map (frames C)
  log_act i s c := by
    rw [GroupThread.sent_call, published_append, List.map_append]
    exact List.prefix_append _ _
  log_hear i s e m := (GroupThread.sent_callFrames C (G.member i) e m s).map (frames C)

/-- The group when the threads start, with frames. -/
def Group.wireStart (G : Group ι Uuid) (C : VoteCodec) (e : ∀ i, Env (G.member i).toGroupParams) : (G.wire C).Net where
  node i := GroupThread.start (G.member i) (e i)
  got _ _ := 0
  got_le _ _ := Nat.zero_le _

/-- Frames are a form of messages, on hosts with addresses of four bytes. -/
def Group.coding (G : Group ι Uuid) (C : VoteCodec) (hhost : ∀ i, (G.member i).host < 2 ^ 32) :
    Broadcast.Coding G.net (G.wire C) where
  form := frames C
  Fits := GroupMsg.Fits
  Good i s := GroupThread.Wired (G.member i) s
  act_eq _ _ _ := rfl
  hear_eq i s e _ h := GroupThread.callFrames_frames C (G.member i) e h s
  log_eq _ := rfl
  fits _ _ h := h.published
  good_act i s c h := h.call (hhost i) (by rw [heardOf_own]; exact fun _ hm => absurd hm List.not_mem_nil)
  good_hear i s e m h hm := h.call (c := .net e m) (hhost i) (List.forall_mem_singleton.mpr hm)

/-- **Frames carry the messages.** A group whose members exchange frames of packed records is, after whatever moves, in
the state of the group whose members exchange the messages, and as much of what was published has come to each. -/
theorem wire_same [DecidableEq ι] (G : Group ι Uuid) (C : VoteCodec) (hhost : ∀ i, (G.member i).host < 2 ^ 32)
    (e : ∀ i, Env (G.member i).toGroupParams) (moves : List (Move G.Own fun i => Env (G.member i).toGroupParams)) :
    (run Broadcast.step (G.wireStart C e) moves).node = (run Broadcast.step (G.start e) moves).node ∧
      (run Broadcast.step (G.wireStart C e) moves).got = (run Broadcast.step (G.start e) moves).got := by
  have hstart : (G.coding C hhost).Same (G.start e) (G.wireStart C e) :=
    ⟨rfl, rfl, fun i => GroupThread.wired_start (G.member i) (e i)⟩
  exact ⟨(hstart.run moves).node, (hstart.run moves).got⟩

/-! ### A group of two -/

instance encodableString : Encodable String :=
  Encodable.ofLeftInverse String.toList String.ofList fun _ => String.ofList_toList

deriving instance Encodable for Vote, Voting, Subject, ReqForVote, RepToVote, AnnounceVote, GroupVote

/-- A vote as so many bytes. -/
def VoteCodec.unary : VoteCodec where
  write m := List.replicate (Encodable.encode m) 0
  read b := Encodable.decode b.length
  read_write m := by rw [List.length_replicate, Encodable.encodek]

/-- Two standard members. -/
def Group.two : Group (Fin 2) Uuid where
  member i := .standard ⟨List.replicate 16 (UInt8.ofNat i), List.length_replicate⟩
  ownId_inj := by decide

/-- What comes from `j` comes to `i`. -/
def Group.twoHears (now : ℚ) (i j : Fin 2) :
    Move Group.two.Own fun i => Env (Group.two.member i).toGroupParams :=
  .deliver i j (.least _ now)

/-- Nothing comes to `i` in time. -/
def Group.twoTimesOut (now : ℚ) (i : Fin 2) :
    Move Group.two.Own fun i => Env (Group.two.member i).toGroupParams :=
  .act i ⟨.timeout (.least _ now), rfl⟩

/-- Two members that exchange frames elect a leader. -/
theorem wire_same_elects :
    ((run Broadcast.step (Group.two.wireStart .unary fun _ => .least _ 100)
      [Group.twoHears 101 0 0, Group.twoHears 101 0 1, Group.twoTimesOut 103 0, Group.twoHears 103 1 0,
        Group.twoHears 103 1 0, Group.twoHears 103 0 1]).node 0).state = .leader := by
  rw [(wire_same Group.two .unary (by decide) _ _).1]
  decide +kernel

end Riaps.Coordination
