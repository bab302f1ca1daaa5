import Mathlib.Algebra.Ring.Nat
import Riaps.Foundation.Framing
import Riaps.Foundation.Loops
import Riaps.Foundation.PyText

/-!
# The server of the platform's log

A client of the log server sends records, each as the length of its body in four bytes
and the body. `handle` reads a header with one `recv`, and then a body with as many as it
takes, and queues the record; at a `recv` that has not the four bytes it ends.

So a header whose bytes do not come at once ends the handler before its time, and a
stream that is cut off in a body never ends it: at the end of the stream `recv` has no
bytes, and the loop over the body goes on for ever. With neither, the complete records
are queued, each once and in order (`handles_iff_readable`).
-/

namespace Riaps.Logger

open Riaps.Foundation

/-- `struct.unpack('>L', chunk)[0]`. -/
def unpack (chunk : List UInt8) : ℕ := chunk.foldl (fun n b => 256 * n + b.toNat) 0

/-- `struct.pack('>L', n)`. -/
def pack (n : ℕ) : List UInt8 :=
  [.ofNat (n / 2 ^ 24), .ofNat (n / 2 ^ 16), .ofNat (n / 2 ^ 8), .ofNat n]

theorem unpack_pack {n : ℕ} (hn : n < 2 ^ 32) : unpack (pack n) = n := by
  simp only [unpack, pack, List.foldl_cons, List.foldl_nil, UInt8.toNat_ofNat']
  omega

/-- How records lie in what a client sends. -/
def logFormat : Format UInt8 where
  header := 4
  header_pos := by decide
  size := unpack

/-- What a client sends is told apart into its records and what it has cut off. -/
theorem split_sent {bodies : List (List UInt8)} (hbodies : ∀ body ∈ bodies, body.length < 2 ^ 32) {cut : List UInt8}
    (hcut : logFormat.first cut = none) :
    logFormat.split ((bodies.flatMap fun body => pack body.length ++ body) ++ cut) = (bodies, cut) :=
  Format.split_flatMap (fun body hbody => ⟨rfl, unpack_pack (hbodies body hbody)⟩) hcut

/-- What is put into the queue. -/
structure LogMsg where
  client : Text
  data : Text
  deriving DecidableEq

/-- The handler's client, and what makes a text of a record. -/
structure PlatformLogRequestHandler where
  Obj : Type
  LogRecord : Type
  client : Text
  /-- `pickle.loads`. -/
  loads : List UInt8 → Obj
  /-- `logging.makeLogRecord`. -/
  makeLogRecord : Obj → LogRecord
  /-- `format`, of the server's log handler. -/
  format : LogRecord → Text

/-- Where the handler is: before a header, or in the loop over a body, with what it has of it. -/
inductive Reading where
  | header
  | body (slen : ℕ) (chunk : List UInt8)

/-- The handler at work. -/
structure Handling where
  reading : Reading
  connection : Chunks UInt8
  q : List LogMsg

namespace PlatformLogRequestHandler

variable (h : PlatformLogRequestHandler)

/-- `handle_log_record`. -/
def handleLogRecord (data : Text) (q : List LogMsg) : List LogMsg := q ++ [⟨h.client, data⟩]

/-- What is queued for a body. -/
def record (body : List UInt8) : LogMsg := ⟨h.client, h.format (h.makeLogRecord (h.loads body))⟩

/-- `handle`: up to the loop over the body, a round of that loop, or what comes after it. -/
def round (s : Handling) : Handling ⊕ List LogMsg :=
  match s.reading with
  | .header =>
    let (chunk, connection) := s.connection.recv 4
    if chunk.length < 4 then .inr s.q
    else
      let slen := unpack chunk
      let (chunk, connection) := connection.recv slen
      .inl ⟨.body slen chunk, connection, s.q⟩
  | .body slen chunk =>
    if chunk.length < slen then
      let (more, connection) := s.connection.recv (slen - chunk.length)
      .inl ⟨.body slen (chunk ++ more), connection, s.q⟩
    else
      let obj := h.loads chunk
      let record := h.makeLogRecord obj
      .inl ⟨.header, s.connection, h.handleLogRecord (h.format record) s.q⟩

/-- The handler ends, with these messages queued. -/
def Handles (connection : Chunks UInt8) (q : List LogMsg) : Prop := Exits h.round ⟨.header, connection, []⟩ q

variable {h} {c : Chunks UInt8} {q r : List LogMsg}

/-! ### A body -/

/-- A body that arrives completely is queued. -/
theorem exits_body (chunk : List UInt8) {more rest : List UInt8} (hstream : c.stream = more ++ rest) :
    ∃ d : Chunks UInt8, d.stream = rest ∧ (∀ o m, d.Together o m ↔ c.Together (o + more.length) m) ∧
      (Exits h.round ⟨.body (chunk.length + more.length) chunk, c, q⟩ r ↔
        Exits h.round ⟨.header, d, q ++ [h.record (chunk ++ more)]⟩ r) := by
  induction hn : more.length using Nat.strongRecOn generalizing chunk more c with
  | _ n ih =>
    subst hn
    by_cases hpos : 0 < more.length
    · obtain ⟨more', hmore, hrest⟩ :=
        exists_eq_append ((Chunks.recv_append more.length c).trans hstream) (Chunks.length_recv_le _ c)
      have hlen := congrArg List.length hmore
      rw [List.length_append] at hlen
      have hreceived : 0 < (c.recv more.length).1.length := by
        rw [List.length_pos_iff, Ne, Chunks.recv_eq_nil hpos, hstream]
        exact fun he => (List.length_pos_iff.mp hpos) (List.append_eq_nil_iff.mp he).1
      have hround : h.round ⟨.body (chunk.length + more.length) chunk, c, q⟩ =
          .inl ⟨.body (chunk.length + more.length) (chunk ++ (c.recv more.length).1), (c.recv more.length).2, q⟩ := by
        simp only [round, if_pos (show chunk.length < chunk.length + more.length by omega), Nat.add_sub_cancel_left]
      obtain ⟨d, hd, htogether, hexits⟩ := ih more'.length (by omega)
        (chunk ++ (c.recv more.length).1) hrest rfl
      refine ⟨d, hd, fun o m => ?_, ?_⟩
      · have hoff : o + more'.length + (c.recv more.length).1.length = o + more.length := by omega
        rw [htogether, Chunks.together_recv, hoff]
      · have hslen : (chunk ++ (c.recv more.length).1).length + more'.length = chunk.length + more.length := by
          rw [List.length_append]
          omega
        rw [hslen, List.append_assoc, ← hmore] at hexits
        rw [exits_of_inl hround, hexits]
    · obtain rfl := List.length_eq_zero_iff.mp (Nat.eq_zero_of_not_pos hpos)
      refine ⟨c, hstream, fun o m => Iff.rfl, ?_⟩
      have hround : h.round ⟨.body (chunk.length + 0) chunk, c, q⟩ = .inl ⟨.header, c, q ++ [h.record chunk]⟩ := by
        simp only [round, if_neg (show ¬chunk.length < chunk.length + 0 by omega)]
        rfl
      rw [List.append_nil]
      exact exits_of_inl hround

/-- At a body that is cut off the handler never ends. -/
theorem not_exits_body {slen : ℕ} {chunk : List UInt8} (hstream : chunk.length + c.stream.length < slen) :
    ¬Exits h.round ⟨.body slen chunk, c, q⟩ r := by
  refine not_exits_of_inv
    (I := fun s => ∃ chunk, s.reading = .body slen chunk ∧ chunk.length + s.connection.stream.length < slen)
    (fun s hs => ?_) ⟨chunk, rfl, hstream⟩
  obtain ⟨chunk, hreading, hcut⟩ := hs
  have hlen := congrArg List.length (Chunks.recv_append (slen - chunk.length) s.connection)
  rw [List.length_append] at hlen
  refine ⟨_, by simp only [round, hreading, if_pos (show chunk.length < slen by omega)]; rfl, _, rfl, ?_⟩
  show (chunk ++ _).length + (Chunks.recv _ s.connection).2.stream.length < slen
  rw [List.length_append]
  omega

/-! ### A header -/

/-- At a header that does not come at once the handler ends. -/
theorem exits_of_not_together (hheader : ¬c.Together 0 4) : Exits h.round ⟨.header, c, q⟩ r ↔ r = q := by
  have hlt : (c.recv 4).1.length < 4 := by
    have hle := Chunks.length_recv_le 4 c
    have hne := mt (Chunks.length_recv_eq (by decide)).mp hheader
    omega
  refine exits_of_inr ?_
  simp only [round, if_pos hlt]

/-- At any other it goes on to the body. -/
theorem exits_of_together (hheader : c.Together 0 4) :
    ∃ header body d, header.length = 4 ∧ c.stream = header ++ (body ++ d.stream) ∧ body.length ≤ unpack header ∧
      (∀ o m, d.Together o m ↔ c.Together (o + (4 + body.length)) m) ∧
      (Exits h.round ⟨.header, c, q⟩ r ↔ Exits h.round ⟨.body (unpack header) body, d, q⟩ r) := by
  have hlen := (Chunks.length_recv_eq (by decide)).mpr hheader
  have hround : h.round ⟨.header, c, q⟩ = .inl ⟨.body (unpack (c.recv 4).1)
      ((c.recv 4).2.recv (unpack (c.recv 4).1)).1, ((c.recv 4).2.recv (unpack (c.recv 4).1)).2, q⟩ := by
    simp only [round, if_neg (show ¬(c.recv 4).1.length < 4 by omega)]
  refine ⟨_, _, _, hlen, ?_, Chunks.length_recv_le _ _, fun o m => ?_, exits_of_inl hround⟩
  · rw [Chunks.recv_append, Chunks.recv_append]
  · rw [Chunks.together_recv, Chunks.together_recv, hlen, Nat.add_assoc, Nat.add_comm _ 4]

/-- A complete record is queued, -/
theorem exits_of_first {body rest : List UInt8} (hheader : c.Together 0 4)
    (hfirst : logFormat.first c.stream = some (body, rest)) :
    ∃ d : Chunks UInt8, d.stream = rest ∧ (∀ o m, d.Together o m ↔ c.Together (o + (4 + body.length)) m) ∧
      (Exits h.round ⟨.header, c, q⟩ r ↔ Exits h.round ⟨.header, d, q ++ [h.record body]⟩ r) := by
  obtain ⟨header, hlen, hsize, hstream⟩ := Format.first_eq_some.mp hfirst
  obtain ⟨header', chunk, d, hlen', hstream', hchunk, htogether, hexits⟩ :=
    exits_of_together (h := h) (q := q) (r := r) hheader
  obtain ⟨rfl, hbody⟩ := List.append_inj (hstream.symm.trans hstream') (hlen.trans hlen'.symm)
  change unpack header = body.length at hsize
  obtain ⟨more, rfl, hd⟩ := exists_eq_append hbody.symm (hsize ▸ hchunk)
  obtain ⟨d', hd', htogether', hexits'⟩ := exits_body (h := h) (q := q) (r := r) chunk hd
  refine ⟨d', hd', fun o m => ?_, ?_⟩
  · have hoff : o + more.length + (4 + chunk.length) = o + (4 + (chunk ++ more).length) := by
      rw [List.length_append]
      omega
    rw [htogether', htogether, hoff]
  · rw [List.length_append] at hsize
    rw [hexits, hsize, hexits']

/-- and at a record that is cut off after its header the handler never ends. -/
theorem not_exits_of_first (hheader : c.Together 0 4) (hfirst : logFormat.first c.stream = none) :
    ¬Exits h.round ⟨.header, c, q⟩ r := by
  obtain ⟨header, chunk, d, hlen, hstream, hchunk, -, hexits⟩ :=
    exits_of_together (h := h) (q := q) (r := r) hheader
  rw [hexits]
  refine not_exits_body (lt_of_not_ge fun hge => ?_)
  have hsome : logFormat.first c.stream =
      some ((chunk ++ d.stream).take (unpack header), (chunk ++ d.stream).drop (unpack header)) := by
    refine Format.first_eq_some.mpr ⟨header, hlen, ?_, ?_⟩
    · rw [List.length_take, List.length_append]
      exact (Nat.min_eq_left hge).symm
    · rw [List.take_append_drop, hstream]
  exact absurd (hfirst.symm.trans hsome) nofun

/-! ### A stream -/

/-- The header of each complete record comes in one chunk, and that of a record that is cut off does not. -/
def Readable (c : Chunks UInt8) : Prop :=
  (∀ o ∈ logFormat.starts 0 (logFormat.records c.stream), c.Together o 4) ∧
    ¬c.Together (logFormat.finish 0 (logFormat.records c.stream)) 4

instance (c : Chunks UInt8) : Decidable (Readable c) := inferInstanceAs (Decidable (_ ∧ _))

theorem exits_iff (c : Chunks UInt8) (q : List LogMsg) :
    Exits h.round ⟨.header, c, q⟩ (q ++ (logFormat.records c.stream).map h.record) ↔ Readable c := by
  induction hn : c.stream.length using Nat.strongRecOn generalizing c q with
  | _ n ih =>
    subst hn
    cases hfirst : logFormat.first c.stream with
    | none =>
      rw [Readable, Format.records_of_none hfirst, List.map_nil, List.append_nil]
      by_cases hheader : c.Together 0 4
      · exact iff_of_false (not_exits_of_first hheader hfirst) fun hread => hread.2 hheader
      · rw [exits_of_not_together hheader]
        exact iff_of_true rfl ⟨nofun, hheader⟩
    | some p =>
      obtain ⟨body, rest⟩ := p
      have hshort := Format.length_of_first hfirst
      have hpos := logFormat.header_pos
      rw [Readable, Format.records_of_some hfirst, Format.starts, List.forall_mem_cons, List.map_cons]
      by_cases hheader : c.Together 0 4
      · obtain ⟨d, rfl, htogether, hexits⟩ := exits_of_first (h := h) (q := q)
          (r := q ++ h.record body :: (logFormat.records rest).map h.record) hheader hfirst
        have hrest := ih d.stream.length (by omega) d (q ++ [h.record body]) rfl
        rw [List.append_assoc, List.singleton_append] at hrest
        rw [hexits, hrest, Readable, and_iff_right hheader]
        have hoff : 0 + logFormat.header + body.length = 0 + (4 + body.length) := Nat.add_assoc ..
        have hfinish : logFormat.finish 0 (body :: logFormat.records d.stream) =
            logFormat.finish 0 (logFormat.records d.stream) + (4 + body.length) := by
          rw [← Format.finish_add, ← hoff]
          rfl
        rw [hoff, Format.starts_add, List.forall_mem_map, hfinish]
        simp only [htogether]
      · rw [exits_of_not_together hheader]
        refine iff_of_false (fun hq => ?_) fun hread => hheader hread.1.1
        exact absurd (List.append_right_eq_self.mp hq) (List.cons_ne_nil _ _)

/-- **The framing of the log**: the handler ends and has queued exactly the complete records of the stream, each once
and in order, exactly if the header of each comes in one chunk, and that of a record that is cut off does not. -/
theorem handles_iff_readable (h : PlatformLogRequestHandler) (c : Chunks UInt8) :
    h.Handles c ((logFormat.records c.stream).map h.record) ↔ Readable c :=
  exits_iff c []

/-- A handler whose records are texts. -/
def plain : PlatformLogRequestHandler where
  Obj := List UInt8
  LogRecord := List UInt8
  client := ['c']
  loads := id
  makeLogRecord := id
  format := List.map fun b => Char.ofNat b.toNat

/-- A record whose header comes in two chunks is not queued; and at one that is cut off after its header the handler
never ends. -/
theorem not_handles_split :
    ¬plain.Handles ⟨[[0, 0], [0, 1, 65]], by decide⟩ [⟨['c'], ['A']⟩] ∧
      ∀ q, ¬plain.Handles ⟨[[0, 0, 0, 2, 65]], by decide⟩ q := by
  constructor
  · rw [Handles, exits_of_not_together (by decide)]
    decide
  · intro q
    exact not_exits_of_first (by decide) (by decide)

end PlatformLogRequestHandler

end Riaps.Logger
