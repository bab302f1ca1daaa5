import Mathlib.Data.List.Basic
import Mathlib.Order.Nat
import Mathlib.Tactic.Common

/-!
# Records in a stream

A `Format` is how records lie in a stream: each is a header of a fixed length, which
tells the length of the body, and the body. `records` are the bodies of the complete
records of a stream, in order, and `remainder` what is left of it, a record that is cut
off or nothing.

A stream arrives in `Chunks`. A `recv` of so many elements has at most these, and none
past the end of a chunk; so where the chunks end matters to a reader that takes what
one `recv` has for all that it has asked for. `Together` says that so many elements from
an offset on are of one chunk.
-/

namespace Riaps.Foundation

universe u

variable {β : Type u}

/-- Of two ways to take a list apart, what the longer first part has more. -/
theorem exists_eq_append {s t u v : List β} (h : s ++ t = u ++ v) (hle : s.length ≤ u.length) :
    ∃ m, u = s ++ m ∧ t = m ++ v := by
  obtain ⟨m, rfl⟩ := List.prefix_of_prefix_length_le (List.prefix_append s t) (h ▸ List.prefix_append u v) hle
  rw [List.append_assoc] at h
  exact ⟨m, rfl, List.append_cancel_left h⟩

/-! ### Records -/

/-- How records lie in a stream. -/
structure Format (β : Type u) where
  /-- The length of a header. -/
  header : ℕ
  header_pos : 0 < header
  /-- The length of the body that a header tells. -/
  size : List β → ℕ

namespace Format

variable (f : Format β)

/-- The first record of a stream, its body and what comes after it, unless it is cut off. -/
def first (s : List β) : Option (List β × List β) :=
  let rest := s.drop f.header
  let n := f.size (s.take f.header)
  if f.header ≤ s.length ∧ n ≤ rest.length then some (rest.take n, rest.drop n) else none

variable {f}

theorem first_eq_some {s body rest : List β} :
    f.first s = some (body, rest) ↔
      ∃ h, h.length = f.header ∧ f.size h = body.length ∧ s = h ++ (body ++ rest) := by
  simp only [first]
  constructor
  · intro hfirst
    split_ifs at hfirst with hlen
    obtain ⟨rfl, rfl⟩ := Prod.mk.inj (Option.some.inj hfirst)
    refine ⟨s.take f.header, by simp [hlen.1], by simp only [List.length_take]; omega, ?_⟩
    rw [List.take_append_drop, List.take_append_drop]
  · rintro ⟨h, hlen, hsize, rfl⟩
    rw [← hlen, List.drop_left, List.take_left, hsize, List.drop_left, List.take_left, if_pos]
    simp

theorem length_of_first {s body rest : List β} (h : f.first s = some (body, rest)) :
    s.length = f.header + body.length + rest.length := by
  obtain ⟨h, hlen, -, rfl⟩ := first_eq_some.mp h
  rw [List.length_append, List.length_append, hlen, Nat.add_assoc]

variable (f)

/-- The bodies of the complete records, and what is left. -/
def split (s : List β) : List (List β) × List β :=
  match h : f.first s with
  | none => ([], s)
  | some (body, rest) =>
    have := length_of_first h
    have := f.header_pos
    (body :: (split rest).1, (split rest).2)
termination_by s.length

/-- The bodies of the complete records. -/
def records (s : List β) : List (List β) := (f.split s).1

/-- What is left after the complete records. -/
def remainder (s : List β) : List β := (f.split s).2

variable {f}

theorem split_of_none {s : List β} (h : f.first s = none) : f.split s = ([], s) := by
  rw [split]
  split
  · rfl
  · next hsome => exact absurd (h.symm.trans hsome) nofun

theorem split_of_some {s body rest : List β} (h : f.first s = some (body, rest)) :
    f.split s = (body :: f.records rest, f.remainder rest) := by
  rw [split]
  split
  · next hnone => exact absurd (h.symm.trans hnone) nofun
  · next hsome =>
    obtain ⟨rfl, rfl⟩ := Prod.mk.inj (Option.some.inj (h.symm.trans hsome))
    rfl

theorem records_of_none {s : List β} (h : f.first s = none) : f.records s = [] := by
  rw [records, split_of_none h]

theorem records_of_some {s body rest : List β} (h : f.first s = some (body, rest)) :
    f.records s = body :: f.records rest := by
  rw [records, split_of_some h]

/-- Records that are put one after another are told apart again. -/
theorem split_flatMap {pack : List β → List β} {bodies : List (List β)} {cut : List β}
    (hpack : ∀ body ∈ bodies, (pack body).length = f.header ∧ f.size (pack body) = body.length)
    (hcut : f.first cut = none) : f.split ((bodies.flatMap fun body => pack body ++ body) ++ cut) = (bodies, cut) := by
  induction bodies with
  | nil => exact split_of_none hcut
  | cons body bodies ih =>
    obtain ⟨⟨hlen, hsize⟩, hrest⟩ := List.forall_mem_cons.mp hpack
    have hfirst : f.first (((body :: bodies).flatMap fun body => pack body ++ body) ++ cut) =
        some (body, (bodies.flatMap fun body => pack body ++ body) ++ cut) :=
      first_eq_some.mpr ⟨pack body, hlen, hsize, by simp only [List.flatMap_cons, List.append_assoc]⟩
    rw [split_of_some hfirst, records, remainder, ih hrest]

variable (f)

/-- Where the headers of records begin that lie one after another from an offset on. -/
def starts : ℕ → List (List β) → List ℕ
  | _, [] => []
  | o, body :: bodies => o :: starts (o + f.header + body.length) bodies

/-- Where they end. -/
def finish (o : ℕ) (bodies : List (List β)) : ℕ :=
  bodies.foldl (fun o body => o + f.header + body.length) o

theorem starts_add (o k : ℕ) (bodies : List (List β)) :
    f.starts (o + k) bodies = (f.starts o bodies).map (· + k) := by
  induction bodies generalizing o with
  | nil => rfl
  | cons body bodies ih =>
    have hoff : o + k + f.header + body.length = o + f.header + body.length + k := by omega
    rw [starts, starts, List.map_cons, hoff, ih]

theorem finish_add (o k : ℕ) (bodies : List (List β)) : f.finish (o + k) bodies = f.finish o bodies + k := by
  induction bodies generalizing o with
  | nil => rfl
  | cons body bodies ih =>
    have hoff : o + k + f.header + body.length = o + f.header + body.length + k := by omega
    rw [finish, List.foldl_cons, hoff]
    exact ih _

end Format

/-! ### Chunks -/

/-- What is still to arrive, in chunks. -/
structure Chunks (β : Type u) where
  chunks : List (List β)
  ne_nil : ∀ c ∈ chunks, c ≠ []

namespace Chunks

/-- All that is still to arrive. -/
def stream (c : Chunks β) : List β := c.chunks.flatten

/-- What `recv` has, for so many elements, and what is left. Past the end there is nothing. -/
def recv (n : ℕ) (c : Chunks β) : List β × Chunks β :=
  match h : c.chunks with
  | [] => ([], c)
  | chunk :: chunks =>
    if hn : chunk.length ≤ n then (chunk, ⟨chunks, fun d hd => c.ne_nil d (h ▸ List.mem_cons_of_mem _ hd)⟩)
    else
      (chunk.take n,
        ⟨chunk.drop n :: chunks, fun d hd => by
          rcases List.mem_cons.mp hd with rfl | hd
          · exact fun he => hn (List.drop_eq_nil_iff.mp he)
          · exact c.ne_nil d (h ▸ List.mem_cons_of_mem _ hd)⟩)

/-- So many elements from an offset on are of one chunk. -/
def Within : List (List β) → ℕ → ℕ → Prop
  | [], _, _ => False
  | chunk :: chunks, o, n => if o < chunk.length then o + n ≤ chunk.length else Within chunks (o - chunk.length) n

instance decidableWithin : ∀ (chunks : List (List β)) (o n : ℕ), Decidable (Within chunks o n)
  | [], _, _ => isFalse id
  | chunk :: chunks, o, n =>
    have := decidableWithin chunks (o - chunk.length) n
    inferInstanceAs (Decidable (if o < chunk.length then o + n ≤ chunk.length else _))

/-- So many elements from an offset on arrive in one chunk. -/
def Together (c : Chunks β) (o n : ℕ) : Prop := Within c.chunks o n

instance (c : Chunks β) (o n : ℕ) : Decidable (c.Together o n) := decidableWithin c.chunks o n

variable {c : Chunks β} {n : ℕ}

/-- What a `recv` has, for each of its branches. -/
theorem recv_cases (n : ℕ) (c : Chunks β) :
    (c.chunks = [] ∧ c.recv n = ([], c)) ∨
      (∃ chunk chunks, c.chunks = chunk :: chunks ∧ chunk.length ≤ n ∧
        (c.recv n).1 = chunk ∧ (c.recv n).2.chunks = chunks) ∨
      ∃ chunk chunks, c.chunks = chunk :: chunks ∧ n < chunk.length ∧
        (c.recv n).1 = chunk.take n ∧ (c.recv n).2.chunks = chunk.drop n :: chunks := by
  rw [recv]
  split
  · next hnil => exact .inl ⟨hnil, rfl⟩
  · next chunk chunks hcons =>
    split_ifs with hn
    · exact .inr (.inl ⟨chunk, chunks, hcons, hn, rfl, rfl⟩)
    · exact .inr (.inr ⟨chunk, chunks, hcons, not_le.mp hn, rfl, rfl⟩)

/-- Nothing is lost, -/
theorem recv_append (n : ℕ) (c : Chunks β) : (c.recv n).1 ++ (c.recv n).2.stream = c.stream := by
  rcases recv_cases n c with ⟨-, h⟩ | ⟨chunk, chunks, hc, -, h₁, h₂⟩ | ⟨chunk, chunks, hc, -, h₁, h₂⟩
  · rw [h, List.nil_append]
  · rw [stream, stream, h₁, h₂, hc, List.flatten_cons]
  · rw [stream, stream, h₁, h₂, hc, List.flatten_cons, List.flatten_cons, ← List.append_assoc, List.take_append_drop]

/-- no more is received than was asked for, -/
theorem length_recv_le (n : ℕ) (c : Chunks β) : (c.recv n).1.length ≤ n := by
  rcases recv_cases n c with ⟨-, h⟩ | ⟨chunk, chunks, -, hn, h₁, -⟩ | ⟨chunk, chunks, -, -, h₁, -⟩
  · simp [h]
  · rw [h₁]
    exact hn
  · rw [h₁]
    exact List.length_take_le n chunk

/-- and something, unless nothing is left. -/
theorem recv_eq_nil (hn : 0 < n) : (c.recv n).1 = [] ↔ c.stream = [] := by
  rcases recv_cases n c with ⟨hc, h⟩ | ⟨chunk, chunks, hc, -, h₁, -⟩ | ⟨chunk, chunks, hc, hlen, h₁, -⟩
  · rw [h, stream, hc]
    exact iff_of_true rfl rfl
  · have hne := c.ne_nil chunk (hc ▸ List.mem_cons_self)
    rw [h₁, stream, hc]
    exact iff_of_false hne fun h => hne (List.append_eq_nil_iff.mp h).1
  · have hne := c.ne_nil chunk (hc ▸ List.mem_cons_self)
    rw [h₁, stream, hc]
    refine iff_of_false (fun h => ?_) fun h => hne (List.append_eq_nil_iff.mp h).1
    rcases List.take_eq_nil_iff.mp h with h | h
    exacts [hn.ne' h, hne h]

/-- All that was asked for is received in one piece if it is of one chunk. -/
theorem length_recv_eq (hn : 0 < n) : (c.recv n).1.length = n ↔ c.Together 0 n := by
  rcases recv_cases n c with ⟨hc, h⟩ | ⟨chunk, chunks, hc, hlen, h₁, -⟩ | ⟨chunk, chunks, hc, hlen, h₁, -⟩
  · rw [h, Together, hc]
    exact iff_of_false hn.ne id
  · have hpos := List.length_pos_iff.mpr (c.ne_nil chunk (hc ▸ List.mem_cons_self))
    rw [h₁, Together, hc, Within, if_pos hpos]
    omega
  · rw [h₁, Together, hc, Within, if_pos (by omega), List.length_take]
    omega

/-- The chunks of what comes later are as they were. -/
theorem together_recv (n o m : ℕ) (c : Chunks β) :
    (c.recv n).2.Together o m ↔ c.Together (o + (c.recv n).1.length) m := by
  rcases recv_cases n c with ⟨-, h⟩ | ⟨chunk, chunks, hc, -, h₁, h₂⟩ | ⟨chunk, chunks, hc, hlen, h₁, h₂⟩
  · rw [h]
    exact Iff.rfl
  · rw [Together, Together, h₁, h₂, hc, Within, if_neg (by omega), Nat.add_sub_cancel]
  · have hleft : (chunk.drop n).length = chunk.length - n := List.length_drop
    rw [Together, Together, h₁, h₂, hc, Within, Within, List.length_take, Nat.min_eq_left hlen.le, hleft]
    by_cases ho : o + n < chunk.length
    · rw [if_pos (by omega), if_pos ho]
      omega
    · rw [if_neg (by omega), if_neg ho]
      have hoff : o - (chunk.length - n) = o + n - chunk.length := by omega
      rw [hoff]

end Chunks

end Riaps.Foundation
