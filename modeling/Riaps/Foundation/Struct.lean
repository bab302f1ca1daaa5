import Mathlib.Algebra.Order.Ring.Nat
import Mathlib.Data.List.Induction
import Mathlib.Logic.Encodable.Basic

/-!
# Packed records

What `struct.pack` and `struct.unpack` do with a format in network byte order, of fields of four
bytes for a number and of fixed lengths for bytes. A number that does not fit is refused; bytes that
do not fit are cut off or filled up. A record is unpacked if its length is that of the format.

The records of a format are the values that fit, neither more nor less: `unpack_eq_some`.
-/

namespace Riaps.Foundation

/-! ### Numbers -/

/-- The last `k` digits of a number to the base 256, the highest first. -/
def bigEndian : ℕ → ℕ → List UInt8
  | 0, _ => []
  | k + 1, n => bigEndian k (n / 256) ++ [UInt8.ofNat n]

/-- The number with these digits. -/
def ofBigEndian (b : List UInt8) : ℕ := b.foldl (fun n d => 256 * n + d.toNat) 0

@[simp] theorem length_bigEndian (k n : ℕ) : (bigEndian k n).length = k := by
  induction k generalizing n with
  | zero => rfl
  | succ k ih => rw [bigEndian, List.length_append, ih, List.length_singleton]

theorem ofBigEndian_append (b : List UInt8) (d : UInt8) : ofBigEndian (b ++ [d]) = 256 * ofBigEndian b + d.toNat := by
  rw [ofBigEndian, List.foldl_append]
  rfl

theorem ofBigEndian_lt (b : List UInt8) : ofBigEndian b < 256 ^ b.length := by
  induction b using List.reverseRecOn with
  | nil => decide
  | append_singleton b d ih =>
    have hd : d.toNat < 256 := d.toNat_lt
    rw [ofBigEndian_append, List.length_append, List.length_singleton, pow_succ]
    omega

theorem ofBigEndian_bigEndian {k n : ℕ} (h : n < 256 ^ k) : ofBigEndian (bigEndian k n) = n := by
  induction k generalizing n with
  | zero =>
    rw [pow_zero, Nat.lt_one_iff] at h
    rw [h]
    rfl
  | succ k ih =>
    rw [pow_succ] at h
    have hd : (UInt8.ofNat n).toNat = n % 256 := UInt8.toNat_ofNat'
    rw [bigEndian, ofBigEndian_append, ih (Nat.div_lt_of_lt_mul (by omega)), hd]
    omega

theorem bigEndian_ofBigEndian (b : List UInt8) : bigEndian b.length (ofBigEndian b) = b := by
  induction b using List.reverseRecOn with
  | nil => rfl
  | append_singleton b d ih =>
    have hd : d.toNat < 256 := d.toNat_lt
    have hdiv : (256 * ofBigEndian b + d.toNat) / 256 = ofBigEndian b := by omega
    have hmod : UInt8.ofNat (256 * ofBigEndian b + d.toNat) = d := by
      rw [← UInt8.toNat_inj, UInt8.toNat_ofNat']
      omega
    rw [List.length_append, List.length_singleton, bigEndian, ofBigEndian_append, hdiv, ih, hmod]

namespace Struct

/-! ### Fields -/

/-- `L` and `16s`. -/
inductive Field where
  /-- A number of four bytes. -/
  | ulong
  /-- Bytes. -/
  | bytes (n : ℕ)

namespace Field

/-- How many bytes it takes. -/
def size : Field → ℕ
  | ulong => 4
  | bytes n => n

/-- What it is of. -/
abbrev Value : Field → Type
  | ulong => ℕ
  | bytes _ => List UInt8

/-- The value fits. -/
def Fits : (f : Field) → f.Value → Prop
  | ulong, n => n < 2 ^ 32
  | bytes k, b => b.length = k

/-- The bytes of a value. -/
def pack : (f : Field) → f.Value → Option (List UInt8)
  | ulong, n => if n < 2 ^ 32 then some (bigEndian 4 n) else none
  | bytes k, b => some (b.take k ++ List.replicate (k - b.length) 0)

/-- The value of some bytes, as many as the field takes. -/
def unpack : (f : Field) → List UInt8 → f.Value
  | ulong, b => ofBigEndian b
  | bytes _, b => b

theorem pack_of_fits {f : Field} {v : f.Value} (h : f.Fits v) :
    ∃ b, f.pack v = some b ∧ b.length = f.size ∧ f.unpack b = v := by
  cases f with
  | ulong => exact ⟨bigEndian 4 v, if_pos h, length_bigEndian 4 v, ofBigEndian_bigEndian h⟩
  | bytes k =>
    change v.length = k at h
    refine ⟨v, ?_, h, rfl⟩
    rw [pack, List.take_of_length_le (le_of_eq h), h, Nat.sub_self, List.replicate_zero, List.append_nil]

theorem fits_unpack {f : Field} {b : List UInt8} (h : b.length = f.size) :
    f.Fits (f.unpack b) ∧ f.pack (f.unpack b) = some b := by
  cases f with
  | ulong =>
    change b.length = 4 at h
    have hlt : ofBigEndian b < 2 ^ 32 := by
      have hlt := ofBigEndian_lt b
      rw [h] at hlt
      exact hlt
    refine ⟨hlt, ?_⟩
    rw [unpack, pack, if_pos hlt, ← h, bigEndian_ofBigEndian]
  | bytes k =>
    change b.length = k at h
    refine ⟨h, ?_⟩
    rw [unpack, pack, List.take_of_length_le (le_of_eq h), h, Nat.sub_self, List.replicate_zero, List.append_nil]

end Field

/-! ### Formats -/

/-- The values of the fields of a format. -/
@[reducible] def Values : List Field → Type
  | [] => Unit
  | f :: fs => f.Value × Values fs

/-- `struct.calcsize`. -/
def calcsize (fs : List Field) : ℕ := (fs.map Field.size).sum

/-- All of them fit. -/
def Fits : (fs : List Field) → Values fs → Prop
  | [], _ => True
  | f :: fs, vs => f.Fits vs.1 ∧ Fits fs vs.2

/-- `struct.pack`, unless it raises a `struct.error`. -/
def pack : (fs : List Field) → Values fs → Option (List UInt8)
  | [], _ => some []
  | f :: fs, vs => do return (← f.pack vs.1) ++ (← pack fs vs.2)

/-- The values at the beginning of some bytes. -/
def readValues : (fs : List Field) → List UInt8 → Values fs
  | [], _ => ()
  | f :: fs, b => (f.unpack (b.take f.size), readValues fs (b.drop f.size))

/-- `struct.unpack`, unless it raises a `struct.error`. -/
def unpack (fs : List Field) (b : List UInt8) : Option (Values fs) :=
  if b.length = calcsize fs then some (readValues fs b) else none

theorem calcsize_cons (f : Field) (fs : List Field) : calcsize (f :: fs) = f.size + calcsize fs := by
  rw [calcsize, List.map_cons, List.sum_cons, calcsize]

/-- What fits is packed, and read back. -/
theorem pack_of_fits {fs : List Field} {vs : Values fs} (h : Fits fs vs) :
    ∃ b, pack fs vs = some b ∧ b.length = calcsize fs ∧ readValues fs b = vs := by
  induction fs with
  | nil => exact ⟨[], rfl, rfl, rfl⟩
  | cons f fs ih =>
    obtain ⟨v, vs⟩ := vs
    obtain ⟨b, hb, hlen, hread⟩ := Field.pack_of_fits h.1
    obtain ⟨bs, hbs, hlens, hreads⟩ := ih h.2
    refine ⟨b ++ bs, ?_, ?_, ?_⟩
    · simp only [pack, hb, hbs]
      rfl
    · rw [List.length_append, hlen, hlens, calcsize_cons]
    · rw [readValues, ← hlen, List.take_left, List.drop_left, hread, hreads]

/-- What is read fits, and is packed as it was. -/
theorem fits_readValues {fs : List Field} {b : List UInt8} (h : b.length = calcsize fs) :
    Fits fs (readValues fs b) ∧ pack fs (readValues fs b) = some b := by
  induction fs generalizing b with
  | nil =>
    rw [List.eq_nil_of_length_eq_zero h]
    exact ⟨trivial, rfl⟩
  | cons f fs ih =>
    rw [calcsize_cons] at h
    have hhead : (b.take f.size).length = f.size := by
      rw [List.length_take]
      omega
    obtain ⟨hfits, hpack⟩ := Field.fits_unpack hhead
    obtain ⟨hfits', hpack'⟩ := ih (b := b.drop f.size) (by rw [List.length_drop]; omega)
    refine ⟨⟨hfits, hfits'⟩, ?_⟩
    simp only [readValues, pack, hpack, hpack']
    exact congrArg some (List.take_append_drop f.size b)

/-- **The records of a format** are the values that fit. -/
theorem unpack_eq_some {fs : List Field} {b : List UInt8} {vs : Values fs} :
    unpack fs b = some vs ↔ Fits fs vs ∧ pack fs vs = some b := by
  rw [unpack]
  constructor
  · intro h
    split_ifs at h with hlen
    obtain rfl := Option.some.inj h
    exact fits_readValues hlen
  · rintro ⟨hfits, hpack⟩
    obtain ⟨b', hb', hlen, hread⟩ := pack_of_fits hfits
    obtain rfl := Option.some.inj (hpack.symm.trans hb')
    rw [if_pos hlen, hread]

end Struct

/-! ### Numbers for bytes and characters -/

instance encodableUInt8 : Encodable UInt8 := Encodable.ofLeftInverse UInt8.toNat UInt8.ofNat fun _ => UInt8.ofNat_toNat
instance encodableChar : Encodable Char := Encodable.ofLeftInverse Char.toNat Char.ofNat Char.ofNat_toNat

end Riaps.Foundation
