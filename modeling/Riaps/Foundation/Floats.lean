import Mathlib.Algebra.Order.Field.Rat
import Mathlib.Algebra.Order.Ring.Abs
import Mathlib.Tactic.Linarith
import Mathlib.Tactic.Positivity
import Mathlib.Tactic.Ring

/-!
# Floats

A binary format has so many digits, and exponents within two bounds; its numbers are
rational numbers. To multiply one by a power of two is exact unless the product is too
large (`has_scale`). A `Double` is a number of the format of 53 digits, or an infinity;
there is no `nan`, since none is read from a literal. A product that is too large is an
infinity, for which `int` raises an exception.

A `Number` is what Python reads from a literal, an `int` or a double.
-/

namespace Riaps.Foundation

/-- The whole number that is nearest on the side of zero. -/
def trunc (q : ℚ) : ℤ := q.num.tdiv q.den

@[simp] theorem trunc_intCast (z : ℤ) : trunc z = z := by simp [trunc]

/-! ### Formats -/

/-- A binary format. -/
structure BinaryFormat where
  digits : ℕ
  low : ℤ
  high : ℤ

namespace BinaryFormat

variable (f : BinaryFormat)

/-- The numbers of the format. -/
def Has (q : ℚ) : Prop := ∃ m e : ℤ, |m| < 2 ^ f.digits ∧ f.low ≤ e ∧ e ≤ f.high ∧ q = m * 2 ^ e

/-- The least that is too large. -/
def overflow : ℚ := 2 ^ f.digits * 2 ^ f.high

variable {f}

/-- A power of two changes the exponent, and the digits when the exponent is at its bound. -/
theorem has_scale {q : ℚ} (h : f.Has q) {k : ℕ} (hk : |q * 2 ^ k| < f.overflow) : f.Has (q * 2 ^ k) := by
  obtain ⟨m, e, hm, hlow, hhigh, rfl⟩ := h
  have htwo : (2 : ℚ) ≠ 0 := two_ne_zero
  by_cases he : e + k ≤ f.high
  · refine ⟨m, e + k, hm, by omega, he, ?_⟩
    rw [zpow_add₀ htwo, zpow_natCast, mul_assoc]
  · obtain ⟨j, hj⟩ := Int.eq_ofNat_of_zero_le (show 0 ≤ e + k - f.high by omega)
    have hexp : e + k = f.high + j := by omega
    have hshift : (m : ℚ) * 2 ^ e * 2 ^ k = (m * 2 ^ j : ℤ) * 2 ^ f.high := by
      rw [mul_assoc, ← zpow_natCast (2 : ℚ) k, ← zpow_add₀ htwo, hexp, add_comm, zpow_add₀ htwo, ← mul_assoc]
      push_cast
      rw [zpow_natCast]
    refine ⟨m * 2 ^ j, f.high, ?_, by omega, le_rfl, hshift⟩
    have hpos : (0 : ℚ) < 2 ^ f.high := zpow_pos two_pos _
    rw [hshift, abs_mul, abs_of_pos hpos, overflow] at hk
    have hlt := lt_of_mul_lt_mul_right hk hpos.le
    exact_mod_cast hlt

end BinaryFormat

/-! ### Doubles -/

/-- The format of a Python `float`. -/
def binary64 : BinaryFormat := ⟨53, -1074, 971⟩

/-- A double. -/
inductive Double where
  | finite (q : ℚ) (h : binary64.Has q)
  | inf (negative : Bool)

namespace Double

/-- `x * 2 ** k`. -/
def scale (k : ℕ) : Double → Double
  | .finite q h =>
    if hk : |q * 2 ^ k| < binary64.overflow then .finite (q * 2 ^ k) (BinaryFormat.has_scale h hk) else .inf (q < 0)
  | .inf negative => .inf negative

/-- `int(x)`, which raises an `OverflowError` for an infinity. -/
def int : Double → Option ℤ
  | .finite q _ => some (trunc q)
  | .inf _ => none

/-- The number, if it is finite. -/
def value : Double → Option ℚ
  | .finite q _ => some q
  | .inf _ => none

theorem scale_scale (j k : ℕ) (x : Double) : (x.scale j).scale k = x.scale (j + k) := by
  cases x with
  | inf negative => rfl
  | finite q h =>
    have hmul : q * 2 ^ j * 2 ^ k = q * 2 ^ (j + k) := by rw [mul_assoc, pow_add]
    have hj : (0 : ℚ) < 2 ^ j := by positivity
    have hk : (1 : ℚ) ≤ 2 ^ k := one_le_pow₀ one_le_two
    by_cases hlt : |q * 2 ^ j| < binary64.overflow
    · have hneg : q * 2 ^ j < 0 ↔ q < 0 := ⟨fun h => by_contra fun hq => h.not_ge (mul_nonneg (not_lt.mp hq) hj.le),
        fun h => mul_neg_of_neg_of_pos h hj⟩
      simp only [scale, dif_pos hlt, hmul, hneg]
    · have hle : |q * 2 ^ j| ≤ |q * 2 ^ (j + k)| := by
        rw [← hmul, abs_mul _ ((2 : ℚ) ^ k), abs_of_pos (zero_lt_one.trans_le hk)]
        exact le_mul_of_one_le_right (abs_nonneg _) hk
      rw [scale, dif_neg hlt, scale, scale, dif_neg fun h => hlt (hle.trans_lt h)]

theorem int_scale (k : ℕ) (x : Double) (z : ℤ) :
    (x.scale k).int = some z ↔
      ∃ q, x.value = some q ∧ |q * 2 ^ k| < binary64.overflow ∧ trunc (q * 2 ^ k) = z := by
  cases x with
  | inf negative => exact iff_of_false nofun fun ⟨_, hq, _⟩ => nomatch hq
  | finite q h =>
    rw [scale]
    split_ifs with hk
    · constructor
      · intro hz
        exact ⟨q, rfl, hk, Option.some.inj hz⟩
      · rintro ⟨_, ⟨⟩, -, rfl⟩
        rfl
    · refine iff_of_false nofun ?_
      rintro ⟨_, ⟨⟩, hlt, -⟩
      exact hk hlt

end Double

/-- A number that is read from a literal. -/
inductive Number where
  | int (z : ℤ)
  | float (x : Double)

namespace Number

/-- `x * 2 ** k`. -/
def scale (k : ℕ) : Number → Number
  | .int z => .int (z * 2 ^ k)
  | .float x => .float (x.scale k)

/-- `int(x)`. -/
def toInt : Number → Option ℤ
  | .int z => some z
  | .float x => x.int

/-- The number, if it is finite. -/
def value : Number → Option ℚ
  | .int z => some z
  | .float x => x.value

/-- The number is not too large for a double, if it is one. -/
def Fits (k : ℕ) : Number → Prop
  | .int _ => True
  | .float x => ∃ q, x.value = some q ∧ |q * 2 ^ k| < binary64.overflow

theorem scale_scale (j k : ℕ) (x : Number) : (x.scale j).scale k = x.scale (j + k) := by
  cases x with
  | int z => simp only [scale, mul_assoc, pow_add]
  | float x => simp only [scale, Double.scale_scale]

/-- What is read of a number that is multiplied by a power of two: its whole part, exactly, unless it is too large. -/
theorem toInt_scale (k : ℕ) (x : Number) (z : ℤ) :
    (x.scale k).toInt = some z ↔ x.Fits k ∧ ∃ q, x.value = some q ∧ trunc (q * 2 ^ k) = z := by
  cases x with
  | int n =>
    have htrunc : trunc ((n : ℚ) * 2 ^ k) = n * 2 ^ k := by
      have hcast : (n : ℚ) * 2 ^ k = ((n * 2 ^ k : ℤ) : ℚ) := by push_cast; rfl
      rw [hcast, trunc_intCast]
    simp [scale, toInt, Fits, value, htrunc]
  | float x =>
    rw [scale, toInt, Double.int_scale, Fits, value]
    constructor
    · rintro ⟨q, hq, hlt, rfl⟩
      exact ⟨⟨q, hq, hlt⟩, q, hq, rfl⟩
    · rintro ⟨⟨q, hq, hlt⟩, q', hq', rfl⟩
      obtain rfl := Option.some.inj (hq.symm.trans hq')
      exact ⟨q, hq, hlt, rfl⟩

end Number

end Riaps.Foundation
