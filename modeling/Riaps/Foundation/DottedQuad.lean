import Mathlib.Algebra.Order.Ring.Nat
import Mathlib.Tactic.SplitIfs

/-!
# Dotted quads

An address of four bytes as a number, and as text: the bytes in decimal, with dots between them.
Text is accepted when each part is a byte as it would be written, so that of two texts at most one
is accepted for a number, and it is the text that the number has: `text_of_parse`.
-/

namespace Riaps.Foundation.DottedQuad

/-- A byte in decimal, with no zero in front. -/
def parseOctet (cs : List Char) : Option ℕ :=
  if cs ≠ [] ∧ cs.all Char.isDigit ∧ cs.length ≤ 3 ∧ (cs = ['0'] ∨ cs.head? ≠ some '0') ∧
      Nat.ofDigitChars 10 cs 0 ≤ 255 then
    some (Nat.ofDigitChars 10 cs 0)
  else none

/-- The number of an address. -/
def parse (s : String) : Option ℕ :=
  match s.toList.splitOn '.' with
  | [a, b, c, d] => do
    return (← parseOctet a) * 2 ^ 24 + (← parseOctet b) * 2 ^ 16 + (← parseOctet c) * 2 ^ 8 + (← parseOctet d)
  | _ => none

/-- The text of an address. -/
def text (n : ℕ) : String :=
  ".".intercalate ([n / 2 ^ 24, n / 2 ^ 16, n / 2 ^ 8, n].map fun b => toString (b % 256))

/-! ### Decimal digits -/

/-- A digit is the digit of its number. -/
theorem digitChar_sub {c : Char} (h : c.isDigit) : (c.toNat - '0'.toNat).digitChar = c ∧ c.toNat - '0'.toNat < 10 := by
  rw [Char.isDigit_iff_toNat] at h
  have h0 : '0'.toNat = 48 := rfl
  have h9 : '9'.toNat = 57 := rfl
  have hlt : c.toNat - '0'.toNat < 10 := by omega
  refine ⟨Char.toNat_inj.mp ?_, hlt⟩
  rw [Nat.toNat_digitChar_of_lt_ten hlt]
  omega

/-- Digits that follow those of a number are the last ones of a larger number. -/
theorem toDigits_append {cs : List Char} (hcs : ∀ c ∈ cs, c.isDigit) {acc : ℕ} (hacc : 0 < acc) :
    Nat.toDigits 10 (Nat.ofDigitChars 10 cs acc) = Nat.toDigits 10 acc ++ cs := by
  induction cs generalizing acc with
  | nil => rw [Nat.ofDigitChars_nil, List.append_nil]
  | cons c cs ih =>
    obtain ⟨hc, hcs⟩ := List.forall_mem_cons.mp hcs
    obtain ⟨hchar, hlt⟩ := digitChar_sub hc
    have hone : Nat.toDigits 10 (10 * acc + (c.toNat - '0'.toNat)) = Nat.toDigits 10 acc ++ [c] := by
      rw [← Nat.toDigits_append_toDigits (by decide) hacc hlt, Nat.toDigits_of_lt_base hlt, hchar]
    rw [Nat.ofDigitChars_cons, ih hcs (by omega), hone, List.append_assoc, List.singleton_append]

/-- **Digits with no zero in front are those of the number they are read as.** -/
theorem toDigits_ofDigitChars {cs : List Char} (hne : cs ≠ []) (hcs : ∀ c ∈ cs, c.isDigit)
    (hzero : cs = ['0'] ∨ cs.head? ≠ some '0') : Nat.toDigits 10 (Nat.ofDigitChars 10 cs 0) = cs := by
  cases cs with
  | nil => exact absurd rfl hne
  | cons c cs =>
    obtain ⟨hc, hcs⟩ := List.forall_mem_cons.mp hcs
    obtain ⟨hchar, hlt⟩ := digitChar_sub hc
    rw [Nat.ofDigitChars_cons, Nat.mul_zero, Nat.zero_add]
    rcases hzero with h | h
    · obtain ⟨rfl, rfl⟩ := List.cons.inj h
      rfl
    · have hpos : 0 < c.toNat - '0'.toNat := by
        rw [Nat.pos_iff_ne_zero]
        intro h0
        rw [h0] at hchar
        exact h (by rw [← hchar]; rfl)
      rw [toDigits_append hcs hpos, Nat.toDigits_of_lt_base hlt, hchar, List.singleton_append]

/-! ### Addresses -/

/-- A part that is accepted is the byte as it is written. -/
theorem toString_of_parseOctet {cs : List Char} {n : ℕ} (h : parseOctet cs = some n) :
    (toString n).toList = cs ∧ n < 256 := by
  unfold parseOctet at h
  split_ifs at h with hcs
  obtain ⟨hne, hdigits, -, hzero, hle⟩ := hcs
  obtain rfl := Option.some.inj h
  refine ⟨?_, Nat.lt_succ_of_le hle⟩
  rw [Nat.toString_eq_repr, Nat.toList_repr, toDigits_ofDigitChars hne (List.all_eq_true.mp hdigits) hzero]

/-- The parts of text that is accepted. -/
theorem parse_eq_some {s : String} {n : ℕ} (h : parse s = some n) :
    ∃ a b c d, s.toList = ['.'].intercalate ([a, b, c, d].map fun b : ℕ => (toString b).toList) ∧
      (a < 256 ∧ b < 256 ∧ c < 256 ∧ d < 256) ∧ n = a * 2 ^ 24 + b * 2 ^ 16 + c * 2 ^ 8 + d := by
  unfold parse at h
  split at h
  · next ta tb tc td hsplit =>
    simp only [Option.bind_eq_bind, Option.bind_eq_some_iff, Option.pure_def, Option.some.injEq] at h
    obtain ⟨a, ha, b, hb, c, hc, d, hd, rfl⟩ := h
    obtain ⟨hta, ha⟩ := toString_of_parseOctet ha
    obtain ⟨htb, hb⟩ := toString_of_parseOctet hb
    obtain ⟨htc, hc⟩ := toString_of_parseOctet hc
    obtain ⟨htd, hd⟩ := toString_of_parseOctet hd
    refine ⟨a, b, c, d, ?_, ⟨ha, hb, hc, hd⟩, rfl⟩
    have htext : ['.'].intercalate (s.toList.splitOn '.') = s.toList := List.intercalate_splitOn '.'
    rw [← htext, hsplit]
    simp only [List.map_cons, List.map_nil, hta, htb, htc, htd]
  · contradiction

/-- **Text that is accepted is the text of its number.** -/
theorem text_of_parse {s : String} {n : ℕ} (h : parse s = some n) : text n = s := by
  obtain ⟨a, b, c, d, hs, ⟨ha, hb, hc, hd⟩, rfl⟩ := parse_eq_some h
  have h1 : (a * 2 ^ 24 + b * 2 ^ 16 + c * 2 ^ 8 + d) / 2 ^ 24 % 256 = a := by omega
  have h2 : (a * 2 ^ 24 + b * 2 ^ 16 + c * 2 ^ 8 + d) / 2 ^ 16 % 256 = b := by omega
  have h3 : (a * 2 ^ 24 + b * 2 ^ 16 + c * 2 ^ 8 + d) / 2 ^ 8 % 256 = c := by omega
  have h4 : (a * 2 ^ 24 + b * 2 ^ 16 + c * 2 ^ 8 + d) % 256 = d := by omega
  apply String.toList_injective
  rw [hs, text, String.toList_intercalate]
  simp only [List.map_cons, List.map_nil, h1, h2, h3, h4]
  rfl

example : parse "192.168.1.104" = some 0xc0a80168 := by decide +kernel
example : parse "192.168.01.104" = none := by decide +kernel

end Riaps.Foundation.DottedQuad
