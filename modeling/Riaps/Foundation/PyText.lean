import Mathlib.Data.List.Basic
import Mathlib.Data.List.Infix
import Mathlib.Data.Int.Notation

/-!
# Text

A `str` is the list of its characters. `append_separator_inj` takes texts apart that a
separator holds together.

How Python writes an `int` and reads one back. `int(text)` takes decimal digits of any
script, single underscores between them, a sign before them and white space around;
what `str(n)` writes is the simplest of such texts, and `readInt_strInt` says that it
is read back.

What a program reads from a text file is `readText` of it: the ends of its lines
are written in one way.

A `float` is not modelled by its bits. A `FloatText` is any type of floats with
`str` and `float` on it, and what is documented of the two: the text reads back
as the number, and what characters it is made of.
-/

namespace Riaps.Foundation

universe u

/-- `str`. -/
abbrev Text := List Char

/-- A literal. -/
@[irreducible] def lit (s : String) : Text := s.toList

instance lawfulBEqText : LawfulBEq Text := inferInstance

/-- What stands before a separator and what stands after it, if it is not in what stands before. -/
theorem append_separator_inj {sep : Char} {x y t u : Text} (hx : sep ∉ x) (hy : sep ∉ y) :
    x ++ sep :: t = y ++ sep :: u ↔ x = y ∧ t = u := by
  constructor
  · intro h
    have hsplit := congrArg (List.splitOn sep) h
    rw [List.splitOn_append_cons_self_of_not_mem hx, List.splitOn_append_cons_self_of_not_mem hy] at hsplit
    obtain ⟨rfl, -⟩ := List.cons.inj hsplit
    exact ⟨rfl, (List.cons.inj (List.append_cancel_left h)).2⟩
  · rintro ⟨rfl, rfl⟩
    rfl

/-! ### Characters -/

/-- The zeros of the decimal digits of all scripts (category `Nd`); the other nine follow each. -/
def decimalZeros : List ℕ :=
  [0x30, 0x660, 0x6f0, 0x7c0, 0x966, 0x9e6, 0xa66, 0xae6, 0xb66, 0xbe6, 0xc66, 0xce6, 0xd66, 0xde6, 0xe50, 0xed0,
    0xf20, 0x1040, 0x1090, 0x17e0, 0x1810, 0x1946, 0x19d0, 0x1a80, 0x1a90, 0x1b50, 0x1bb0, 0x1c40, 0x1c50, 0xa620,
    0xa8d0, 0xa900, 0xa9d0, 0xa9f0, 0xaa50, 0xabf0, 0xff10, 0x104a0, 0x10d30, 0x11066, 0x110f0, 0x11136, 0x111d0,
    0x112f0, 0x11450, 0x114d0, 0x11650, 0x116c0, 0x11730, 0x118e0, 0x11950, 0x11c50, 0x11d50, 0x11da0, 0x16a60,
    0x16ac0, 0x16b50, 0x1d7ce, 0x1d7d8, 0x1d7e2, 0x1d7ec, 0x1d7f6, 0x1e140, 0x1e2f0, 0x1e950, 0x1fbf0]

/-- The value of a decimal digit. -/
def decimal (c : Char) : Option ℕ :=
  decimalZeros.findSome? fun z => if z ≤ c.toNat ∧ c.toNat < z + 10 then some (c.toNat - z) else none

/-- The white space that `str.strip` takes off. -/
def spaces : List ℕ :=
  [0x9, 0xa, 0xb, 0xc, 0xd, 0x1c, 0x1d, 0x1e, 0x1f, 0x20, 0x85, 0xa0, 0x1680, 0x2000, 0x2001, 0x2002, 0x2003, 0x2004,
    0x2005, 0x2006, 0x2007, 0x2008, 0x2009, 0x200a, 0x2028, 0x2029, 0x202f, 0x205f, 0x3000]

/-- `c.isspace()`. -/
def isSpace (c : Char) : Bool := c.toNat ∈ spaces

/-- `\w`. Beyond ASCII every character is let in. -/
def isWord (c : Char) : Bool := c.isAlphanum || c = '_' || 128 ≤ c.toNat

/-- A match of `\d+$`, which allows for a newline at the end. -/
def digitsRE (t : Text) : Bool :=
  let t := if t.getLast? = some '\n' then t.dropLast else t
  t ≠ [] ∧ t.all fun c => (decimal c).isSome

theorem decimal_of_isDigit {c : Char} (h : c.isDigit) : decimal c = some (c.toNat - 48) := by
  have hc : 48 ≤ c.toNat ∧ c.toNat < 48 + 10 := by
    simp only [Char.isDigit, Bool.and_eq_true, decide_eq_true_eq] at h
    have h₁ : 48 ≤ c.toNat := h.1
    have h₂ : c.toNat ≤ 57 := h.2
    omega
  rw [decimal, decimalZeros, List.findSome?_cons, if_pos hc]

theorem not_isSpace_of_isDigit {c : Char} (h : c.isDigit) : isSpace c = false := by
  have hc : 48 ≤ c.toNat ∧ c.toNat ≤ 57 := by
    simp only [Char.isDigit, Bool.and_eq_true, decide_eq_true_eq] at h
    exact h
  simp only [isSpace, spaces, List.mem_cons, List.not_mem_nil, or_false, decide_eq_false_iff_not]
  omega

/-! ### `str(n)` and `int(text)` -/

/-- `str(n)`. -/
def strInt : ℤ → Text
  | .ofNat n => Nat.toDigits 10 n
  | .negSucc n => '-' :: Nat.toDigits 10 (n + 1)

/-- `text.strip()`. -/
def strip (t : Text) : Text := ((t.dropWhile isSpace).reverse.dropWhile isSpace).reverse

/-- The number that digits stand for, `acc` being that of the digits read before, the last
character a digit or not. An underscore may stand between two digits. -/
def readDigits : ℕ → Bool → Text → Option ℕ
  | acc, last, [] => if last then some acc else none
  | acc, last, c :: t =>
    match decimal c with
    | some d => readDigits (10 * acc + d) true t
    | none => if c = '_' ∧ last then readDigits acc false t else none

/-- `int(text)`: `none` when it raises a `ValueError`. -/
def readInt (t : Text) : Option ℤ :=
  match strip t with
  | '-' :: t => (readDigits 0 false t).map fun n => -(n : ℤ)
  | '+' :: t => (readDigits 0 false t).map Int.ofNat
  | t => (readDigits 0 false t).map Int.ofNat

theorem readDigits_of_isDigit {t : Text} (h : ∀ c ∈ t, c.isDigit) (acc : ℕ) :
    readDigits acc true t = some (Nat.ofDigitChars 10 t acc) := by
  induction t generalizing acc with
  | nil => rfl
  | cons c t ih =>
    obtain ⟨hc, ht⟩ := List.forall_mem_cons.mp h
    rw [readDigits, decimal_of_isDigit hc]
    exact ih ht _

/-- The digits of a number are read back. -/
theorem readDigits_toDigits (n : ℕ) : readDigits 0 false (Nat.toDigits 10 n) = some n := by
  have hdigit : ∀ c ∈ Nat.toDigits 10 n, c.isDigit :=
    fun c hc => Nat.isDigit_of_mem_toDigits (by decide) (by decide) hc
  have hread : ∀ t : Text, t ≠ [] → (∀ c ∈ t, c.isDigit) → readDigits 0 false t = readDigits 0 true t := by
    intro t hne ht
    cases t with
    | nil => exact absurd rfl hne
    | cons c t =>
      rw [readDigits, readDigits, decimal_of_isDigit (ht c (by simp))]
  rw [hread _ Nat.toDigits_ne_nil hdigit, readDigits_of_isDigit hdigit,
    Nat.ofDigitChars_toDigits (by decide) (by decide)]

theorem strip_of_not_isSpace {t : Text} (h : ∀ c ∈ t, isSpace c = false) : strip t = t := by
  have hdrop : ∀ t : Text, (∀ c ∈ t, isSpace c = false) → t.dropWhile isSpace = t := by
    intro t ht
    cases t with
    | nil => rfl
    | cons c t => rw [List.dropWhile_cons_of_neg (by simp [ht c (by simp)])]
  rw [strip, hdrop t h, hdrop _ (fun c hc => h c (List.mem_reverse.mp hc)), List.reverse_reverse]

/-- The characters of `str(n)`. -/
theorem mem_strInt {n : ℤ} {c : Char} (h : c ∈ strInt n) : c.isDigit ∨ c = '-' := by
  cases n with
  | ofNat n => exact Or.inl (Nat.isDigit_of_mem_toDigits (by decide) (by decide) h)
  | negSucc n =>
    rcases List.mem_cons.mp h with rfl | h
    · exact Or.inr rfl
    · exact Or.inl (Nat.isDigit_of_mem_toDigits (by decide) (by decide) h)

/-- A number has no colon. -/
theorem colon_notMem_strInt (n : ℤ) : ':' ∉ strInt n := by
  intro h
  rcases mem_strInt h with h | h
  · exact absurd h (by decide)
  · exact absurd h (by decide)

theorem strip_strInt (n : ℤ) : strip (strInt n) = strInt n := by
  refine strip_of_not_isSpace fun c hc => ?_
  rcases mem_strInt hc with hc | rfl
  · exact not_isSpace_of_isDigit hc
  · decide

/-- **What `str` writes, `int` reads.** -/
theorem readInt_strInt (n : ℤ) : readInt (strInt n) = some n := by
  rw [readInt, strip_strInt]
  cases n with
  | negSucc n =>
    simp only [strInt, readDigits_toDigits]
    rfl
  | ofNat n =>
    simp only [strInt]
    split
    · rename_i t ht
      have hc : '-' ∈ Nat.toDigits 10 n := by simp [ht]
      exact absurd (Nat.isDigit_of_mem_toDigits (by decide) (by decide) hc) (by decide)
    · rename_i t ht
      have hc : '+' ∈ Nat.toDigits 10 n := by simp [ht]
      exact absurd (Nat.isDigit_of_mem_toDigits (by decide) (by decide) hc) (by decide)
    · rw [readDigits_toDigits]
      rfl

/-! ### Text files -/

/-- What `read` makes of the characters of a text file: every end of a line is a `'\n'`. -/
def readText : Text → Text
  | [] => []
  | '\r' :: '\n' :: s => '\n' :: readText s
  | '\r' :: s => '\n' :: readText s
  | c :: s => c :: readText s

theorem readText_cons {c : Char} (h : c ≠ '\r') (s : Text) : readText (c :: s) = c :: readText s := by
  rw [readText]
  · rintro s' rfl
    exact absurd rfl h
  · rintro rfl
    exact absurd rfl h

theorem readText_append {a : Text} (h : '\r' ∉ a) (b : Text) : readText (a ++ b) = a ++ readText b := by
  induction a with
  | nil => rfl
  | cons c a ih =>
    obtain ⟨hc, ha⟩ := not_or.mp (mt List.mem_cons.mpr h)
    rw [List.cons_append, readText_cons (Ne.symm hc), ih ha, List.cons_append]

theorem readText_append_cons (a : Text) {c : Char} (h : c ≠ '\n') (b : Text) :
    readText (a ++ c :: b) = readText a ++ readText (c :: b) := by
  fun_induction readText a with
  | case1 => rfl
  | case2 s ih => exact congrArg ('\n' :: ·) ih
  | case3 s hs ih =>
    rw [List.cons_append, readText, ih]
    · rfl
    · intro s' hs'
      cases s with
      | nil => exact h (List.cons.inj hs').1
      | cons c' s => exact hs s (congrArg (· :: s) (List.cons.inj hs').1)
  | case4 c' s _ h₂ ih => rw [List.cons_append, readText_cons h₂, ih, List.cons_append]

theorem readText_eq_nil {t : Text} : readText t = [] ↔ t = [] := by
  fun_cases readText t <;> simp

theorem readText_eq_self {t : Text} : readText t = t ↔ '\r' ∉ t := by
  constructor
  · intro h
    fun_induction readText t with
    | case1 => exact List.not_mem_nil
    | case2 s | case3 s => exact absurd (List.cons.inj h).1 (by decide)
    | case4 c s _ hc ih => exact List.not_mem_cons_of_ne_of_not_mem (Ne.symm hc) (ih (List.cons.inj h).2)
  · intro h
    have happend := readText_append h []
    rwa [List.append_nil, readText, List.append_nil] at happend

theorem cr_notMem_readText (t : Text) : '\r' ∉ readText t := by
  fun_induction readText t with
  | case1 => exact List.not_mem_nil
  | case2 s ih | case3 s hs ih => exact List.not_mem_cons_of_ne_of_not_mem (by decide) ih
  | case4 c s _ hc ih => exact List.not_mem_cons_of_ne_of_not_mem (Ne.symm hc) ih

/-- What stands on one line at the start of it stands there in the file. -/
theorem prefix_of_prefix_readText {m t : Text} (hm : '\n' ∉ m) (h : m <+: readText t) : m <+: t := by
  cases m with
  | nil => exact List.nil_prefix
  | cons d m =>
    obtain ⟨hd, hm⟩ := not_or.mp (mt List.mem_cons.mpr hm)
    fun_induction readText t generalizing d m with
    | case1 => exact h
    | case2 s | case3 s => exact absurd (List.cons_prefix_cons.mp h).1.symm hd
    | case4 c s _ _ ih =>
      obtain ⟨rfl, hrest⟩ := List.cons_prefix_cons.mp h
      cases m with
      | nil => exact ⟨s, rfl⟩
      | cons d' m =>
        obtain ⟨hd', hm'⟩ := not_or.mp (mt List.mem_cons.mpr hm)
        exact List.cons_prefix_cons.mpr ⟨rfl, ih d' m hm hrest hd' hm'⟩

/-- What stands on one line in it stands in the file. -/
theorem infix_of_infix_readText {m t : Text} (hm : '\n' ∉ m) (h : m <:+: readText t) : m <:+: t := by
  fun_induction readText t with
  | case1 => exact h
  | case2 s ih =>
    obtain hprefix | hin := List.infix_cons_iff.mp h
    · exact (prefix_of_prefix_readText (t := '\r' :: '\n' :: s) hm hprefix).isInfix
    · exact (ih hin).trans (List.suffix_append ['\r', '\n'] s).isInfix
  | case3 s hs ih =>
    obtain hprefix | hin := List.infix_cons_iff.mp h
    · refine (prefix_of_prefix_readText (t := '\r' :: s) hm ?_).isInfix
      rwa [readText]
      exact hs
    · exact (ih hin).trans (List.suffix_cons '\r' s).isInfix
  | case4 c s _ hc ih =>
    obtain hprefix | hin := List.infix_cons_iff.mp h
    · exact (prefix_of_prefix_readText hm (readText_cons hc s ▸ hprefix)).isInfix
    · exact (ih hin).trans (List.suffix_cons c s).isInfix

/-! ### Floats -/

/-- Floats, with `str` and `float` on them. -/
structure FloatText (F : Type u) where
  /-- `str(x)`. -/
  str : F → Text
  /-- `float(text)`: `none` when it raises a `ValueError`. -/
  read : Text → Option F
  /-- The text reads back as the number. -/
  read_str : ∀ x, read (str x) = some x
  /-- It has a point or an exponent, or is `inf` or `nan`. -/
  not_int : ∀ x, ∃ c ∈ str x, c ∈ ['.', 'e', 'n']
  /-- It has no capital letter. -/
  not_capital : ∀ x, ∀ c ∈ str x, c ≠ 'T' ∧ c ≠ 'F'

end Riaps.Foundation
