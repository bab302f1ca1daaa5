import Mathlib.Data.List.TakeWhile
import Riaps.Foundation.PyText

/-!
# Command lines

`argparse` takes a command line apart: so many positional arguments, and the options of the parser, which may stand
anywhere. An option is recognized by less than its name: a long one by its beginning, and a short one by the first two
characters of an argument, whose rest is its value.

What is neither, `parse_known_args` leaves over for the program to read. An argument after the positional ones is left
over exactly if the parser `Keeps` it, or stands behind a `--` (`parseKnownArgs_eq_iff`); and it keeps an argument
exactly if no option `Takes` it (`keeps_iff`).
-/

namespace Riaps.Foundation.ArgParse

/-! ### Options -/

/-- What an option does. -/
inductive Action where
  /-- `help`: the program ends. -/
  | help
  /-- `store`, which takes a value. -/
  | store
  deriving DecidableEq

/-- The options of a parser, by their names. -/
abbrev Options := List (Text × Action)

/-- What an argument is taken for. -/
inductive Kind where
  | positional
  /-- An option, and what stands in the argument as its value. -/
  | option (action : Action) (explicitArg : Option Text)
  /-- An option that the parser does not know. -/
  | unknown
  deriving DecidableEq

/-- What stands before the first `=`. -/
def optionPrefix (arg : Text) : Text := arg.takeWhile (· ≠ '=')

/-- What stands after the first `=`, if there is one. -/
def explicitArg (arg : Text) : Option Text :=
  if '=' ∈ arg then some ((arg.dropWhile (· ≠ '=')).drop 1) else none

/-- `_get_option_tuples`. -/
def getOptionTuples (opts : Options) (arg : Text) : List (Action × Option Text) :=
  if ['-', '-'] <+: arg then
    opts.filterMap fun o => if optionPrefix arg <+: o.1 then some (o.2, explicitArg arg) else none
  else
    opts.filterMap fun o =>
      if o.1 = arg.take 2 then some (o.2, some (arg.drop 2))
      else if arg <+: o.1 then some (o.2, none)
      else none

/-- A match of `^-\d+$|^-\d*\.\d+$`. -/
def negativeNumber : Text → Bool
  | '-' :: t =>
    digitsRE t ||
      match t.dropWhile fun c => (decimal c).isSome with
      | '.' :: t => digitsRE t
      | _ => false
  | _ => false

/-- `_parse_optional`: `none` if the argument could be several options, which ends the program. -/
def parseOptional (opts : Options) (arg : Text) : Option Kind :=
  if arg.head? ≠ some '-' then some .positional
  else
    match opts.find? fun o => o.1 = arg with
    | some o => some (.option o.2 none)
    | none =>
      if arg.length = 1 then some .positional
      else
        match if '=' ∈ arg then opts.find? fun o => o.1 = optionPrefix arg else none with
        | some o => some (.option o.2 (explicitArg arg))
        | none =>
          match getOptionTuples opts arg with
          | [o] => some (.option o.1 o.2)
          | _ :: _ :: _ => none
          | [] => if negativeNumber arg || ' ' ∈ arg then some .positional else some .unknown

/-! ### Known arguments -/

/-- What was read before an argument. -/
inductive Before where
  /-- A positional argument that is not left over. -/
  | filled
  /-- A `--` that is not left over, and belongs to the positional argument that follows. -/
  | dashes
  /-- An option that takes the argument as its value. -/
  | option
  | other
  deriving DecidableEq

/-- `_parse_known_args`: the values of the positional arguments, of which so many are missing yet, and what is left
over; `none` if the program ends. After a `--` there are no more options. -/
def consume (opts : Options) : Bool → ℕ → Before → List Text → Option (List Text × List Text)
  | _, missing, before, [] => if missing = 0 ∧ before ≠ .option then some ([], []) else none
  | plain, missing, before, arg :: args =>
    if before = .option then
      if arg ≠ ['-', '-'] ∧ parseOptional opts arg = some .positional then consume opts plain missing .other args
      else none
    else if ¬ plain ∧ arg = ['-', '-'] then
      if before = .filled then consume opts true missing .other args
      else if 0 < missing then consume opts true missing .dashes args
      else (consume opts true missing .other args).map fun r => (r.1, arg :: r.2)
    else
      match if plain then some .positional else parseOptional opts arg with
      | some .positional =>
        if 0 < missing then
          -- a `--` is taken out of what a positional argument consists of, be it the argument itself
          if arg = ['-', '-'] ∧ before ≠ .dashes then none
          else (consume opts plain (missing - 1) .filled args).map fun r => (arg :: r.1, r.2)
        else (consume opts plain missing .other args).map fun r => (r.1, arg :: r.2)
      | some .unknown => (consume opts plain missing .other args).map fun r => (r.1, arg :: r.2)
      | some (.option .store (some _)) => consume opts plain missing .other args
      | some (.option .store none) => consume opts plain missing .option args
      | some (.option .help _) | none => none

/-- `parser.parse_known_args(args)`, of a parser with so many positional arguments. -/
def parseKnownArgs (opts : Options) (positionals : ℕ) (args : List Text) : Option (List Text × List Text) :=
  consume opts false positionals .other args

variable {opts : Options} {arg : Text} {args : List Text}

/-! ### What is taken for an option -/

/-- A name of an option: a dash and a character, or two dashes and a text. -/
inductive WellFormed : Text → Prop where
  | short (c : Char) (hdash : c ≠ '-') : WellFormed ['-', c]
  | long (t : Text) : WellFormed ('-' :: '-' :: t)

/-- The argument is taken for the option of the name: a short one by its beginning, a long one by that of the name. -/
def Takes (name arg : Text) : Prop :=
  if ['-', '-'] <+: name then ['-', '-'] <+: arg ∧ optionPrefix arg <+: name else name <+: arg

instance decidableTakes (name arg : Text) : Decidable (Takes name arg) :=
  inferInstanceAs (Decidable (if ['-', '-'] <+: name then ['-', '-'] <+: arg ∧ optionPrefix arg <+: name
    else name <+: arg))

theorem optionPrefix_prefix (arg : Text) : optionPrefix arg <+: arg := List.takeWhile_prefix _

theorem WellFormed.takes_short {c : Char} (hdash : c ≠ '-') : Takes ['-', c] arg ↔ ['-', c] <+: arg := by
  rw [Takes, if_neg]
  intro h
  exact hdash (List.cons.inj (List.cons.inj (h.eq_of_length rfl)).2).1.symm

theorem WellFormed.takes_long {t : Text} :
    Takes ('-' :: '-' :: t) arg ↔ ['-', '-'] <+: arg ∧ optionPrefix arg <+: '-' :: '-' :: t := by
  rw [Takes, if_pos ⟨t, rfl⟩]

/-- The argument is taken for an option that it names before its first `=`. -/
theorem WellFormed.takes_of_eq {name : Text} (h : WellFormed name) (hname : optionPrefix arg = name) :
    Takes name arg := by
  have hpre := hname ▸ optionPrefix_prefix arg
  cases h with
  | short c hdash => exact (takes_short hdash).mpr hpre
  | long t => exact takes_long.mpr ⟨(List.prefix_append ['-', '-'] t).trans hpre, hname ▸ List.prefix_rfl⟩

theorem WellFormed.takes_self {name : Text} (h : WellFormed name) : Takes name name := by
  cases h with
  | short c hdash => exact (takes_short hdash).mpr List.prefix_rfl
  | long t => exact takes_long.mpr ⟨List.prefix_append ['-', '-'] t, optionPrefix_prefix _⟩

theorem WellFormed.cons_of_takes {name : Text} (h : WellFormed name) (htakes : Takes name arg) :
    ∃ c t, arg = '-' :: c :: t := by
  cases h with
  | short c hdash =>
    obtain ⟨t, rfl⟩ := (takes_short hdash).mp htakes
    exact ⟨c, t, rfl⟩
  | long u =>
    obtain ⟨t, rfl⟩ := (takes_long.mp htakes).1
    exact ⟨'-', t, rfl⟩

/-- An argument with two dashes. -/
theorem WellFormed.takes_dashes {name t : Text} (h : WellFormed name) :
    Takes name ('-' :: '-' :: t) ↔ optionPrefix ('-' :: '-' :: t) <+: name := by
  cases h with
  | short c hdash =>
    have htake : optionPrefix ('-' :: '-' :: t) = '-' :: '-' :: optionPrefix t := rfl
    rw [takes_short hdash, htake]
    simp [hdash, Ne.symm hdash]
  | long u => exact takes_long.trans (and_iff_right (List.prefix_append ['-', '-'] t))

/-- An argument with one dash. -/
theorem WellFormed.takes_dash {name t : Text} (h : WellFormed name) {c : Char} (hc : c ≠ '-') :
    Takes name ('-' :: c :: t) ↔ name = ['-', c] := by
  cases h with
  | short d hdash =>
    rw [takes_short hdash]
    simp
  | long u =>
    rw [takes_long]
    simp [Ne.symm hc]

/-- It is not the beginning of another name. -/
theorem WellFormed.not_begins {name t : Text} (h : WellFormed name) {c : Char} (hc : c ≠ '-')
    (hname : name ≠ '-' :: c :: t) : ¬ '-' :: c :: t <+: name := by
  cases h with
  | short d hdash =>
    intro hpre
    have hle := hpre.length_le
    simp only [List.length_cons, List.length_nil] at hle
    exact hname (hpre.eq_of_length_le (by simp)).symm
  | long u => simp [hc]

/-- The tuples of an argument that is no name of an option. -/
theorem getOptionTuples_eq_nil_iff (hopts : ∀ o ∈ opts, WellFormed o.1) {c : Char} {t : Text}
    (hname : ∀ o ∈ opts, o.1 ≠ '-' :: c :: t) :
    getOptionTuples opts ('-' :: c :: t) = [] ↔ ∀ o ∈ opts, ¬ Takes o.1 ('-' :: c :: t) := by
  rw [getOptionTuples]
  by_cases hc : c = '-'
  · subst hc
    have hlong : ['-', '-'] <+: '-' :: '-' :: t := List.prefix_append ['-', '-'] t
    rw [if_pos hlong, List.filterMap_eq_nil_iff]
    refine forall₂_congr fun o ho => ?_
    rw [(hopts o ho).takes_dashes, ite_eq_right_iff]
    simp
  · have hshort : ¬ ['-', '-'] <+: '-' :: c :: t := by simpa using Ne.symm hc
    rw [if_neg hshort, List.filterMap_eq_nil_iff]
    refine forall₂_congr fun o ho => ?_
    rw [(hopts o ho).takes_dash hc, if_neg ((hopts o ho).not_begins hc (hname o ho)), ite_eq_right_iff]
    simp

/-! ### What is left over -/

/-- The parser leaves the argument over. -/
def Keeps (opts : Options) (arg : Text) : Prop :=
  parseOptional opts arg = some .positional ∨ parseOptional opts arg = some .unknown

/-- The parser leaves all over: a `--` makes what stands behind it no option. -/
def KeepsAll (opts : Options) (args : List Text) : Prop :=
  ∀ arg ∈ args.takeWhile (· ≠ ['-', '-']), Keeps opts arg

theorem keepsAll_cons (h : arg ≠ ['-', '-']) :
    KeepsAll opts (arg :: args) ↔ Keeps opts arg ∧ KeepsAll opts args := by
  have htake : (arg :: args).takeWhile (· ≠ ['-', '-']) = arg :: args.takeWhile (· ≠ ['-', '-']) :=
    List.takeWhile_cons_of_pos (by simpa using h)
  rw [KeepsAll, htake, List.forall_mem_cons]
  rfl

/-- Nothing is added to a command line. -/
theorem length_consume {plain : Bool} {missing : ℕ} {before : Before} {args : List Text}
    {r : List Text × List Text} (h : consume opts plain missing before args = some r) : r.2.length ≤ args.length := by
  fun_induction consume opts plain missing before args generalizing r <;>
    simp_all [Option.map_eq_some_iff]
  all_goals grind

/-- After a `--` all is left over. -/
theorem consume_plain : consume opts true 0 .other args = some ([], args) := by
  induction args with
  | nil => rfl
  | cons arg args ih => simp [consume, ih]

/-- An argument that is taken for an option is not kept. -/
theorem not_keeps {action : Action} {explicitArg : Option Text}
    (h : parseOptional opts arg = some (.option action explicitArg)) : ¬ Keeps opts arg := by
  simp [Keeps, h]

/-- **What is kept** is what no option takes. -/
theorem keeps_iff (hopts : ∀ o ∈ opts, WellFormed o.1) : Keeps opts arg ↔ ∀ o ∈ opts, ¬ Takes o.1 arg := by
  by_cases hhead : arg.head? ≠ some '-'
  · refine iff_of_true (.inl (if_pos hhead)) fun o ho htakes => ?_
    obtain ⟨c, t, rfl⟩ := (hopts o ho).cons_of_takes htakes
    exact hhead rfl
  have htaken : ∀ o ∈ opts, ¬ Keeps opts arg → Takes o.1 arg → (Keeps opts arg ↔ ∀ o ∈ opts, ¬ Takes o.1 arg) :=
    fun o ho hkeeps htakes => iff_of_false hkeeps fun h => h o ho htakes
  cases hexact : opts.find? fun o => o.1 = arg with
  | some o =>
    have hname : o.1 = arg := by simpa using List.find?_some hexact
    have ho := List.mem_of_find?_eq_some hexact
    have hoption : parseOptional opts arg = some (.option o.2 none) := by simp [parseOptional, hhead, hexact]
    exact htaken o ho (not_keeps hoption) (hname ▸ (hopts o ho).takes_self)
  | none =>
    have hname : ∀ o ∈ opts, o.1 ≠ arg := by simpa using hexact
    match arg with
    | [] => exact absurd nofun hhead
    | [c] =>
      refine iff_of_true (.inl (by simp [parseOptional, hexact])) fun o ho htakes => ?_
      obtain ⟨c, t, h⟩ := (hopts o ho).cons_of_takes htakes
      exact List.cons_ne_nil _ _ (List.cons.inj h).2.symm
    | c :: d :: t =>
      obtain rfl : c = '-' := by simpa using hhead
      have hlength : ('-' :: d :: t).length ≠ 1 := by simp
      -- an option that the argument names before its first `=`
      cases hequals : if '=' ∈ '-' :: d :: t then opts.find? fun o => o.1 = optionPrefix ('-' :: d :: t) else none with
      | some o =>
        have hoption : parseOptional opts ('-' :: d :: t) = some (.option o.2 (explicitArg ('-' :: d :: t))) := by
          simp only [parseOptional, if_neg hhead, hexact, if_neg hlength, hequals]
        rw [Option.ite_none_right_eq_some] at hequals
        have ho := List.mem_of_find?_eq_some hequals.2
        have hpre : o.1 = optionPrefix ('-' :: d :: t) := by simpa using List.find?_some hequals.2
        exact htaken o ho (not_keeps hoption) ((hopts o ho).takes_of_eq hpre.symm)
      | none =>
        rw [← getOptionTuples_eq_nil_iff hopts hname, Keeps]
        simp only [parseOptional, if_neg hhead, hexact, if_neg hlength, hequals]
        cases getOptionTuples opts ('-' :: d :: t) with
        | nil =>
          simp only
          split_ifs <;> simp
        | cons o os => cases os <;> simp

/-- An argument that is left over. -/
theorem consume_keeps (hdashes : arg ≠ ['-', '-']) (hkeeps : Keeps opts arg) :
    consume opts false 0 .other (arg :: args) =
      (consume opts false 0 .other args).map fun r => (r.1, arg :: r.2) := by
  rcases hkeeps with h | h <;> simp [consume, hdashes, h]

/-- An argument that is not left over is missing then. -/
theorem consume_not_keeps (hdashes : arg ≠ ['-', '-']) (hkeeps : ¬ Keeps opts arg) :
    consume opts false 0 .other (arg :: args) ≠ some ([], arg :: args) := by
  have hshort : ∀ before, consume opts false 0 before args ≠ some ([], arg :: args) := by
    intro before h
    have hlength := length_consume h
    rw [List.length_cons] at hlength
    omega
  rw [Keeps, not_or] at hkeeps
  cases hkind : parseOptional opts arg with
  | none => simp [consume, hdashes, hkind]
  | some kind =>
    cases kind with
    | positional => exact absurd hkind hkeeps.1
    | unknown => exact absurd hkind hkeeps.2
    | option action explicitArg =>
      cases action with
      | help => simp [consume, hdashes, hkind]
      | store => cases explicitArg <;> simp [consume, hdashes, hkind, hshort]

/-- Where no more positional arguments are missing, all is left over if the parser keeps it, and only then. -/
theorem consume_eq_self_iff : consume opts false 0 .other args = some ([], args) ↔ KeepsAll opts args := by
  induction args with
  | nil => exact iff_of_true rfl (fun _ h => absurd h List.not_mem_nil)
  | cons arg args ih =>
    by_cases hdashes : arg = ['-', '-']
    · subst hdashes
      exact iff_of_true (by simp [consume, consume_plain]) (by simp [KeepsAll])
    · rw [keepsAll_cons hdashes]
      by_cases hkeeps : Keeps opts arg
      · rw [consume_keeps hdashes hkeeps, and_iff_right hkeeps, ← ih, Option.map_eq_some_iff]
        simp
      · exact iff_of_false (consume_not_keeps hdashes hkeeps) fun h => hkeeps h.1

/-- Positional arguments that do not look like options. -/
theorem consume_names {names : List Text} (hnames : ∀ name ∈ names, name.head? ≠ some '-') {before : Before}
    (hbefore : before ≠ .option) : consume opts false names.length before (names ++ args) =
      (consume opts false 0 (if names = [] then before else .filled) args).map fun r => (names ++ r.1, r.2) := by
  induction names generalizing before with
  | nil => simp
  | cons name names ih =>
    obtain ⟨hname, hnames⟩ := List.forall_mem_cons.mp hnames
    have hdashes : name ≠ ['-', '-'] := by
      rintro rfl
      exact hname rfl
    have hkind : parseOptional opts name = some .positional := by rw [parseOptional, if_pos hname]
    simp [consume, hbefore, hdashes, hkind, ih hnames, Function.comp_def]

/-- **What reaches a program.** After positional arguments that do not begin with a dash, all is left over exactly if
the parser keeps it, and it does not begin with a `--`, which would end the positional arguments. -/
theorem parseKnownArgs_eq_iff {names : List Text} (hnil : names ≠ [])
    (hnames : ∀ name ∈ names, name.head? ≠ some '-') :
    parseKnownArgs opts names.length (names ++ args) = some (names, args) ↔
      args.head? ≠ some ['-', '-'] ∧ KeepsAll opts args := by
  have hparse : parseKnownArgs opts names.length (names ++ args) = some (names, args) ↔
      consume opts false 0 .filled args = some ([], args) := by
    rw [parseKnownArgs, consume_names hnames (by decide : Before.other ≠ .option), if_neg hnil, Option.map_eq_some_iff]
    simp
  rw [hparse]
  cases args with
  | nil => exact iff_of_true rfl ⟨nofun, fun _ h => absurd h List.not_mem_nil⟩
  | cons arg args =>
    by_cases hdashes : arg = ['-', '-']
    · subst hdashes
      refine iff_of_false (fun h => ?_) (by simp)
      simp [consume, consume_plain] at h
    · have hbefore : consume opts false 0 .filled (arg :: args) = consume opts false 0 .other (arg :: args) := by
        simp [consume, hdashes]
      rw [hbefore, consume_eq_self_iff, and_iff_right (by simpa using hdashes)]

end Riaps.Foundation.ArgParse
