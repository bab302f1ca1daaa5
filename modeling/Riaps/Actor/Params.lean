import Mathlib.Data.List.TakeWhile
import Riaps.Foundation.Dict
import Riaps.Foundation.PyText

/-!
# Actor parameters

A deployment gives values to the parameters of an actor. The controller writes
them on a command line (`buildArgs`), and so do, for a device, the actor that
asks for it and the deployment manager together (`requestDevice`,
`handleDeviceReq`). The actor reads them back (`parseParams`): `getopt` takes
the command line apart, and `getParameterValueType` turns each text into a
value, of the type of the parameter's default or, if it has none, of the type
that the text looks like.

`restored_iff` says which values come back: all but those of type `bool`, of
which only `True` does, and only where there is no default.
-/

namespace Riaps.Actor

open Riaps.Foundation

universe u

variable {F : Type u}

/-! ### Values -/

/-- A value of a parameter. -/
inductive Value (F : Type u) where
  /-- A `bool`. -/
  | bool (b : Bool)
  /-- An `int`. -/
  | int (n : ℤ)
  /-- A `float`. -/
  | float (x : F)
  /-- A `str`. -/
  | str (s : Text)
  deriving DecidableEq

/-- The types of parameters. -/
inductive ValueType where
  /-- `bool`. -/
  | bool
  /-- `int`. -/
  | int
  /-- `float`. -/
  | float
  /-- `str`. -/
  | str
  deriving DecidableEq

/-- `type(v)`. -/
def Value.type : Value F → ValueType
  | .bool _ => .bool
  | .int _ => .int
  | .float _ => .float
  | .str _ => .str

/-- The exceptions that leave `parseParams`. -/
inductive ParamError where
  /-- `BuildError`: the type of the default does not match the type of the argument. -/
  | typeMismatch (opt : Text × Text)
  /-- `BuildError`: a required parameter is missing. -/
  | missing (param : Text)
  /-- `ValueError`, from `int` or `float`. -/
  | valueError
  deriving DecidableEq

/-- A formal parameter of the model. -/
structure Formal (F : Type u) where
  name : Text
  default : Option (Value F)

/-- A value that is given to a parameter. -/
structure Actual (F : Type u) where
  name : Text
  value : Value F

/-- `"True"`. -/
def trueText : Text := ['T', 'r', 'u', 'e']

/-- `"False"`. -/
def falseText : Text := ['F', 'a', 'l', 's', 'e']

/-- `str(v)`. -/
def Value.text (fl : FloatText F) : Value F → Text
  | .bool b => if b then trueText else falseText
  | .int n => strInt n
  | .float x => fl.str x
  | .str s => s

/-! ### The command line -/

/-- `Controller.buildArgs`. -/
def buildArgs (fl : FloatText F) (actuals : List (Actual F)) : List Text :=
  actuals.flatMap fun a => [['-', '-'] ++ a.name, a.value.text fl]

/-- The `deviceArgs` of the message that `DeploClient.requestDevice` sends. -/
def requestDevice (fl : FloatText F) (args : List (Actual F)) : List (Text × Text) :=
  args.map fun a => (a.name, a.value.text fl)

/-- The command line that `DeploymentManager.handleDeviceReq` starts the device with. -/
def handleDeviceReq (deviceArgs : List (Text × Text)) : List Text :=
  deviceArgs.flatMap fun a => [['-', '-'] ++ a.1, a.2]

theorem length_buildArgs (fl : FloatText F) (actuals : List (Actual F)) :
    (buildArgs fl actuals).length = 2 * actuals.length := by
  rw [buildArgs, List.length_flatMap]
  simp [Nat.mul_comm]

/-- A device is started with the same command line as an actor. -/
theorem handleDeviceReq_requestDevice (fl : FloatText F) (args : List (Actual F)) :
    handleDeviceReq (requestDevice fl args) = buildArgs fl args := by
  rw [handleDeviceReq, requestDevice, List.flatMap_map, buildArgs]

/-! ### `getopt` -/

/-- `long_has_args(opt, longopts)`: whether the option has an argument, and its full name;
`none` when it is not recognized, or not a unique abbreviation. -/
def longHasArgs (opt : Text) (longopts : List Text) : Option (Bool × Text) :=
  let possibilities := longopts.filter fun o => opt.isPrefixOf o
  if possibilities = [] then none
  else if opt ∈ possibilities then some (false, opt)
  else if opt ++ ['='] ∈ possibilities then some (true, opt)
  else
    match possibilities with
    | [unique] => if unique.getLast? = some '=' then some (true, unique.dropLast) else some (false, unique)
    | _ => none

/-- `do_longs`: the option, without its dashes, and the arguments that are left. -/
def doLongs (opt : Text) (longopts args : List Text) : Option ((Text × Text) × List Text) :=
  let name := opt.takeWhile (· ≠ '=')
  let optarg := if '=' ∈ opt then some ((opt.dropWhile (· ≠ '=')).drop 1) else none
  match longHasArgs name longopts with
  | none => none
  | some (true, name) =>
    match optarg, args with
    | some optarg, args => some ((['-', '-'] ++ name, optarg), args)
    | none, optarg :: args => some ((['-', '-'] ++ name, optarg), args)
    | none, [] => none
  | some (false, name) =>
    match optarg with
    | some _ => none
    | none => some ((['-', '-'] ++ name, []), args)

/-- `getopt.getopt(args, '', longopts)`: the options; `none` for a `GetoptError`. Every pass
takes an argument at least, so there are as many passes as there are arguments, at most. -/
def getopt (longopts : List Text) : ℕ → List Text → Option (List (Text × Text))
  | 0, _ | _, [] => some []
  | fuel + 1, arg :: args =>
    if arg.head? ≠ some '-' ∨ arg = ['-'] ∨ arg = ['-', '-'] then some []
    else if ['-', '-'].isPrefixOf arg then
      match doLongs (arg.drop 2) longopts args with
      | some (opt, args) => (getopt longopts fuel args).map (opt :: ·)
      | none => none
    -- there are no short options
    else none

/-! ### `parseParams` -/

/-- `INT_RE.match(param)`, where `INT_RE` is `^[-]?\d+$`. -/
def intRE (param : Text) : Bool :=
  match param with
  | '-' :: t => digitsRE t
  | t => digitsRE t

/-- `getParameterValueType`: a value and a type, which is not always its own. -/
def getParameterValueType (fl : FloatText F) (param : Text) (defaultType : Option ValueType) :
    Except ParamError (Value F × ValueType) :=
  match defaultType with
  | some .str => .ok (.str param, .str)
  | some .int =>
    match readInt param with
    | some n => .ok (.int n, .int)
    | none => .error .valueError
  | some .float =>
    match fl.read param with
    | some x => .ok (.float x, .float)
    | none => .error .valueError
  -- the comparison with "True" and "False" is overwritten by `bool(param), float`
  | some .bool => .ok (.bool (param ≠ []), .float)
  | none =>
    if param = trueText then .ok (.bool true, .bool)
    else if param = falseText then .ok (.bool true, .bool)
    else if intRE param then
      match readInt param with
      | some n => .ok (.int n, .int)
      | none => .error .valueError
    else
      match fl.read param with
      | some x => .ok (.float x, .float)
      | none => .ok (.str param, .str)

/-- The table of parameters: the value of each, `none` if it has none yet. -/
abbrev Params (F : Type u) := Dict Text (Option (Value F))

/-- The table with the defaults. -/
def defaults (formals : List (Formal F)) : Params F :=
  formals.foldl (fun params f => params.set f.name f.default) Dict.empty

/-- The value of an option, checked against the value that the parameter has. -/
def convert (fl : FloatText F) (default : Option (Value F)) (opt : Text × Text) : Except ParamError (Value F) :=
  match getParameterValueType fl opt.2 (default.map Value.type) with
  | .error x => .error x
  | .ok (value, type) =>
    match default with
    | some v => if type ≠ v.type then .error (.typeMismatch (opt.1.drop 2, opt.2)) else .ok value
    | none => .ok value

/-- One turn of the loop over the options. -/
def setParam (fl : FloatText F) (params : Params F) (opt : Text × Text) : Except ParamError (Params F) :=
  match params.get? (opt.1.drop 2) with
  | some default =>
    match convert fl default opt with
    | .ok value => .ok (params.set (opt.1.drop 2) (some value))
    | .error x => .error x
  -- an unknown argument is ignored
  | none => .ok params

/-- `parseParams`: the table of parameters. A command line that does not parse is logged, and
the table is left as it is then. -/
def parseParams (fl : FloatText F) (formals : List (Formal F)) (sysArgv : List Text) :
    Except ParamError (Params F) :=
  match getopt (formals.map fun f => f.name ++ ['=']) sysArgv.length sysArgv with
  | none => .ok (defaults formals)
  | some opts =>
    match opts.foldlM (setParam fl) (defaults formals) with
    | .error x => .error x
    | .ok params =>
      match params.items.find? fun i => i.2.isNone with
      | some i => .error (.missing i.1)
      | none => .ok params

/-! ### What is given to an actor -/

/-- A text that `getParameterValueType` takes for something else than a `str`. -/
def Spells (fl : FloatText F) (s : Text) : Prop :=
  s = trueText ∨ s = falseText ∨ intRE s ∨ (fl.read s).isSome

/-- The values a deployment gives to the parameters of an actor, or an actor to those of a
device: each of a parameter there is, once, of the type of its default if it has one, no
`str` that spells something else if it has none; and every parameter without a default. -/
structure Given (fl : FloatText F) where
  formals : List (Formal F)
  actuals : List (Actual F)
  nodup : (actuals.map Actual.name).Nodup
  known : ∀ a ∈ actuals, a.name ∈ formals.map Formal.name
  /-- Names are identifiers. -/
  identifier : ∀ a ∈ actuals, a.name ≠ [] ∧ '=' ∉ a.name
  typed : ∀ a ∈ actuals, ∀ v, (defaults formals).get? a.name = some (some v) → v.type = a.value.type
  plain : ∀ a ∈ actuals, ∀ s, a.value = .str s → (defaults formals).get? a.name = some none → ¬ Spells fl s
  required : ∀ p, (defaults formals).get? p = some none → p ∈ actuals.map Actual.name

/-- The command line is parsed, and every value given is in the table. -/
def Restored (fl : FloatText F) (d : Given fl) (sysArgv : List Text) : Prop :=
  ∃ params, parseParams fl d.formals sysArgv = .ok params ∧
    ∀ a ∈ d.actuals, params.get? a.name = some (some a.value)

/-! ### One value -/

theorem digitsRE_of_isDigit {t : Text} (ht : t ≠ []) (h : ∀ c ∈ t, c.isDigit) : digitsRE t = true := by
  have hlast : t.getLast? ≠ some '\n' := by
    intro hlast
    exact absurd (h _ (List.mem_of_getLast? hlast)) (by decide)
  simp only [digitsRE, if_neg hlast, decide_eq_true_eq, List.all_eq_true]
  refine ⟨ht, fun c hc => ?_⟩
  rw [decimal_of_isDigit (h c hc)]
  rfl

theorem intRE_strInt (n : ℤ) : intRE (strInt n) = true := by
  have hdigit : ∀ k, ∀ c ∈ Nat.toDigits 10 k, c.isDigit :=
    fun k c hc => Nat.isDigit_of_mem_toDigits (by decide) (by decide) hc
  have hre : ∀ k, digitsRE (Nat.toDigits 10 k) = true := fun k => digitsRE_of_isDigit Nat.toDigits_ne_nil (hdigit k)
  cases n with
  | negSucc n => exact hre (n + 1)
  | ofNat n =>
    simp only [strInt, intRE]
    split
    · rename_i t ht
      exact absurd (hdigit n '-' (by simp [ht])) (by decide)
    · exact hre n

theorem not_digitsRE {t : Text} {c : Char} (hc : c ∈ t) (hdec : decimal c = none) (hnl : c ≠ '\n') :
    digitsRE t = false := by
  have hmem : c ∈ if t.getLast? = some '\n' then t.dropLast else t := by
    split_ifs with hlast
    · obtain ⟨l, rfl⟩ := List.getLast?_eq_some_iff.mp hlast
      rw [List.dropLast_concat]
      simpa [hnl] using hc
    · exact hc
  simp only [digitsRE, decide_eq_false_iff_not, not_and, List.all_eq_true]
  intro _ h
  have := h c hmem
  rw [hdec] at this
  cases this

/-- A text with another character than digits and a sign is no `int`. -/
theorem not_intRE {t : Text} {c : Char} (hc : c ∈ t) (hdec : decimal c = none) (hnl : c ≠ '\n') (hminus : c ≠ '-') :
    intRE t = false := by
  unfold intRE
  split
  · exact not_digitsRE ((List.mem_cons.mp hc).resolve_left hminus) hdec hnl
  · exact not_digitsRE hc hdec hnl

theorem intRE_float (fl : FloatText F) (x : F) : intRE (fl.str x) = false := by
  obtain ⟨c, hc, hchar⟩ := fl.not_int x
  simp only [List.mem_cons, List.not_mem_nil, or_false] at hchar
  rcases hchar with rfl | rfl | rfl
  · exact not_intRE hc (by decide) (by decide) (by decide)
  · exact not_intRE hc (by decide) (by decide) (by decide)
  · exact not_intRE hc (by decide) (by decide) (by decide)

/-- A number is not written like a `bool`. -/
theorem strInt_ne (n : ℤ) : strInt n ≠ trueText ∧ strInt n ≠ falseText := by
  constructor
  · intro h
    rcases mem_strInt (n := n) (c := 'T') (by simp [h, trueText]) with hc | hc <;> exact absurd hc (by decide)
  · intro h
    rcases mem_strInt (n := n) (c := 'F') (by simp [h, falseText]) with hc | hc <;> exact absurd hc (by decide)

theorem strFloat_ne (fl : FloatText F) (x : F) : fl.str x ≠ trueText ∧ fl.str x ≠ falseText := by
  constructor
  · intro h
    exact (fl.not_capital x 'T' (by simp [h, trueText])).1 rfl
  · intro h
    exact (fl.not_capital x 'F' (by simp [h, falseText])).2 rfl

/-- **One value.** Converted back, the text of a value is that value, but for a `bool`: this
takes `True` and no default. -/
theorem convert_text_iff (fl : FloatText F) {default : Option (Value F)} {v : Value F} (name : Text)
    (htyped : ∀ w, default = some w → w.type = v.type)
    (hplain : ∀ s, v = .str s → default = none → ¬ Spells fl s) :
    convert fl default (name, v.text fl) = .ok v ↔ ∀ b, v = .bool b → b = true ∧ default = none := by
  cases default with
  | some w =>
    cases v with
    | bool b =>
      have htype : w.type = .bool := htyped w rfl
      refine iff_of_false ?_ (fun h => by cases (h b rfl).2)
      simp [convert, getParameterValueType, htype]
    | int n =>
      have htype : w.type = .int := htyped w rfl
      simp [convert, getParameterValueType, htype, Value.text, readInt_strInt]
    | float x =>
      have htype : w.type = .float := htyped w rfl
      simp [convert, getParameterValueType, htype, Value.text, fl.read_str]
    | str s =>
      have htype : w.type = .str := htyped w rfl
      simp [convert, getParameterValueType, htype, Value.text]
  | none =>
    cases v with
    | bool b => cases b <;> simp [convert, getParameterValueType, Value.text, trueText, falseText]
    | int n =>
      simp [convert, getParameterValueType, Value.text, strInt_ne, intRE_strInt, readInt_strInt]
    | float x =>
      simp [convert, getParameterValueType, Value.text, strFloat_ne, intRE_float, fl.read_str]
    | str s =>
      have hspells := hplain s rfl rfl
      simp only [Spells, not_or] at hspells
      obtain ⟨htrue, hfalse, hint, hfloat⟩ := hspells
      rw [Option.not_isSome_iff_eq_none] at hfloat
      simp [convert, getParameterValueType, Value.text, htrue, hfalse, hint, hfloat]

/-! ### The command line taken apart -/

/-- A formal parameter is recognized by its name. -/
theorem longHasArgs_name {formals : List (Formal F)} {name : Text} (hknown : name ∈ formals.map Formal.name)
    (heq : '=' ∉ name) : longHasArgs name (formals.map fun f => f.name ++ ['=']) = some (true, name) := by
  have hfull : name ++ ['='] ∈ (formals.map fun f => f.name ++ ['=']).filter fun o => name.isPrefixOf o := by
    obtain ⟨f, hf, rfl⟩ := List.mem_map.mp hknown
    refine List.mem_filter.mpr ⟨List.mem_map.mpr ⟨f, hf, rfl⟩, ?_⟩
    exact List.isPrefixOf_iff_prefix.mpr (List.prefix_append _ _)
  have hbare : name ∉ (formals.map fun f => f.name ++ ['=']).filter fun o => name.isPrefixOf o := by
    intro hmem
    obtain ⟨f, -, hf⟩ := List.mem_map.mp (List.mem_filter.mp hmem).1
    exact heq (hf ▸ List.mem_append_right _ (List.mem_singleton_self '='))
  unfold longHasArgs
  simp only
  rw [if_neg (List.ne_nil_of_mem hfull), if_neg hbare, if_pos hfull]

theorem doLongs_name {formals : List (Formal F)} {name : Text} (hknown : name ∈ formals.map Formal.name)
    (heq : '=' ∉ name) (value : Text) (args : List Text) :
    doLongs name (formals.map fun f => f.name ++ ['=']) (value :: args) = some ((['-', '-'] ++ name, value), args) := by
  have htake : name.takeWhile (· ≠ '=') = name :=
    List.takeWhile_eq_self_iff.mpr fun c hc => by simpa using fun h : c = '=' => heq (h ▸ hc)
  simp only [doLongs, htake, if_neg heq, longHasArgs_name hknown heq]

/-- `getopt` finds the options that `buildArgs` wrote. -/
theorem getopt_buildArgs (fl : FloatText F) {formals : List (Formal F)} {actuals : List (Actual F)}
    (hknown : ∀ a ∈ actuals, a.name ∈ formals.map Formal.name) (hid : ∀ a ∈ actuals, a.name ≠ [] ∧ '=' ∉ a.name)
    {fuel : ℕ} (hfuel : actuals.length ≤ fuel) :
    getopt (formals.map fun f => f.name ++ ['=']) fuel (buildArgs fl actuals) =
      some (actuals.map fun a => (['-', '-'] ++ a.name, a.value.text fl)) := by
  induction actuals generalizing fuel with
  | nil => cases fuel <;> rfl
  | cons a actuals ih =>
    obtain ⟨hka, hk⟩ := List.forall_mem_cons.mp hknown
    obtain ⟨hia, hi⟩ := List.forall_mem_cons.mp hid
    cases fuel with
    | zero => cases hfuel
    | succ fuel =>
      have hrest := ih hk hi (Nat.le_of_succ_le_succ hfuel)
      have hargs : buildArgs fl (a :: actuals) =
          (['-', '-'] ++ a.name) :: a.value.text fl :: buildArgs fl actuals := rfl
      have hopt : ¬ ((['-', '-'] ++ a.name).head? ≠ some '-' ∨ ['-', '-'] ++ a.name = ['-'] ∨
          ['-', '-'] ++ a.name = ['-', '-']) := by simp [hia.1]
      have hlong : ['-', '-'].isPrefixOf (['-', '-'] ++ a.name) = true := by simp [List.isPrefixOf]
      have hdrop : (['-', '-'] ++ a.name).drop 2 = a.name := rfl
      rw [hargs, getopt, if_neg hopt, if_pos hlong, hdrop, doLongs_name hka hia.2]
      simp only [hrest, Option.map_some, List.map_cons]

/-! ### The table -/

theorem exists_default {formals : List (Formal F)} {name : Text} (h : name ∈ formals.map Formal.name) :
    ∃ d, (defaults formals).get? name = some d := by
  have hkeep : ∀ (fs : List (Formal F)) (params : Params F), (∃ d, params.get? name = some d) →
      ∃ d, (fs.foldl (fun params f => params.set f.name f.default) params).get? name = some d := by
    intro fs
    induction fs with
    | nil => exact fun _ h => h
    | cons f fs ih =>
      rintro params ⟨d, hd⟩
      refine ih _ ?_
      rw [Dict.get?_set]
      split_ifs
      · exact ⟨_, rfl⟩
      · exact ⟨d, hd⟩
  have hfind : ∀ (fs : List (Formal F)) (params : Params F), name ∈ fs.map Formal.name →
      ∃ d, (fs.foldl (fun params f => params.set f.name f.default) params).get? name = some d := by
    intro fs
    induction fs with
    | nil => intro _ h; cases h
    | cons f fs ih =>
      intro params h
      rcases List.mem_cons.mp h with rfl | h
      · exact hkeep fs _ ⟨f.default, Dict.get?_set_self ..⟩
      · exact ih _ h
  exact hfind formals Dict.empty h

/-- The options of values that are given. -/
abbrev optsOf (fl : FloatText F) (actuals : List (Actual F)) : List (Text × Text) :=
  actuals.map fun a => (['-', '-'] ++ a.name, a.value.text fl)

/-- When every value converts to itself, the loop puts them all into the table. -/
theorem foldlM_setParam {fl : FloatText F} {actuals : List (Actual F)} (hnodup : (actuals.map Actual.name).Nodup)
    {params : Params F}
    (h : ∀ a ∈ actuals, ∃ d, params.get? a.name = some d ∧
      convert fl d (['-', '-'] ++ a.name, a.value.text fl) = .ok a.value) :
    ∃ params', (optsOf fl actuals).foldlM (setParam fl) params = .ok params' ∧
      (∀ a ∈ actuals, params'.get? a.name = some (some a.value)) ∧
      ∀ p, p ∉ actuals.map Actual.name → params'.get? p = params.get? p := by
  induction actuals generalizing params with
  | nil => exact ⟨params, rfl, by simp, fun p _ => rfl⟩
  | cons a actuals ih =>
    obtain ⟨hnotin, hnodup'⟩ := List.nodup_cons.mp hnodup
    obtain ⟨⟨d, hd, hconv⟩, hrest⟩ := List.forall_mem_cons.mp h
    have hstep : setParam fl params (['-', '-'] ++ a.name, a.value.text fl) =
        .ok (params.set a.name (some a.value)) := by
      have hget : params.get? ((['-', '-'] ++ a.name).drop 2) = some d := hd
      simp only [setParam, hget, hconv]
      rfl
    have hrest' : ∀ b ∈ actuals, ∃ d, (params.set a.name (some a.value)).get? b.name = some d ∧
        convert fl d (['-', '-'] ++ b.name, b.value.text fl) = .ok b.value := by
      intro b hb
      have hne : b.name ≠ a.name := fun hne => hnotin (hne ▸ List.mem_map_of_mem hb)
      rw [Dict.get?_set_of_ne _ _ hne]
      exact hrest b hb
    obtain ⟨params', hfold, hin, hout⟩ := ih hnodup' hrest'
    refine ⟨params', ?_, List.forall_mem_cons.mpr ⟨?_, hin⟩, fun p hp => ?_⟩
    · rw [optsOf, List.map_cons, List.foldlM_cons, hstep]
      exact hfold
    · rw [hout a.name hnotin, Dict.get?_set_self]
    · rw [List.map_cons, List.mem_cons, not_or] at hp
      rw [hout p hp.2, Dict.get?_set_of_ne _ _ hp.1]

/-- What an option puts into the table, and what it leaves of it. -/
theorem setParam_spec {fl : FloatText F} {params params' : Params F} {name text : Text}
    (h : setParam fl params (['-', '-'] ++ name, text) = .ok params') :
    (∀ d, params.get? name = some d → ∃ v, params'.get? name = some (some v) ∧
      convert fl d (['-', '-'] ++ name, text) = .ok v) ∧
      ∀ p, p ≠ name → params'.get? p = params.get? p := by
  unfold setParam at h
  have hdrop : (['-', '-'] ++ name).drop 2 = name := rfl
  simp only [hdrop] at h
  cases hget : params.get? name with
  | none =>
    rw [hget] at h
    cases h
    exact ⟨fun d hd => (by cases hd), fun p _ => rfl⟩
  | some d =>
    simp only [hget] at h
    cases hconv : convert fl d (['-', '-'] ++ name, text) with
    | error x =>
      rw [hconv] at h
      cases h
    | ok v =>
      rw [hconv] at h
      cases h
      refine ⟨fun d' hd => ?_, fun p hp => Dict.get?_set_of_ne _ _ hp⟩
      cases hd
      exact ⟨v, Dict.get?_set_self .., hconv⟩

/-- What the loop puts into the table is what the texts convert to. -/
theorem convert_of_foldlM {fl : FloatText F} {actuals : List (Actual F)} (hnodup : (actuals.map Actual.name).Nodup)
    {params params' : Params F} (h : (optsOf fl actuals).foldlM (setParam fl) params = .ok params') :
    (∀ a ∈ actuals, ∀ d, params.get? a.name = some d → ∃ v, params'.get? a.name = some (some v) ∧
      convert fl d (['-', '-'] ++ a.name, a.value.text fl) = .ok v) ∧
      ∀ p, p ∉ actuals.map Actual.name → params'.get? p = params.get? p := by
  induction actuals generalizing params with
  | nil =>
    cases h
    exact ⟨by simp, fun p _ => rfl⟩
  | cons a actuals ih =>
    obtain ⟨hnotin, hnodup'⟩ := List.nodup_cons.mp hnodup
    rw [optsOf, List.map_cons, List.foldlM_cons] at h
    cases hstep : setParam fl params (['-', '-'] ++ a.name, a.value.text fl) with
    | error x =>
      rw [hstep] at h
      cases h
    | ok params₁ =>
      rw [hstep] at h
      obtain ⟨hin, hout⟩ := ih hnodup' h
      have hfirst := setParam_spec hstep
      refine ⟨List.forall_mem_cons.mpr ⟨fun d hd => ?_, fun b hb d hd => ?_⟩, fun p hp => ?_⟩
      · obtain ⟨v, hv, hconv⟩ := hfirst.1 d hd
        exact ⟨v, (hout a.name hnotin).trans hv, hconv⟩
      · have hne : b.name ≠ a.name := fun hne => hnotin (hne ▸ List.mem_map_of_mem hb)
        exact hin b hb d ((hfirst.2 b.name hne).trans hd)
      · rw [List.map_cons, List.mem_cons, not_or] at hp
        rw [hout p hp.2, hfirst.2 p hp.1]

/-! ### Round trip -/

/-- The values that come back: what is no `bool`, and `True` for a parameter without a default. -/
def Survives (default : Option (Value F)) (v : Value F) : Prop := ∀ b, v = .bool b → b = true ∧ default = none

/-- When every value given converts to itself, the table has the values given, and the defaults of the other
parameters. -/
theorem parseParams_buildArgs {fl : FloatText F} (d : Given fl)
    (h : ∀ a ∈ d.actuals, ∀ v, (defaults d.formals).get? a.name = some v →
      convert fl v (['-', '-'] ++ a.name, a.value.text fl) = .ok a.value) :
    ∃ params, parseParams fl d.formals (buildArgs fl d.actuals) = .ok params ∧
      (∀ a ∈ d.actuals, params.get? a.name = some (some a.value)) ∧
      ∀ p, p ∉ d.actuals.map Actual.name → params.get? p = (defaults d.formals).get? p := by
  have hlength : d.actuals.length ≤ (buildArgs fl d.actuals).length := by
    rw [length_buildArgs]
    omega
  have hopts := getopt_buildArgs fl d.known d.identifier hlength
  have hconv : ∀ a ∈ d.actuals, ∃ v, (defaults d.formals).get? a.name = some v ∧
      convert fl v (['-', '-'] ++ a.name, a.value.text fl) = .ok a.value := by
    intro a ha
    obtain ⟨v, hv⟩ := exists_default (d.known a ha)
    exact ⟨v, hv, h a ha v hv⟩
  obtain ⟨params, hfold, hin, hout⟩ := foldlM_setParam d.nodup hconv
  refine ⟨params, ?_, hin, hout⟩
  have hnone : (params.items.find? fun i => i.2.isNone) = none := by
    rw [List.find?_eq_none]
    rintro ⟨p, v⟩ hi hv
    simp only [Option.isNone_iff_eq_none] at hv
    subst hv
    have hget := Dict.get?_eq_some_iff.mpr hi
    by_cases hp : p ∈ d.actuals.map Actual.name
    · obtain ⟨a, ha, rfl⟩ := List.mem_map.mp hp
      rw [hin a ha] at hget
      cases hget
    · rw [hout p hp] at hget
      exact hp (d.required p hget)
  unfold parseParams
  simp only [hopts, hfold, hnone]

/-- All values are restored when each converts to itself, and only then. -/
theorem restored_iff_convert {fl : FloatText F} (d : Given fl) :
    Restored fl d (buildArgs fl d.actuals) ↔
      ∀ a ∈ d.actuals, ∀ v, (defaults d.formals).get? a.name = some v →
        convert fl v (['-', '-'] ++ a.name, a.value.text fl) = .ok a.value := by
  have hlength : d.actuals.length ≤ (buildArgs fl d.actuals).length := by
    rw [length_buildArgs]
    omega
  have hopts := getopt_buildArgs fl d.known d.identifier hlength
  constructor
  · rintro ⟨params, hparse, hvalues⟩ a ha v hv
    unfold parseParams at hparse
    simp only [hopts] at hparse
    cases hfold : (optsOf fl d.actuals).foldlM (setParam fl) (defaults d.formals) with
    | error x =>
      simp only [hfold] at hparse
      cases hparse
    | ok params' =>
      simp only [hfold] at hparse
      split at hparse
      · cases hparse
      · cases hparse
        obtain ⟨w, hw, hconv⟩ := (convert_of_foldlM d.nodup hfold).1 a ha v hv
        cases (hvalues a ha).symm.trans hw
        exact hconv
  · intro h
    obtain ⟨params, hparse, hin, -⟩ := parseParams_buildArgs d h
    exact ⟨params, hparse, hin⟩

/-- **Parameters of actors and devices.** The values given all come back exactly when none is a
`bool`, but `True` where there is no default. -/
theorem restored_iff (fl : FloatText F) (d : Given fl) :
    (Restored fl d (buildArgs fl d.actuals) ↔
      ∀ a ∈ d.actuals, ∀ v, (defaults d.formals).get? a.name = some v → Survives v a.value) ∧
    (Restored fl d (handleDeviceReq (requestDevice fl d.actuals)) ↔
      ∀ a ∈ d.actuals, ∀ v, (defaults d.formals).get? a.name = some v → Survives v a.value) := by
  have h : Restored fl d (buildArgs fl d.actuals) ↔
      ∀ a ∈ d.actuals, ∀ v, (defaults d.formals).get? a.name = some v → Survives v a.value := by
    rw [restored_iff_convert]
    refine forall₄_congr fun a ha v hv => convert_text_iff fl _ (fun w hw => ?_) (fun s hs hv' => ?_)
    · exact d.typed a ha w (hw ▸ hv)
    · exact d.plain a ha s hs (hv' ▸ hv)
  exact ⟨h, by rw [handleDeviceReq_requestDevice]; exact h⟩

/-! ### A flag -/

/-- Floats of which 0.5 is the only one. -/
def half : FloatText Unit where
  str _ := ['0', '.', '5']
  read t := if t = ['0', '.', '5'] then some () else none
  read_str _ := rfl
  not_int _ := ⟨'.', by decide, by decide⟩
  not_capital _ := by simp

/-- A parameter `flag`, with the default `False` or with none, and the value it is given. -/
def flag (default : Option Bool) (b : Bool) : Given half where
  formals := [⟨['f', 'l', 'a', 'g'], default.map .bool⟩]
  actuals := [⟨['f', 'l', 'a', 'g'], .bool b⟩]
  nodup := List.nodup_singleton _
  known := by simp
  identifier := by simp
  typed := by
    intro a ha v hv
    cases List.mem_singleton.mp ha
    cases default with
    | none => cases hv
    | some d => cases hv; rfl
  plain := by
    intro a ha s hs
    cases List.mem_singleton.mp ha
    cases hs
  required := by
    intro p hp
    rw [defaults, List.foldl_cons, List.foldl_nil, Dict.get?_set] at hp
    split_ifs at hp with h
    · simp [h]
    · cases hp

/-- The value `False` of a flag without a default comes back as `True`, and a flag with a
default takes no value. -/
theorem flag_not_restored :
    ¬ Restored half (flag none false) (buildArgs half (flag none false).actuals) ∧
      ¬ Restored half (flag (some false) true) (buildArgs half (flag (some false) true).actuals) := by
  constructor
  · rintro ⟨params, hparse, hvalues⟩
    cases hparse
    exact absurd (hvalues _ (List.mem_singleton_self _)) (by decide)
  · rintro ⟨params, hparse, -⟩
    cases hparse

end Riaps.Actor
