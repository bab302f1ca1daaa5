import Riaps.Actor.Params
import Riaps.Foundation.ArgParse
import Riaps.Foundation.Tables
import Riaps.Lang.Compile
import Riaps.Lang.Depl

/-!
# The arguments of components

An instance of a component gives values to the formal parameters of the component, or parameters of
its actor; a deployment gives values to the parameters of the actor. On the way to the constructor
of the component the values pass through the compiler, the deployment model, the command line of the
actor and its table of parameters (`buildInstArgs`). Those of a device pass through another command
line, that of the actor that is made up for it.

What a process reads of its command line is what `argparse` leaves over, which looks for a `--trace` and
a `--help` in it. So a value or the name of a parameter may not look like one of these (`Reaches`).

What the constructor is called with is what the two models say: `arguments_preserved`. A device is
called with what its actor gives it exactly when that survives another time as text:
`device_arguments_iff`.
-/

namespace Riaps.Actor

open Riaps.Foundation
open Riaps.Lang (FormalObj InstanceObj ActorObj AppObj)

/-! ### The constructors of actors and devices -/

/-- A value of a model, in Python. -/
def ofModel : Lang.Value → Value Double
  | .str s => .str s
  | .number (.int z) => .int z
  | .number (.float x) => .float x
  | .bool b => .bool b

/-- A formal parameter of an actor. -/
def FormalObj.formal (f : FormalObj) : Formal Double := ⟨f.name, f.default.map ofModel⟩

/-- `BuildError`, by its message, and what else ends a constructor. -/
inductive BuildError where
  /-- `Actor "%s" unknown` -/
  | unknownActor (name : Text)
  /-- `Device "%s" unknown` -/
  | unknownDevice (name : Text)
  /-- `Component type "%s" for instance "%s" is undefined` -/
  | undefinedType (type inst : Text)
  /-- `Unspecified parameter %s referenced in %s` -/
  | unspecified (param inst : Text)
  /-- `Argument %s in %s has no defined value` -/
  | noValue (arg inst : Text)
  | params (e : ParamError)
  /-- `ValueError`: the name of a device is not of two parts. -/
  | valueError
  | keyError (key : Text)

/-- The arguments of a constructor. -/
abbrev Args := Dict Text (Option (Value Double))

/-- The value of an argument, in `buildInstArgs`. -/
def argValue (params : Params Double) (instName : Text) (actuals : List Lang.Actual) (formal : FormalObj) :
    Except BuildError (Option (Value Double)) :=
  match actuals.find? fun actual => actual.argName = formal.name with
  | some actual =>
    match actual.argValue with
    | .param paramName =>
      match params.get? paramName with
      | some value => pure value
      | none => throw (.unspecified paramName instName)
    | .value value => pure (some (ofModel value))
  | none =>
    match formal.default with
    | some defaultValue => pure (some (ofModel defaultValue))
    | none => throw (.noValue formal.name instName)

/-- `buildInstArgs`. -/
def buildInstArgs (params : Params Double) (instName : Text) (formals : List FormalObj) (actuals : List Lang.Actual) :
    Except BuildError Args :=
  formals.foldlM (fun args formal => do return args.set formal.name (← argValue params instName actuals formal)) .empty

/-- A `Part`, or a `Peripheral`. -/
structure Part where
  ioComp : Bool
  instName : Text
  instType : Text
  instArgs : Args

/-- A round of the loop over the instances, in `Actor.__init__`. -/
def buildPart (gModel : AppObj) (params : Params Double) (inst : Text × InstanceObj) : Except BuildError Part :=
  match gModel.components.get? inst.2.type, gModel.devices.get? inst.2.type with
  | some typeSpec, _ => do
    return ⟨false, inst.1, inst.2.type, ← buildInstArgs params inst.1 typeSpec.formals inst.2.actuals⟩
  | none, some typeSpec => do
    return ⟨true, inst.1, inst.2.type, ← buildInstArgs params inst.1 typeSpec.formals inst.2.actuals⟩
  | none, none => throw (.undefinedType inst.2.type inst.1)

/-- `Actor.__init__`: the parts. -/
def actorParts (fl : FloatText Double) (gModel : AppObj) (aName : Text) (sysArgv : List Text) :
    Except BuildError (List Part) :=
  match gModel.actors.get? aName with
  | none => throw (.unknownActor aName)
  | some model => do
    let params ← (parseParams fl (model.formals.map FormalObj.formal) sysArgv).mapError .params
    model.instances.items.mapM (buildPart gModel params)

/-- `Device.__init__`: the arguments of its only part. The actuals that are made up are the parameters of the same
names. -/
def deviceArgs (fl : FloatText Double) (gModel : AppObj) (dName qName : Text) (sysArgv : List Text) :
    Except BuildError Args :=
  match qName.splitOn '.' with
  | [aName, iName] =>
    match gModel.devices.get? dName, gModel.actors.get? aName with
    | none, _ => throw (.unknownDevice dName)
    | some _, none => throw (.keyError aName)
    | some devModel, some _ => do
      let params ← (parseParams fl (devModel.formals.map FormalObj.formal) sysArgv).mapError .params
      buildInstArgs params iName devModel.formals (devModel.formals.map fun arg => ⟨arg.name, .param arg.name⟩)
  | _ => throw .valueError

/-! ### The processes of actors and devices -/

/-- The options of `riaps_actor` and `riaps_device`. -/
def processOptions : ArgParse.Options :=
  [(['-', 'h'], .help), (['-', '-', 'h', 'e', 'l', 'p'], .help),
    (['-', 't'], .store), (['-', '-', 't', 'r', 'a', 'c', 'e'], .store)]

/-- Why a process that is asked for calls no constructor. -/
inductive StartError where
  /-- `ValueError: embedded null byte` -/
  | nullByte
  /-- `argparse` ends the program. -/
  | usage
  /-- There is no model in the file. -/
  | noModel
  | build (e : BuildError)

/-- `Popen(command)`: the command line of the process. -/
def popen (command : List Text) : Except StartError (List Text) :=
  if command.all fun arg => '\x00' ∉ arg then pure command else throw .nullByte

/-- `main` of `riaps_actor`. The models are those in the files of the folders of the apps. -/
def main (fl : FloatText Double) (models : Text → Text → Option AppObj) (argv : List Text) :
    Except StartError (List Part) :=
  match ArgParse.parseKnownArgs processOptions 3 argv with
  | some ([app, model, actor], rest) =>
    match models app model with
    | some gModel => (actorParts fl gModel actor rest).mapError .build
    | none => throw .noModel
  | _ => throw .usage

/-- `main` of `riaps_device`. -/
def dmain (fl : FloatText Double) (models : Text → Text → Option AppObj) (argv : List Text) : Except StartError Args :=
  match ArgParse.parseKnownArgs processOptions 4 argv with
  | some ([app, model, device, inst], rest) =>
    match models app model with
    | some gModel => (deviceArgs fl gModel device inst rest).mapError .build
    | none => throw .noModel
  | _ => throw .usage

/-- `DeploymentManager.startActor`: the parts of the process. -/
def startActor (fl : FloatText Double) (models : Text → Text → Option AppObj) (appName appModelPath actorName : Text)
    (actorArgs : List Text) : Except StartError (List Part) := do
  main fl models (← popen ([appName, appModelPath, actorName] ++ actorArgs))

/-- The name under which `Actor.requestDevice` asks for a device. -/
def qualifiedName (aName instName : Text) : Text := aName ++ '.' :: instName

/-- `DeploymentManager.startDevice`: the arguments of the part of the process. -/
def startDevice (fl : FloatText Double) (models : Text → Text → Option AppObj)
    (appName appModelPath typeName instName : Text) (actorArgs : List Text) : Except StartError Args := do
  dmain fl models (← popen ([appName, appModelPath, typeName, instName] ++ actorArgs))

/-- The process finds the names and the arguments on its command line: a name does not begin with a dash, no argument
is taken for an option of the process, and there is no null byte. -/
structure Reaches (names args : List Text) : Prop where
  dash : ∀ name ∈ names, name.head? ≠ some '-'
  kept : ∀ arg ∈ args.takeWhile (· ≠ ['-', '-']), ∀ option ∈ processOptions, ¬ ArgParse.Takes option.1 arg
  null : ∀ arg ∈ names ++ args, '\x00' ∉ arg

/-! ### What the models say -/

/-- The value of a parameter of the actor: what the deployment gives, or the default. -/
def parameter (act : Lang.Actor) (dep : Lang.Depl.Actor) (name : Text) : Option Lang.Value :=
  match dep.actuals.find? fun actual => actual.argName = name with
  | some actual => some actual.argValue.text
  | none => (act.formals.find? fun formal => formal.argName = name).bind Lang.Formal.argDefault

/-- The value of an argument of an instance. -/
def argument (act : Lang.Actor) (dep : Lang.Depl.Actor) (inst : Lang.Instance) (formal : Lang.Formal) :
    Option Lang.Value :=
  match inst.actuals.find? fun actual => actual.argName = formal.argName with
  | some actual =>
    match actual.argValue with
    | .value value => some value
    | .param name => parameter act dep name
  | none => formal.argDefault

/-- What the controller is given to launch an actor with. -/
def deployed (dep : Lang.Depl.Actor) : List (Actual Double) :=
  (Lang.Depl.DeploymentModel.getActuals dep.actuals).map fun actual => ⟨actual.name, ofModel actual.value⟩

/-- A part is that of an instance, with the arguments that the models say. -/
structure Part.Of (p : Part) (act : Lang.Actor) (dep : Lang.Depl.Actor) (inst : Lang.Instance) : Prop where
  ioComp : p.ioComp = inst.type.ioComponent
  instName : p.instName = inst.name
  instType : p.instType = inst.type.name
  instArgs : p.instArgs.items =
    inst.type.formals.map fun formal => (formal.argName, (argument act dep inst formal).map ofModel)

/-! ### The command lines -/

theorem wellFormed_processOptions : ∀ option ∈ processOptions, ArgParse.WellFormed option.1 := by
  simp only [processOptions, List.forall_mem_cons, List.not_mem_nil, false_implies, implies_true, and_true]
  exact ⟨.short _ (by decide), .long _, .short _ (by decide), .long _⟩

section Reaches

variable {names args : List Text} (h : Reaches names args)

include h

theorem Reaches.popen : popen (names ++ args) = pure (names ++ args) := by
  have hnull : ((names ++ args).all fun arg => '\x00' ∉ arg) = true :=
    List.all_eq_true.mpr fun arg harg => decide_eq_true (h.null arg harg)
  rw [Actor.popen, if_pos hnull]

/-- `argparse` leaves the arguments to the process. -/
theorem Reaches.parseKnownArgs (hnil : names ≠ []) (hdashes : args.head? ≠ some ['-', '-']) :
    ArgParse.parseKnownArgs processOptions names.length (names ++ args) = some (names, args) :=
  (ArgParse.parseKnownArgs_eq_iff hnil h.dash).mpr
    ⟨hdashes, fun arg harg => (ArgParse.keeps_iff wellFormed_processOptions).mpr (h.kept arg harg)⟩

end Reaches

/-- The first argument is the name of a parameter. -/
theorem Given.head_buildArgs {F : Type} {fl : FloatText F} (d : Given fl) :
    (buildArgs fl d.actuals).head? ≠ some ['-', '-'] := by
  have hid := d.identifier
  cases hactuals : d.actuals with
  | nil => exact nofun
  | cons a actuals =>
    rw [hactuals] at hid
    have hname := (hid a List.mem_cons_self).1
    simp [buildArgs, hname]

/-! ### Compilation -/

theorem getFormals_eq_ok_iff {formals : List Lang.Formal} {objs : List FormalObj} :
    Lang.getFormals formals = .ok objs ↔
      (formals.map Lang.Formal.argName).Nodup ∧ objs = formals.map fun f => ⟨f.argName, f.argDefault⟩ :=
  foldlM_collect_eq_ok_iff FormalObj.name (fun f : Lang.Formal => ⟨f.argName, f.argDefault⟩)
    fun f => Lang.CompileError.semanticError (.argumentName f.argName)

theorem getActuals_eq_ok {actuals objs : List Lang.Actual} (h : Lang.getActuals actuals = .ok objs) :
    objs = actuals := by
  have hcollect := (foldlM_collect_eq_ok_iff Lang.Actual.argName (fun a : Lang.Actual => a)
    fun a => Lang.CompileError.semanticError (.argument a.argName)).mp h
  exact hcollect.2.trans (List.map_id _)

theorem componentObjs_eq_ok_iff {io : Bool} {components : List Lang.Component} {res : Dict Text Lang.ComponentObj} :
    Lang.componentObjs io components = .ok res ↔
      ((components.filter fun comp => comp.ioComponent = io).map Lang.Component.name).Nodup ∧
        res.Lists Lang.Component.name Lang.componentObj (components.filter fun comp => comp.ioComponent = io) := by
  rw [← Dict.foldlM_fresh_eq_ok_iff (e := fun comp => Lang.CompileError.semanticError (.componentName comp.name)),
    List.foldlM_filter]
  simp only [decide_eq_true_eq]
  rfl

/-- The entry of an instance. -/
def instanceObj (inst : Lang.Instance) : Except Lang.CompileError InstanceObj := do
  let actuals ← Lang.getActuals inst.actuals
  return ⟨inst.type.name, actuals⟩

theorem getInstances_eq_ok {instances : List Lang.Instance} {res : Dict Text InstanceObj}
    (h : Lang.getInstances instances = .ok res) :
    res.items = instances.map fun inst => (inst.name, ⟨inst.type.name, inst.actuals⟩) := by
  have hloop : Lang.getInstances instances = instances.foldlM (fun d inst =>
      if Lang.Instance.name inst ∈ d then throw (Lang.CompileError.semanticError (.instanceName inst.name))
      else do return d.set inst.name (← instanceObj inst)) .empty := by
    simp only [instanceObj, bind_assoc, pure_bind]
    rfl
  rw [hloop, Dict.foldlM_fresh_eq_ok_iff] at h
  refine (Dict.lists_iff_of_ok fun inst hinst => ?_).mp h.2
  obtain ⟨v, hv, -⟩ := h.2.get? hinst
  obtain ⟨actuals, hactuals, -⟩ := bind_eq_ok_iff.mp hv
  obtain rfl := getActuals_eq_ok hactuals
  simp only [instanceObj, hactuals]
  rfl

/-- The entry of a component has its formal parameters, whose names differ. -/
theorem formals_of_componentObj {comp : Lang.Component} {obj : Lang.ComponentObj}
    (h : Lang.componentObj comp = .ok obj) :
    (comp.formals.map Lang.Formal.argName).Nodup ∧
      obj.formals = comp.formals.map fun f => ⟨f.argName, f.argDefault⟩ := by
  obtain ⟨formals, hformals, h⟩ := bind_eq_ok_iff.mp h
  obtain ⟨_, -, h⟩ := bind_eq_ok_iff.mp h
  obtain rfl := pure_eq_ok_iff.mp h
  exact getFormals_eq_ok_iff.mp hformals

/-- References are to components of the app, by names that do not stand for a component and a device. -/
structure Scoped (app : Lang.App) (act : Lang.Actor) : Prop where
  type : ∀ inst ∈ act.instances, inst.type ∈ app.components
  kind : ∀ comp ∈ app.components, ∀ comp' ∈ app.components, comp.name = comp'.name →
    comp.ioComponent = comp'.ioComponent

/-- What the model has of an actor. -/
structure Compiled (gModel : AppObj) (act : Lang.Actor) (model : ActorObj) : Prop where
  actor : gModel.actors.get? act.name = some model
  nodup : (act.formals.map Lang.Formal.argName).Nodup
  formals : model.formals = act.formals.map fun f => ⟨f.argName, f.argDefault⟩
  instances : model.instances.items = act.instances.map fun inst => (inst.name, ⟨inst.type.name, inst.actuals⟩)
  /-- The entry of a component is among the components, or that of a device among the devices alone. -/
  type : ∀ inst ∈ act.instances, ∃ obj, Lang.componentObj inst.type = .ok obj ∧
    if inst.type.ioComponent then
      gModel.components.get? inst.type.name = none ∧ gModel.devices.get? inst.type.name = some obj
    else gModel.components.get? inst.type.name = some obj

/-- **The compiler keeps what an actor says.** -/
theorem compiled {app : Lang.App} {gModel : AppObj} (h : Lang.appObj app = .ok gModel) {act : Lang.Actor}
    (hact : act ∈ app.actors) (hscope : Scoped app act) : ∃ model, Compiled gModel act model := by
  obtain ⟨devices, hdevices, h⟩ := bind_eq_ok_iff.mp h
  obtain ⟨components, hcomponents, h⟩ := bind_eq_ok_iff.mp h
  obtain ⟨actors, hactors, h⟩ := bind_eq_ok_iff.mp h
  obtain rfl := pure_eq_ok_iff.mp h
  have hlists := (Dict.foldlM_fresh_eq_ok_iff (f := Lang.actorObj)
    (e := fun act => Lang.CompileError.semanticError (.actorName act.name))).mp hactors
  obtain ⟨model, hmodel, hget⟩ := hlists.2.get? hact
  obtain ⟨formals, hformals, hmodel⟩ := bind_eq_ok_iff.mp hmodel
  obtain ⟨_, -, hmodel⟩ := bind_eq_ok_iff.mp hmodel
  obtain ⟨instances, hinstances, hmodel⟩ := bind_eq_ok_iff.mp hmodel
  obtain rfl := pure_eq_ok_iff.mp hmodel
  obtain ⟨hnodup, hobjs⟩ := getFormals_eq_ok_iff.mp hformals
  refine ⟨_, hget, hnodup, hobjs, getInstances_eq_ok hinstances, fun inst hinst => ?_⟩
  have hmem := hscope.type inst hinst
  obtain ⟨-, hdev⟩ := componentObjs_eq_ok_iff.mp hdevices
  obtain ⟨-, hcomp⟩ := componentObjs_eq_ok_iff.mp hcomponents
  cases hio : inst.type.ioComponent with
  | true =>
    obtain ⟨obj, hobj, hget⟩ := hdev.get? (List.mem_filter.mpr ⟨hmem, by simpa using hio⟩)
    refine ⟨obj, hobj, (if_pos rfl).mpr ⟨?_, hget⟩⟩
    rw [Dict.get?_eq_none_iff, Dict.mem_iff_mem_keys, hcomp.keys]
    intro hname
    obtain ⟨comp, hc, heq⟩ := List.mem_map.mp hname
    obtain ⟨hc, hkind⟩ := List.mem_filter.mp hc
    rw [hscope.kind comp hc inst.type hmem heq, hio] at hkind
    contradiction
  | false =>
    obtain ⟨obj, hobj, hget⟩ := hcomp.get? (List.mem_filter.mpr ⟨hmem, by simpa using hio⟩)
    exact ⟨obj, hobj, hget⟩

/-! ### The table of parameters -/

/-- The default of a parameter. -/
theorem get?_defaults {F : Type} {formals : List (Formal F)} (h : (formals.map Formal.name).Nodup) (p : Text) :
    (defaults formals).get? p = (formals.find? fun f => f.name = p).map Formal.default := by
  induction formals using List.reverseRecOn with
  | nil => rfl
  | append_singleton formals f ih =>
    rw [List.map_append, List.nodup_append] at h
    have hset : defaults (formals ++ [f]) = (defaults formals).set f.name f.default := List.foldl_concat ..
    rw [hset, Dict.get?_set, ih h.1, List.find?_append]
    split_ifs with hp
    · have hnone : (formals.find? fun f => f.name = p) = none := by
        rw [List.find?_eq_none]
        intro g hg heq
        exact h.2.2 _ (List.mem_map_of_mem hg) _ (List.mem_singleton_self _) ((of_decide_eq_true heq).trans hp)
      rw [hnone, Option.none_or, List.find?_singleton, if_pos (decide_eq_true hp.symm)]
      rfl
    · rw [List.find?_singleton, if_neg (by simpa using Ne.symm hp), Option.or_none]

/-- A launch gives values to parameters of an actor. -/
structure Launch (fl : FloatText Double) (act : Lang.Actor) (dep : Lang.Depl.Actor) extends Given fl where
  formals_eq : formals = act.formals.map fun f => ⟨f.argName, f.argDefault.map ofModel⟩
  actuals_eq : actuals = deployed dep

/-- All values that are given survive. -/
def SurvivesAll {F : Type} {fl : FloatText F} (d : Given fl) : Prop :=
  ∀ a ∈ d.actuals, ∀ v, (defaults d.formals).get? a.name = some v → Survives v a.value

theorem convert_of_survives {F : Type} {fl : FloatText F} {d : Given fl} :
    SurvivesAll d ↔ ∀ a ∈ d.actuals, ∀ v, (defaults d.formals).get? a.name = some v →
      convert fl v (['-', '-'] ++ a.name, a.value.text fl) = .ok a.value := by
  refine forall₄_congr fun a ha v hv => (convert_text_iff fl _ (fun w hw => ?_) fun s hs hv' => ?_).symm
  · exact d.typed a ha w (hw ▸ hv)
  · exact d.plain a ha s hs (hv' ▸ hv)

theorem deployed_eq (dep : Lang.Depl.Actor) :
    deployed dep = dep.actuals.map fun actual => ⟨actual.argName, ofModel actual.argValue.text⟩ := by
  rw [deployed, Lang.Depl.DeploymentModel.getActuals, Lang.Depl.foldl_concat_map, List.map_map]
  rfl

variable {fl : FloatText Double} {act : Lang.Actor} {dep : Lang.Depl.Actor}

/-- **The table has what the deployment and the model say.** -/
theorem Launch.params (d : Launch fl act dep) (hnodup : (act.formals.map Lang.Formal.argName).Nodup)
    (h : SurvivesAll d.toGiven) : ∃ params, parseParams fl d.formals (buildArgs fl (deployed dep)) = .ok params ∧
      ∀ p, params.get? p = (parameter act dep p).map fun v => some (ofModel v) := by
  obtain ⟨params, hparse, hin, hout⟩ := parseParams_buildArgs d.toGiven (convert_of_survives.mp h)
  rw [d.actuals_eq] at hparse hin hout
  refine ⟨params, hparse, fun p => ?_⟩
  rw [parameter]
  cases hgiven : dep.actuals.find? fun actual => actual.argName = p with
  | some actual =>
    have hname := List.find?_some hgiven
    obtain rfl : actual.argName = p := of_decide_eq_true hname
    exact hin ⟨actual.argName, ofModel actual.argValue.text⟩
      (deployed_eq dep ▸ List.mem_map.mpr ⟨actual, List.mem_of_find?_eq_some hgiven, rfl⟩)
  | none =>
    have hnot : p ∉ (deployed dep).map Actual.name := by
      rw [deployed_eq, List.map_map]
      intro hp
      obtain ⟨actual, hactual, rfl⟩ := List.mem_map.mp hp
      exact List.find?_eq_none.mp hgiven actual hactual (decide_eq_true rfl)
    have hdefault := hout p hnot
    have hrequired := d.required p
    rw [d.formals_eq] at hdefault hrequired
    rw [d.actuals_eq] at hrequired
    rw [get?_defaults (by rwa [List.map_map]), List.find?_map, Option.map_map] at hdefault hrequired
    rw [hdefault]
    simp only [Function.comp_def] at hrequired ⊢
    cases hfind : act.formals.find? fun f => f.argName = p with
    | none => rfl
    | some f =>
      rw [hfind] at hrequired
      simp only [Option.map_some, Option.bind_some]
      cases hval : f.argDefault with
      | none =>
        simp only [Option.map_some, hval, Option.map_none, forall_const] at hrequired
        exact absurd hrequired hnot
      | some v => rfl

/-! ### The arguments -/

variable {params : Params Double} (hparams : ∀ p, params.get? p = (parameter act dep p).map fun v => some (ofModel v))

include hparams in
/-- The value of an argument is the one that the models say. -/
theorem argValue_eq_ok_iff (inst : Lang.Instance) (formal : Lang.Formal) {value : Option (Value Double)} :
    argValue params inst.name inst.actuals ⟨formal.argName, formal.argDefault⟩ = .ok value ↔
      ∃ v, argument act dep inst formal = some v ∧ some (ofModel v) = value := by
  rw [argValue, argument]
  cases inst.actuals.find? fun actual => actual.argName = formal.argName with
  | some actual =>
    simp only
    cases actual.argValue with
    | value v => simp
    | param name =>
      simp only [hparams name]
      cases parameter act dep name with
      | none => simp
      | some v => simp
  | none =>
    simp only
    cases formal.argDefault with
    | none => simp
    | some v => simp

include hparams in
/-- The arguments are those that the models say, if they say one for each formal parameter. -/
theorem buildInstArgs_eq_ok_iff {inst : Lang.Instance} (hnodup : (inst.type.formals.map Lang.Formal.argName).Nodup)
    {args : Args} :
    buildInstArgs params inst.name (inst.type.formals.map fun f => ⟨f.argName, f.argDefault⟩) inst.actuals = .ok args ↔
      (∀ formal ∈ inst.type.formals, (argument act dep inst formal).isSome) ∧
        args.items = inst.type.formals.map fun formal =>
          (formal.argName, (argument act dep inst formal).map ofModel) := by
  have hnames : ((inst.type.formals.map fun f : Lang.Formal => (⟨f.argName, f.argDefault⟩ : FormalObj)).map
      FormalObj.name).Nodup := by
    rwa [List.map_map]
  rw [buildInstArgs, Dict.foldlM_set_eq_ok_iff hnames]
  have hlists : (∀ formal ∈ inst.type.formals, (argument act dep inst formal).isSome) →
      (args.Lists FormalObj.name (argValue params inst.name inst.actuals)
          (inst.type.formals.map fun f => ⟨f.argName, f.argDefault⟩) ↔
        args.items = inst.type.formals.map fun formal =>
          (formal.argName, (argument act dep inst formal).map ofModel)) := by
    intro hsome
    rw [Dict.lists_iff_of_ok (g := fun f => (argument act dep inst ⟨f.name, f.default⟩).map ofModel), List.map_map]
    · rfl
    · intro f hf
      obtain ⟨formal, hformal, rfl⟩ := List.mem_map.mp hf
      obtain ⟨v, hv⟩ := Option.isSome_iff_exists.mp (hsome formal hformal)
      refine (argValue_eq_ok_iff hparams inst formal).mpr ⟨v, hv, ?_⟩
      simp only [hv, Option.map_some]
  constructor
  · intro h
    have hsome : ∀ formal ∈ inst.type.formals, (argument act dep inst formal).isSome := by
      intro formal hformal
      obtain ⟨value, hvalue, -⟩ := h.get? (List.mem_map_of_mem hformal)
      obtain ⟨v, hv, -⟩ := (argValue_eq_ok_iff hparams inst formal).mp hvalue
      rw [hv]
      rfl
    exact ⟨hsome, (hlists hsome).mp h⟩
  · rintro ⟨hsome, hitems⟩
    exact (hlists hsome).mpr hitems

include hparams in
/-- A part is built if the models say all its arguments, and with these. -/
theorem buildPart_eq_ok_iff {gModel : AppObj} {model : ActorObj} (hcompiled : Compiled gModel act model)
    {inst : Lang.Instance} (hinst : inst ∈ act.instances) {p : Part} :
    buildPart gModel params (inst.name, ⟨inst.type.name, inst.actuals⟩) = .ok p ↔
      (∀ formal ∈ inst.type.formals, (argument act dep inst formal).isSome) ∧ p.Of act dep inst := by
  obtain ⟨obj, hobj, htype⟩ := hcompiled.type inst hinst
  obtain ⟨hnodup, hformals⟩ := formals_of_componentObj hobj
  have hpart : buildPart gModel params (inst.name, ⟨inst.type.name, inst.actuals⟩) = do
      return ⟨inst.type.ioComponent, inst.name, inst.type.name,
        ← buildInstArgs params inst.name obj.formals inst.actuals⟩ := by
    rw [buildPart]
    cases hio : inst.type.ioComponent with
    | true =>
      rw [hio, if_pos rfl] at htype
      simp only [htype.1, htype.2]
    | false =>
      rw [hio, if_neg (by decide)] at htype
      simp only [htype]
  rw [hpart, hformals, bind_eq_ok_iff]
  constructor
  · rintro ⟨args, hargs, hp⟩
    obtain rfl := pure_eq_ok_iff.mp hp
    obtain ⟨hsome, hitems⟩ := (buildInstArgs_eq_ok_iff hparams hnodup).mp hargs
    exact ⟨hsome, rfl, rfl, rfl, hitems⟩
  · rintro ⟨hsome, hp⟩
    refine ⟨p.instArgs, (buildInstArgs_eq_ok_iff hparams hnodup).mpr ⟨hsome, hp.instArgs⟩, pure_eq_ok_iff.mpr ?_⟩
    rw [← hp.ioComp, ← hp.instName, ← hp.instType]

/-- An actor builds its instances exactly if the models say a value for each formal parameter of each of them, and
with these values. -/
theorem actorParts_eq_ok_iff {app : Lang.App} {gModel : AppObj} (hcompile : Lang.appObj app = .ok gModel)
    (hact : act ∈ app.actors) (hscope : Scoped app act) (d : Launch fl act dep) (hsurvive : SurvivesAll d.toGiven)
    (parts : List Part) :
    actorParts fl gModel act.name (buildArgs fl (deployed dep)) = .ok parts ↔
      (∀ inst ∈ act.instances, ∀ formal ∈ inst.type.formals, (argument act dep inst formal).isSome) ∧
        List.Forall₂ (fun inst p => p.Of act dep inst) act.instances parts := by
  obtain ⟨model, hcompiled⟩ := compiled hcompile hact hscope
  obtain ⟨params, hparse, hparams⟩ := d.params hcompiled.nodup hsurvive
  have hformals : model.formals.map FormalObj.formal = d.formals := by
    rw [hcompiled.formals, d.formals_eq, List.map_map]
    rfl
  have hparts : actorParts fl gModel act.name (buildArgs fl (deployed dep)) =
      model.instances.items.mapM (buildPart gModel params) := by
    rw [actorParts, hcompiled.actor]
    simp only [hformals, hparse]
    rfl
  have hmem : ∀ R : Lang.Instance → Part → Prop, List.Forall₂ R act.instances parts ↔
      List.Forall₂ (fun inst p => inst ∈ act.instances ∧ R inst p) act.instances parts := by
    intro R
    rw [List.forall₂_and_left]
    exact (and_iff_right fun _ h => h).symm
  have hbuild : (fun (inst : Lang.Instance) (p : Part) => inst ∈ act.instances ∧
        buildPart gModel params (inst.name, ⟨inst.type.name, inst.actuals⟩) = .ok p) =
      fun inst p => inst ∈ act.instances ∧
        (∀ formal ∈ inst.type.formals, (argument act dep inst formal).isSome) ∧ p.Of act dep inst := by
    funext inst p
    exact propext (and_congr_right fun hinst => buildPart_eq_ok_iff hparams hcompiled hinst)
  rw [hparts, mapM_eq_ok_iff, hcompiled.instances, List.forall₂_map_left_iff, hmem, hbuild, ← hmem,
    List.forall₂_and_left]

/-- **The arguments are those of the models.** An actor that is launched calls the constructors of its instances
exactly if the models say a value for each formal parameter of each of them, and calls each with the values that they
say. -/
theorem arguments_preserved {app : Lang.App} {gModel : AppObj} (hcompile : Lang.appObj app = .ok gModel)
    (hact : act ∈ app.actors) (hscope : Scoped app act) (d : Launch fl act dep) (hsurvive : SurvivesAll d.toGiven)
    {models : Text → Text → Option AppObj} {appName appModelPath : Text}
    (hmodel : models appName appModelPath = some gModel)
    (hreaches : Reaches [appName, appModelPath, act.name] (buildArgs fl (deployed dep))) (parts : List Part) :
    startActor fl models appName appModelPath act.name (buildArgs fl (deployed dep)) = .ok parts ↔
      (∀ inst ∈ act.instances, ∀ formal ∈ inst.type.formals, (argument act dep inst formal).isSome) ∧
        List.Forall₂ (fun inst p => p.Of act dep inst) act.instances parts := by
  have hdashes : (buildArgs fl (deployed dep)).head? ≠ some ['-', '-'] := by
    rw [← d.actuals_eq]
    exact d.toGiven.head_buildArgs
  have hargv : ArgParse.parseKnownArgs processOptions 3
      ([appName, appModelPath, act.name] ++ buildArgs fl (deployed dep)) =
        some ([appName, appModelPath, act.name], buildArgs fl (deployed dep)) :=
    hreaches.parseKnownArgs (List.cons_ne_nil _ _) hdashes
  rw [← actorParts_eq_ok_iff hcompile hact hscope d hsurvive, startActor, hreaches.popen, pure_bind, main, hargv]
  simp only [hmodel, mapError_eq_ok_iff]

/-! ### Devices -/

/-- A device that is started is that of a part, whose arguments are given to the formal parameters of the device. -/
structure DeviceLaunch (fl : FloatText Double) (inst : Lang.Instance) (p : Part) extends Given fl where
  formals_eq : formals = inst.type.formals.map fun f => ⟨f.argName, f.argDefault.map ofModel⟩
  actuals_eq : p.instArgs.items = actuals.map fun a => (a.name, some a.value)

/-- In a device the arguments are what the table has under the names of the formal parameters. -/
theorem buildInstArgs_device_eq_ok_iff {iName : Text} {formals : List FormalObj}
    (hnodup : (formals.map FormalObj.name).Nodup) {args : Args} :
    buildInstArgs params iName formals (formals.map fun arg => ⟨arg.name, .param arg.name⟩) = .ok args ↔
      args.items.map (fun i => (i.1, some i.2)) = formals.map fun f => (f.name, params.get? f.name) := by
  have hvalue : ∀ f ∈ formals, argValue params iName (formals.map fun arg => ⟨arg.name, .param arg.name⟩) f =
      match params.get? f.name with
      | some value => pure value
      | none => throw (.unspecified f.name iName) := by
    intro f hf
    obtain ⟨g, hg⟩ : ∃ g, (formals.find? fun g => g.name = f.name) = some g := by
      rw [← Option.isSome_iff_exists, List.find?_isSome]
      exact ⟨f, hf, decide_eq_true rfl⟩
    have hname := List.find?_some hg
    rw [argValue, List.find?_map]
    simp only [Function.comp_def, hg, Option.map_some, of_decide_eq_true hname]
  rw [buildInstArgs, Dict.foldlM_set_eq_ok_iff hnodup, Dict.Lists, List.map_congr_left
    fun f hf => congrArg (Prod.mk f.name) (hvalue f hf)]
  constructor
  · intro h
    have hoption := congrArg (List.map fun i => (i.1, i.2.toOption)) h
    rw [List.map_map, List.map_map] at hoption
    refine hoption.trans (List.map_congr_left fun f _ => ?_)
    simp only [Function.comp]
    cases params.get? f.name <;> rfl
  · intro h
    have hexcept := congrArg (List.map fun i => (i.1, match i.2 with
      | some value => (pure value : Except BuildError (Option (Value Double)))
      | none => throw (BuildError.unspecified i.1 iName))) h
    rw [List.map_map, List.map_map] at hexcept
    exact hexcept

/-- A device gets the arguments of its part exactly if they survive: the parameters of the actor that is made up for it
are those of the device. -/
theorem deviceArgs_eq_ok_iff {app : Lang.App} {gModel : AppObj} (hcompile : Lang.appObj app = .ok gModel)
    (hact : act ∈ app.actors) (hscope : Scoped app act) {inst : Lang.Instance} (hinst : inst ∈ act.instances)
    (hio : inst.type.ioComponent = true) {p : Part} (hp : p.Of act dep inst) (d : DeviceLaunch fl inst p)
    (hactor : '.' ∉ act.name) (hname : '.' ∉ inst.name) :
    deviceArgs fl gModel p.instType (qualifiedName act.name p.instName) (buildArgs fl d.actuals) = .ok p.instArgs ↔
      SurvivesAll d.toGiven := by
  obtain ⟨model, hcompiled⟩ := compiled hcompile hact hscope
  obtain ⟨obj, hobj, htype⟩ := hcompiled.type inst hinst
  obtain ⟨hnodup, hformals⟩ := formals_of_componentObj hobj
  rw [hio, if_pos rfl] at htype
  have hnodup' : (obj.formals.map FormalObj.name).Nodup := by
    rw [hformals, List.map_map]
    exact hnodup
  have hdformals : obj.formals.map FormalObj.formal = d.formals := by
    rw [hformals, d.formals_eq, List.map_map]
    rfl
  have hnames : obj.formals.map FormalObj.name = d.actuals.map Actual.name := by
    have hkeys := congrArg (List.map Prod.fst) (hp.instArgs.symm.trans d.actuals_eq)
    rw [List.map_map, List.map_map] at hkeys
    rw [hformals, List.map_map]
    exact hkeys
  have hsplit : (qualifiedName act.name p.instName).splitOn '.' = [act.name, inst.name] := by
    rw [qualifiedName, hp.instName, List.splitOn_append_cons_self_of_not_mem hactor,
      List.splitOn_eq_singleton hname]
  rw [deviceArgs, hsplit, hp.instType]
  simp only [htype.2, hcompiled.actor, hdformals]
  rw [bind_eq_ok_iff]
  simp only [mapError_eq_ok_iff, buildInstArgs_device_eq_ok_iff hnodup', d.actuals_eq]
  constructor
  · rintro ⟨params, hparse, hitems⟩
    rw [convert_of_survives, ← restored_iff_convert]
    refine ⟨params, hparse, fun a ha => ?_⟩
    have hmem : (a.name, some (some a.value)) ∈ obj.formals.map fun f => (f.name, params.get? f.name) := by
      rw [← hitems, List.map_map]
      exact List.mem_map.mpr ⟨a, ha, rfl⟩
    obtain ⟨f, -, hf⟩ := List.mem_map.mp hmem
    obtain ⟨hname, hvalue⟩ := Prod.mk.inj hf
    rw [← hname]
    exact hvalue
  · intro hsurvive
    obtain ⟨params, hparse, hin, -⟩ := parseParams_buildArgs d.toGiven (convert_of_survives.mp hsurvive)
    refine ⟨params, hparse, ?_⟩
    have hformals' : obj.formals.map (fun f => (f.name, params.get? f.name)) =
        (d.actuals.map Actual.name).map fun name => (name, params.get? name) := by
      rw [← hnames, List.map_map]
      rfl
    rw [hformals', List.map_map, List.map_map]
    exact List.map_congr_left fun a ha => congrArg (Prod.mk a.name) (hin a ha).symm

/-- **A device has the arguments of its part exactly if they survive** another time as text: the device is started
with their texts. -/
theorem device_arguments_iff {app : Lang.App} {gModel : AppObj} (hcompile : Lang.appObj app = .ok gModel)
    (hact : act ∈ app.actors) (hscope : Scoped app act) {inst : Lang.Instance} (hinst : inst ∈ act.instances)
    (hio : inst.type.ioComponent = true) {p : Part} (hp : p.Of act dep inst) (d : DeviceLaunch fl inst p)
    (hactor : '.' ∉ act.name) (hname : '.' ∉ inst.name) {models : Text → Text → Option AppObj}
    {appName appModelPath : Text} (hmodel : models appName appModelPath = some gModel)
    (hreaches : Reaches [appName, appModelPath, p.instType, qualifiedName act.name p.instName]
      (handleDeviceReq (requestDevice fl d.actuals))) :
    startDevice fl models appName appModelPath p.instType (qualifiedName act.name p.instName)
        (handleDeviceReq (requestDevice fl d.actuals)) = .ok p.instArgs ↔
      SurvivesAll d.toGiven := by
  rw [handleDeviceReq_requestDevice] at hreaches ⊢
  have hargv : ArgParse.parseKnownArgs processOptions 4
      ([appName, appModelPath, p.instType, qualifiedName act.name p.instName] ++ buildArgs fl d.actuals) =
        some ([appName, appModelPath, p.instType, qualifiedName act.name p.instName], buildArgs fl d.actuals) :=
    hreaches.parseKnownArgs (List.cons_ne_nil _ _) d.toGiven.head_buildArgs
  rw [← deviceArgs_eq_ok_iff hcompile hact hscope hinst hio hp d hactor hname, startDevice, hreaches.popen, pure_bind,
    dmain, hargv]
  simp only [hmodel, mapError_eq_ok_iff]

/-! ### An app -/

/-- A text for doubles. -/
def fractionText : Double → Text
  | .finite q _ => strInt q.num ++ 'e' :: strInt q.den
  | .inf true => ['-', 'i', 'n', 'f']
  | .inf false => ['i', 'n', 'f']

theorem notMem_strInt {c : Char} (hdigit : c.isDigit = false) (hminus : c ≠ '-') (n : ℤ) : c ∉ strInt n := by
  intro h
  rcases mem_strInt h with h | h
  · rw [hdigit] at h
    contradiction
  · exact hminus h

theorem strInt_injective : Function.Injective strInt := by
  intro m n h
  have hread := congrArg readInt h
  rw [readInt_strInt, readInt_strInt] at hread
  exact Option.some.inj hread

theorem fractionText_injective : Function.Injective fractionText := by
  have hi : ∀ q h b, fractionText (.finite q h) ≠ fractionText (.inf b) := by
    intro q h b heq
    have hmem : 'i' ∈ fractionText (.finite q h) := by
      rw [heq]
      cases b <;> decide
    rcases List.mem_append.mp hmem with hmem | hmem
    · exact notMem_strInt (by decide) (by decide) _ hmem
    · rcases List.mem_cons.mp hmem with hmem | hmem
      · exact absurd hmem (by decide)
      · exact notMem_strInt (by decide) (by decide) _ hmem
  intro x y h
  cases x with
  | finite q hq =>
    cases y with
    | finite r hr =>
      have he : ∀ n, 'e' ∉ strInt n := notMem_strInt (by decide) (by decide)
      obtain ⟨hnum, hden⟩ := (append_separator_inj (he _) (he _)).mp h
      have hqr : q = r := Rat.ext (strInt_injective hnum) (Int.ofNat_inj.mp (strInt_injective hden))
      subst hqr
      rfl
    | inf b => exact absurd h (hi q hq b)
  | inf a =>
    cases y with
    | finite r hr => exact absurd h.symm (hi r hr a)
    | inf b =>
      congr
      revert h
      cases a <;> cases b <;> decide

open Classical in
/-- Doubles with this text. -/
noncomputable def fractions : FloatText Double where
  str := fractionText
  read t := if h : ∃ x, fractionText x = t then some h.choose else none
  read_str x := by
    have h : ∃ y, fractionText y = fractionText x := ⟨x, rfl⟩
    rw [dif_pos h, fractionText_injective h.choose_spec]
  not_int x := by
    cases x with
    | finite q h => exact ⟨'e', by simp [fractionText], by decide⟩
    | inf b => exact ⟨'n', by cases b <;> decide, by decide⟩
  not_capital x c hc := by
    cases x with
    | finite q h =>
      rw [fractionText, List.mem_append, List.mem_cons] at hc
      have hcapital : ∀ n, c ∈ strInt n → c ≠ 'T' ∧ c ≠ 'F' := by
        intro n hn
        constructor
        · rintro rfl
          exact notMem_strInt (by decide) (by decide) n hn
        · rintro rfl
          exact notMem_strInt (by decide) (by decide) n hn
      rcases hc with hc | rfl | hc
      · exact hcapital _ hc
      · decide
      · exact hcapital _ hc
    | inf b =>
      constructor <;> rintro rfl <;> revert hc <;> cases b <;> decide

/-- A component `C` with the parameters `x` and `y = 5`. -/
def exampleComponent : Lang.Component where
  ioComponent := false
  name := ['C']
  formals := [⟨['x'], none⟩, ⟨['y'], some (.number (.int 5))⟩]
  language := none
  scheduler := none
  ports := []

/-- A device `D` with the parameter `z`. -/
def exampleDevice : Lang.Component where
  ioComponent := true
  name := ['D']
  formals := [⟨['z'], none⟩]
  language := none
  scheduler := none
  ports := []

/-- An instance of the device that gives it the parameter `n`. -/
def exampleInstance : Lang.Instance := ⟨['d'], exampleDevice, [⟨['z'], .param ['n']⟩]⟩

/-- An actor `A(n)` with an instance of the component and one of the device. -/
def exampleActor : Lang.Actor where
  rt := false
  name := ['A']
  formals := [⟨['n'], none⟩]
  locals := []
  internals := []
  usage := []
  scheduler := none
  instances := [⟨['c'], exampleComponent, [⟨['x'], .param ['n']⟩]⟩, exampleInstance]

/-- The app. -/
def exampleApp : Lang.App where
  name := ['a']
  messages := []
  groups := []
  libraries := []
  components := [exampleComponent, exampleDevice]
  actors := [exampleActor]

/-- It is deployed as `A(n = 3)`. -/
def exampleDeployment : Lang.Depl.Actor := ⟨['A'], [⟨['n'], .value (.number (.int 3))⟩]⟩

theorem exampleScoped : Scoped exampleApp exampleActor where
  type inst hinst := by
    simp only [exampleActor, List.mem_cons, List.not_mem_nil, or_false] at hinst
    rcases hinst with rfl | rfl
    · exact List.mem_cons_self
    · exact List.mem_cons_of_mem _ List.mem_cons_self
  kind comp hcomp comp' hcomp' := by
    simp only [exampleApp, List.mem_cons, List.not_mem_nil, or_false] at hcomp hcomp'
    rcases hcomp with rfl | rfl <;> rcases hcomp' with rfl | rfl <;> decide

/-- What is given to a parameter of the name and of no default. -/
def givenInt (name : Text) (h : name ≠ [] ∧ '=' ∉ name) (n : ℤ) : Given fractions where
  formals := [⟨name, none⟩]
  actuals := [⟨name, .int n⟩]
  nodup := List.nodup_singleton _
  known := by simp
  identifier := by simpa using h
  typed a ha v hv := by
    obtain rfl := List.mem_singleton.mp ha
    simp [defaults] at hv
  plain a ha s hs := by
    obtain rfl := List.mem_singleton.mp ha
    contradiction
  required p hp := by
    have hnodup : ([⟨name, none⟩] : List (Formal Double)).map Formal.name = [name] := rfl
    rw [get?_defaults (hnodup ▸ List.nodup_singleton name)] at hp
    by_contra hne
    simp only [List.map_singleton, List.mem_singleton] at hne
    simp [Ne.symm hne] at hp

theorem survivesAll_givenInt (name : Text) (h : name ≠ [] ∧ '=' ∉ name) (n : ℤ) :
    SurvivesAll (givenInt name h n) := by
  intro a ha v _ b hb
  obtain rfl := List.mem_singleton.mp ha
  contradiction

/-- The names of the example, and an argument, have neither a dash nor a null byte. -/
theorem exampleReaches {names : List Text} (hnames : ∀ name ∈ names, '-' ∉ name ∧ '\x00' ∉ name) {c : Char}
    (hc : c = 'n' ∨ c = 'z') : Reaches names [['-', '-', c], ['3']] where
  dash name hname hhead := (hnames name hname).1 (List.mem_of_mem_head? hhead)
  kept := by rcases hc with rfl | rfl <;> decide
  null arg harg := by
    rcases List.mem_append.mp harg with harg | harg
    · exact (hnames arg harg).2
    · simp only [List.mem_cons, List.not_mem_nil, or_false] at harg
      rcases hc with rfl | rfl <;> rcases harg with rfl | rfl <;> decide

/-- The constructor of `C` is called with `x = 3` and `y = 5`, and `D` is asked for with `z = 3`. -/
theorem arguments_of_app : ∃ gModel parts, Lang.appObj exampleApp = .ok gModel ∧
    startActor fractions (fun _ _ => some gModel) ['a'] ['m'] ['A']
        (buildArgs fractions (deployed exampleDeployment)) = .ok parts ∧
      parts.map (fun p => (p.instName, p.instArgs.items)) =
        [(['c'], [(['x'], some (.int 3)), (['y'], some (.int 5))]), (['d'], [(['z'], some (.int 3))])] := by
  have hargs : ([(['x'], some (.int 3)), (['y'], some (.int 5))] : List (Text × Option (Value Double))).map Prod.fst =
    [['x'], ['y']] := rfl
  refine ⟨_, [⟨false, ['c'], ['C'], ⟨[(['x'], some (.int 3)), (['y'], some (.int 5))], hargs ▸ by decide⟩⟩,
    ⟨true, ['d'], ['D'], ⟨[(['z'], some (.int 3))], List.nodup_singleton _⟩⟩], rfl, ?_, rfl⟩
  let d : Launch fractions exampleActor exampleDeployment :=
    { givenInt ['n'] (by decide) 3 with formals_eq := rfl, actuals_eq := rfl }
  have hreaches : Reaches [['a'], ['m'], ['A']] (buildArgs fractions (deployed exampleDeployment)) :=
    exampleReaches (by decide) (by decide)
  refine (arguments_preserved (Eq.refl (Lang.appObj exampleApp)) List.mem_cons_self exampleScoped d
    (survivesAll_givenInt ['n'] (by decide) 3) rfl hreaches _).mpr ⟨fun inst hinst formal hformal => ?_, ?_⟩
  · simp only [exampleActor, List.mem_cons, List.not_mem_nil, or_false] at hinst
    rcases hinst with rfl | rfl
    · simp only [exampleComponent, List.mem_cons, List.not_mem_nil, or_false] at hformal
      rcases hformal with rfl | rfl <;> decide
    · obtain rfl := List.mem_singleton.mp hformal
      decide
  · exact .cons ⟨rfl, rfl, rfl, rfl⟩ (.cons ⟨rfl, rfl, rfl, rfl⟩ .nil)

/-- The device has `z = 3`. -/
theorem device_arguments_of_app : ∃ gModel args, Lang.appObj exampleApp = .ok gModel ∧
    startDevice fractions (fun _ _ => some gModel) ['a'] ['m'] ['D'] ['A', '.', 'd']
        (handleDeviceReq (requestDevice fractions [⟨['z'], .int 3⟩])) = .ok args ∧
      args.items = [(['z'], some (.int 3))] := by
  let p : Part := ⟨true, ['d'], ['D'], ⟨[(['z'], some (.int 3))], List.nodup_singleton _⟩⟩
  have hp : p.Of exampleActor exampleDeployment exampleInstance := ⟨rfl, rfl, rfl, rfl⟩
  let d : DeviceLaunch fractions exampleInstance p :=
    { givenInt ['z'] (by decide) 3 with formals_eq := rfl, actuals_eq := rfl }
  have hreaches : Reaches [['a'], ['m'], ['D'], ['A', '.', 'd']]
      (handleDeviceReq (requestDevice fractions d.actuals)) :=
    exampleReaches (by decide) (by decide)
  exact ⟨_, p.instArgs, rfl, (device_arguments_iff (Eq.refl (Lang.appObj exampleApp)) List.mem_cons_self exampleScoped
    (List.mem_cons_of_mem _ List.mem_cons_self) rfl hp d (by decide) (by decide) rfl hreaches).mpr
      (survivesAll_givenInt ['z'] (by decide) 3), rfl⟩

end Riaps.Actor
