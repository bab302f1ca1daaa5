import Riaps.Lang.Usage

/-!
# The compiler of application models

The parser builds the objects of a model and then calls the object processors, from the
inside out: those of the ports convert their times, those of the instances and of the actors
check the message types. After that `RiapsModel2JSON` makes of each app the tables that the
run time reads, and checks that names are not repeated.

`compileModel` accepts a model if nothing of this raises an exception. What is written to
files is not modelled.
-/

namespace Riaps.Lang

open Riaps.Foundation

/-! ### Object processors -/

/-- A time in milliseconds, as `timport_obj_processor` and `op_port_obj_processor` convert it; `0` is kept. -/
def convertSpec (spec : ℤ) (unit : Option TimeUnit) : Option ℤ :=
  if spec = 0 then some 0
  else
    let unit := match unit with
      | none => ['m', 's', 'e', 'c']
      | some unit => unit.text
    convertTime spec unit

/-- What an object processor raises. -/
inductive ProcessorError where
  | semanticError (e : SemanticError)
  | attributeError

/-- `actor_obj_processor`: the actor's `_messageNames`. -/
def actorObjProcessor (actor : Actor) : Except ProcessorError (List Text) :=
  let sharedMessageNames := actor.locals.filter fun name => name ∈ actor.internals
  if sharedMessageNames ≠ [] then throw (.semanticError (.shared actor.name sharedMessageNames))
  else pure (actor.locals ++ actor.internals)

/-- The message names of a port that `instance_obj_processor` looks at. -/
def portMessageNames : Port → Except ProcessorError (List Text)
  | .pub _ type _ | .sub _ type _ _ => pure [type]
  | .clt _ reqType _ _ | .op _ _ reqType _ _ _ =>
    match reqType with
    | some reqType => pure [reqType]
    | none => throw .attributeError
  | .tim .. | .ins .. => pure []

/-- `instance_obj_processor`. -/
def instanceObjProcessor (actor : Actor) (inst : Instance) : Except ProcessorError PUnit := do
  if inst.type.ioComponent then
    let messageNames ← actorObjProcessor actor
    let names ← inst.type.ports.mapM portMessageNames
    names.flatten.forM fun name =>
      if name ∈ messageNames then pure ⟨⟩ else throw (.semanticError (.nonLocal name inst.name inst.type.name))

/-- The object processors of an actor and what is in it. -/
def processActor (actor : Actor) : Except ProcessorError PUnit := do
  actor.instances.forM (instanceObjProcessor actor)
  let _ ← actorObjProcessor actor

/-! ### `RiapsModel2JSON` -/

structure FormalObj where
  name : Text
  default : Option Value

structure GroupObj where
  name : Text
  /-- `'default'` is `none`. -/
  kind : Option GroupKind
  message : Text
  timed : Bool
  params : Dict GroupParamName ℤ

/-- `getGroups`. -/
def getGroups (groups : List Group) : List GroupObj :=
  groups.map fun group => ⟨group.name, group.kind, group.message, group.timed,
    group.groupParams.foldl (fun params param => params.set param.1 param.2) .empty⟩

/-- `getFormals`. -/
def getFormals (formals : List Formal) : Except CompileError (List FormalObj) :=
  formals.foldlM (fun res formal =>
    if formal.argName ∈ res.map FormalObj.name then throw (.semanticError (.argumentName formal.argName))
    else pure (res ++ [⟨formal.argName, formal.argDefault⟩])) []

/-- The entry of a port: what it has of all the keys. -/
structure PortObj where
  type : Option Text
  reqType : Option Text
  repType : Option Text
  timed : Option Bool
  /-- In milliseconds. -/
  deadline : Option (Option ℤ)
  index : Option ℕ
  /-- In milliseconds. -/
  period : Option (Option ℤ)
  spec : Option Bool

/-- The entries of the ports, by their classes and names. -/
abbrev PortTable := PortClass → Dict Text PortObj

/-- `port.__class__`. -/
def Port.cls : Port → PortClass
  | .pub .. => .pub
  | .sub .. => .sub
  | .clt .. => .clt
  | .op .srv .. => .srv
  | .op .req .. => .req
  | .op .rep .. => .rep
  | .op .qry .. => .qry
  | .op .ans .. => .ans
  | .tim .. => .tim
  | .ins .. => .ins

/-- `msg.name`, of a message or `None`. -/
def messageName : Option Text → Except CompileError Text
  | some name => pure name
  | none => throw .attributeError

/-- `portObj`. -/
def portObj (portIndex : ℕ) : Port → Except CompileError PortObj
  | .pub _ type timed => pure ⟨some type, none, none, some timed, none, none, none, none⟩
  | .sub _ type timed w =>
    pure ⟨some type, none, none, some timed, some (convertSpec w.deadline w.unit), some portIndex, none, none⟩
  | .clt _ reqType repType timed => do
    let req ← messageName reqType
    let rep ← messageName repType
    return ⟨none, some req, some rep, some timed, none, none, none, none⟩
  | .op _ _ reqType repType timed w => do
    let req ← messageName reqType
    let rep ← messageName repType
    return ⟨none, some req, some rep, some timed, some (convertSpec w.deadline w.unit), some portIndex, none, none⟩
  | .tim _ spec periodUnit w =>
    pure ⟨none, none, none, none, some (convertSpec w.deadline w.unit), some portIndex,
      some (convertSpec spec periodUnit), none⟩
  | .ins _ spec => pure ⟨none, none, none, none, none, some portIndex, none, some spec⟩

/-- The variables of the loop in `getPorts`. -/
structure PortLoop where
  portNames : List Text
  portIndex : ℕ
  table : PortTable

/-- Its body. -/
def PortLoop.add (s : PortLoop) (port : Port) : Except CompileError PortLoop := do
  if port.name ∈ s.portNames then throw (.semanticError (.portName port.name))
  else
    let obj ← portObj s.portIndex port
    return {
      portNames := s.portNames ++ [port.name]
      portIndex := s.portIndex + if obj.index.isSome then 1 else 0
      table := Function.update s.table port.cls ((s.table port.cls).set port.name obj) }

/-- `getPorts`. -/
def getPorts (ports : List Port) : Except CompileError PortTable := do
  let s ← ports.foldlM PortLoop.add ⟨[], 1, fun _ => .empty⟩
  return s.table

structure ComponentObj where
  name : Text
  formals : List FormalObj
  /-- `'default'` is `none`. -/
  language : Option Language
  /-- That of a device is not there. -/
  scheduler : Option ComponentScheduler
  ports : PortTable

/-- The entry of a component or a device. -/
def componentObj (comp : Component) : Except CompileError ComponentObj := do
  let formals ← getFormals comp.formals
  let ports ← getPorts comp.ports
  return ⟨comp.name, formals, comp.language, if comp.ioComponent then none else comp.scheduler, ports⟩

/-- The entries of the devices, or of the components. -/
def componentObjs (io : Bool) (components : List Component) : Except CompileError (Dict Text ComponentObj) :=
  components.foldlM (fun res comp =>
    if comp.ioComponent = io then
      if comp.name ∈ res then throw (.semanticError (.componentName comp.name))
      else do
        let obj ← componentObj comp
        return res.set comp.name obj
    else pure res) .empty

/-- `getIOComponents`. -/
def getIOComponents : List Component → Except CompileError (Dict Text ComponentObj) := componentObjs true

/-- `getComponents`. -/
def getComponents : List Component → Except CompileError (Dict Text ComponentObj) := componentObjs false

structure InstanceObj where
  type : Text
  actuals : List Actual

/-- `getActuals`. -/
def getActuals (actuals : List Actual) : Except CompileError (List Actual) :=
  actuals.foldlM (fun res actual =>
    if actual.argName ∈ res.map Actual.argName then throw (.semanticError (.argument actual.argName))
    else pure (res ++ [actual])) []

/-- `getInstances`. -/
def getInstances (instances : List Instance) : Except CompileError (Dict Text InstanceObj) :=
  instances.foldlM (fun res inst =>
    if inst.name ∈ res then throw (.semanticError (.instanceName inst.name))
    else do
      let actuals ← getActuals inst.actuals
      return res.set inst.name ⟨inst.type.name, actuals⟩) .empty

inductive Policy where
  | rr | pri

/-- `getActorScheduler`. -/
def getActorScheduler : Option ActorScheduler → Option (Policy × ℤ)
  | none => none
  | some .rr => some (.rr, 0)
  | some (.priority priority) => some (.pri, priority)

structure ActorObj where
  realTime : Bool
  formals : List FormalObj
  locals : List Text
  internals : List Text
  usage : UsageObj
  scheduler : Option (Policy × ℤ)
  instances : Dict Text InstanceObj

/-- The entry of an actor. -/
def actorObj (act : Actor) : Except CompileError ActorObj := do
  let formals ← getFormals act.formals
  let usage ← getUsage act.usage
  let instances ← getInstances act.instances
  return ⟨act.rt, formals, act.locals, act.internals, usage, getActorScheduler act.scheduler, instances⟩

/-- `getActors`. -/
def getActors (actors : List Actor) : Except CompileError (Dict Text ActorObj) :=
  actors.foldlM (fun res act =>
    if act.name ∈ res then throw (.semanticError (.actorName act.name))
    else do
      let obj ← actorObj act
      return res.set act.name obj) .empty

structure AppObj where
  name : Text
  messages : List Text
  groups : List GroupObj
  libraries : List Text
  devices : Dict Text ComponentObj
  components : Dict Text ComponentObj
  actors : Dict Text ActorObj

/-- The entry of an app. -/
def appObj (app : App) : Except CompileError AppObj := do
  let devices ← getIOComponents app.components
  let components ← getComponents app.components
  let actors ← getActors app.actors
  return ⟨app.name, app.messages, getGroups app.groups, app.libraries, devices, components, actors⟩

/-! ### `compileModel` -/

/-- What becomes of an exception of an object processor. -/
def ProcessorError.compileError : ProcessorError → CompileError
  | .semanticError e => .langError e
  | .attributeError => .typeError

/-- `compileModel`, from the objects of the model on. -/
def compileModel (model : RIAPSModel) : Except CompileError (Dict Text AppObj) := do
  (model.apps.forM fun app => app.actors.forM processActor).mapError ProcessorError.compileError
  model.apps.foldlM (fun apps app => do
    let obj ← appObj app
    return apps.set app.name obj) .empty

end Riaps.Lang
