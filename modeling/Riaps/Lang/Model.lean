import Riaps.Foundation.Dict
import Riaps.Foundation.Floats
import Riaps.Foundation.PyText

/-!
# Application models

The objects that the parser builds from the text of a model, one type for each rule of
the grammar with the attributes that the compiler reads. A reference is the object that it
refers to: the component of an instance, and a message by its name, which is all that is
read of it. What is optional in the grammar and has no value otherwise is an `Option`; a
number that is left out is `0`.
-/

namespace Riaps.Lang

open Riaps.Foundation

/-- A value, of an argument or of a default. -/
inductive Value where
  | str (s : Text)
  | number (x : Number)
  | bool (b : Bool)

/-! ### Units -/

inductive TimeUnit where
  | sec | min | msec

inductive MemUnit where
  | mb | kb | gb

inductive SpaceUnit where
  | mb | gb

inductive RateUnit where
  | kbps | mbps

inductive BurstUnit where
  | kb | k

def TimeUnit.text : TimeUnit → Text
  | .sec => ['s', 'e', 'c']
  | .min => ['m', 'i', 'n']
  | .msec => ['m', 's', 'e', 'c']

def MemUnit.text : MemUnit → Text
  | .mb => ['m', 'b']
  | .kb => ['k', 'b']
  | .gb => ['g', 'b']

def SpaceUnit.text : SpaceUnit → Text
  | .mb => ['m', 'b']
  | .gb => ['g', 'b']

def RateUnit.text : RateUnit → Text
  | .kbps => ['k', 'b', 'p', 's']
  | .mbps => ['m', 'b', 'p', 's']

/-! ### Components -/

structure Formal where
  argName : Text
  argDefault : Option Value

inductive Language where
  | cppImpl | pyImpl

inductive ComponentScheduler where
  | rr | priority

/-- `within`: a time and its unit. -/
structure Within where
  deadline : ℤ
  unit : Option TimeUnit

/-- The classes of ports. -/
inductive PortClass where
  | pub | sub | clt | srv | req | rep | tim | ins | qry | ans
  deriving DecidableEq

/-- The two-way ports that trigger an operation. -/
inductive OpClass where
  | srv | req | rep | qry | ans

inductive Port where
  /-- `PubPort`. -/
  | pub (name type : Text) (timed : Bool)
  /-- `SubPort`. -/
  | sub (name type : Text) (timed : Bool) (within : Within)
  /-- `ClntPort`. -/
  | clt (name : Text) (reqType repType : Option Text) (timed : Bool)
  /-- `SrvPort`, `ReqPort`, `RepPort`, `QryPort` and `AnsPort`. -/
  | op (cls : OpClass) (name : Text) (reqType repType : Option Text) (timed : Bool) (within : Within)
  /-- `TimPort`. -/
  | tim (name : Text) (spec : ℤ) (periodUnit : Option TimeUnit) (within : Within)
  /-- `InsPort`. -/
  | ins (name : Text) (spec : Bool)

def Port.name : Port → Text
  | .pub name .. | .sub name .. | .clt name .. | .op _ name .. | .tim name .. | .ins name .. => name

structure Component where
  /-- It is a `device`, and otherwise a `component`. -/
  ioComponent : Bool
  name : Text
  formals : List Formal
  language : Option Language
  scheduler : Option ComponentScheduler
  ports : List Port

/-! ### Actors -/

inductive ActualValue where
  | value (v : Value)
  | param (name : Text)

structure Actual where
  argName : Text
  argValue : ActualValue

structure Instance where
  name : Text
  type : Component
  actuals : List Actual

structure CPUUsage where
  max : Bool
  usage : ℤ
  interval : ℤ
  unit : Option TimeUnit

structure MemUsage where
  usage : ℤ
  unit : Option MemUnit

structure SpaceUsage where
  usage : ℤ
  unit : Option SpaceUnit

structure NetUsage where
  rate : Number
  rateUnit : RateUnit
  /-- `ceil` and `ceilUnit`. -/
  ceil : Option (Number × RateUnit)
  /-- `burst` and `burstUnit`. -/
  burst : Option (Number × BurstUnit)

/-- A clause of `uses`. -/
inductive Usage where
  | cpu (use : CPUUsage)
  | mem (use : MemUsage)
  | space (use : SpaceUsage)
  | net (use : NetUsage)

inductive ActorScheduler where
  | rr
  | priority (priority : ℤ)

structure Actor where
  rt : Bool
  name : Text
  formals : List Formal
  locals : List Text
  internals : List Text
  usage : List Usage
  scheduler : Option ActorScheduler
  instances : List Instance

/-! ### Apps -/

inductive GroupKind where
  | leader | consensus

inductive GroupParamName where
  | heartbeat | electionMin | electionMax | peerTimeout | consensusTimeout
  deriving DecidableEq

structure Group where
  name : Text
  kind : Option GroupKind
  message : Text
  timed : Bool
  groupParams : List (GroupParamName × ℤ)

structure App where
  name : Text
  messages : List Text
  groups : List Group
  libraries : List Text
  components : List Component
  actors : List Actor

/-- A model. The component of an instance is one of the model. -/
structure RIAPSModel where
  apps : List App
  resolved : ∀ app ∈ apps, ∀ act ∈ app.actors, ∀ inst ∈ act.instances, ∃ app' ∈ apps, inst.type ∈ app'.components

/-! ### Exceptions -/

/-- `TextXSemanticError`, by its message. -/
inductive SemanticError where
  /-- `Argument name "%s" is not unique.` -/
  | argumentName (name : Text)
  /-- `Component name "%s" is not unique.` -/
  | componentName (name : Text)
  /-- `Port name "%s" is not unique` -/
  | portName (name : Text)
  /-- `Actor name "%s" is not unique.` -/
  | actorName (name : Text)
  /-- `Argument "%s" is not unique.` -/
  | argument (name : Text)
  /-- `Instance name "%s" is not unique.` -/
  | instanceName (name : Text)
  /-- `%s: Actor local and internal messages must be distinct - shared: %r` -/
  | shared (actor : Text) (messages : List Text)
  /-- `Non-(local/internal) message type %s for IO component %s:%s` -/
  | nonLocal (message inst component : Text)

/-- What ends the compiler. -/
inductive CompileError where
  /-- `LangError`, for a semantic error. -/
  | langError (e : SemanticError)
  | semanticError (e : SemanticError)
  /-- An attribute of `None` is read. -/
  | attributeError
  /-- What another exception becomes that is raised by an object processor: `e.args` is no function. -/
  | typeError
  /-- `int` of an infinity. -/
  | overflowError

end Riaps.Lang
