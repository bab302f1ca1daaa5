import Riaps.Actor.DiscoClient
import Riaps.Lang.Compile

/-!
# The scopes of the messages

The run time takes the scope of a message from the tables of its actor, and a two-way port
has one scope: the constructor of `DuplexPort` asserts that it is that of the request and
of the reply. A device, moreover, is to use messages only that stay within the actor or the
host.

The compiler checks the latter, but of a two-way port it looks at the request type only,
and it does not compare the two types of a port. So what the run time assumes holds of a
model that is accepted exactly if the two have the same scope (`sound_iff`).
-/

namespace Riaps.Lang

open Riaps.Foundation
open Riaps.Run (PortScope)

/-! ### The run time -/

/-- What an `Actor`, or the `Device` of one of its instances, has of the messages. -/
structure MessageNames where
  localNames : List Text
  internalNames : List Text

/-- The lists that the constructors make of the actor's tables. -/
def ActorObj.messageNames (obj : ActorObj) : MessageNames := ⟨obj.locals, obj.internals⟩

/-- `messageScope`. -/
def MessageNames.messageScope (names : MessageNames) (msgTypeName : Text) : PortScope :=
  if msgTypeName ∈ names.localNames then .local
  else if msgTypeName ∈ names.internalNames then .internal
  else .global

/-- `DuplexPort`. -/
structure DuplexPort where
  reqType : Text
  repType : Text
  isTimed : Bool
  /-- In milliseconds. -/
  deadline : ℤ
  portScope : PortScope
  msgType : Text

/-- What its constructor raises. -/
inductive PortError where
  | keyError
  | typeError
  | assertionError

/-- `portSpec[key]`. -/
def specKey {α : Type} : Option α → Except PortError α
  | some value => pure value
  | none => throw .keyError

/-- `portSpec.get("deadline",0)`, in a product. -/
def specDeadline : Option (Option ℤ) → Except PortError ℤ
  | none => pure 0
  | some (some deadline) => pure deadline
  | some none => throw .typeError

/-- `DuplexPort.__init__`. -/
def DuplexPort.init (names : MessageNames) (portSpec : PortObj) : Except PortError DuplexPort := do
  let reqType ← specKey portSpec.reqType
  let repType ← specKey portSpec.repType
  let isTimed ← specKey portSpec.timed
  let deadline ← specDeadline portSpec.deadline
  let reqScope := names.messageScope reqType
  let repScope := names.messageScope repType
  if reqScope = repScope then return ⟨reqType, repType, isTimed, deadline, reqScope, reqType ++ '#' :: repType⟩
  else throw .assertionError

/-! ### What it assumes -/

/-- The two-way ports. -/
def PortClass.duplex : PortClass → Bool
  | .clt | .srv | .req | .rep | .qry | .ans => true
  | .pub | .sub | .tim | .ins => false

/-- The request and the reply type of a two-way port. -/
def Port.reqRep : Port → Option Text × Option Text
  | .clt _ reqType repType _ | .op _ _ reqType repType _ _ => (reqType, repType)
  | .pub .. | .sub .. | .tim .. | .ins .. => (none, none)

/-- The message types of a port. -/
def Port.types : Port → List Text
  | .pub _ type _ | .sub _ type _ _ => [type]
  | .clt _ reqType repType _ | .op _ _ reqType repType _ _ => reqType.toList ++ repType.toList
  | .tim .. | .ins .. => []

/-- What the run time assumes of an instance, for the tables of its actor and of its component. -/
structure Sound (actor : Actor) (inst : Instance) (obj : ActorObj) (ports : PortTable) : Prop where
  /-- The messages of a device do not leave the host. -/
  io : inst.type.ioComponent = true → ∀ port ∈ inst.type.ports, ∀ type ∈ port.types,
    type ∈ actor.locals ∨ type ∈ actor.internals
  /-- The two messages of a port have one scope. -/
  scope : ∀ port ∈ inst.type.ports, ∀ reqType ∈ port.reqRep.1, ∀ repType ∈ port.reqRep.2,
    obj.messageNames.messageScope reqType = obj.messageNames.messageScope repType
  /-- The constructor of a two-way port raises nothing. -/
  init : ∀ cls name spec, cls.duplex = true → (ports cls).get? name = some spec →
    ∃ port, DuplexPort.init obj.messageNames spec = .ok port

/-- What the run time assumes of a model. -/
def RIAPSModel.Sound (model : RIAPSModel) : Prop :=
  ∀ app ∈ model.apps, ∀ act ∈ app.actors, ∀ inst ∈ act.instances, ∃ obj ports,
    actorObj act = .ok obj ∧ getPorts inst.type.ports = .ok ports ∧ Lang.Sound act inst obj ports

/-- The two messages of a two-way port are both local, both internal, or neither. -/
def Alike (actor : Actor) (port : Port) : Prop :=
  ∀ reqType ∈ port.reqRep.1, ∀ repType ∈ port.reqRep.2,
    (reqType ∈ actor.locals ↔ repType ∈ actor.locals) ∧ (reqType ∈ actor.internals ↔ repType ∈ actor.internals)

/-! ### What the compiler checks -/

theorem actorObjProcessor_eq_ok {actor : Actor} {names : List Text} :
    actorObjProcessor actor = .ok names ↔
      (∀ type ∈ actor.locals, type ∉ actor.internals) ∧ names = actor.locals ++ actor.internals := by
  have hnil : (actor.locals.filter fun name => name ∈ actor.internals) ≠ [] ↔
      ¬∀ type ∈ actor.locals, type ∉ actor.internals := by
    simp
  rw [actorObjProcessor]
  by_cases h : ∀ type ∈ actor.locals, type ∉ actor.internals
  · rw [if_neg (hnil.not.mpr (not_not.mpr h)), pure_eq_ok_iff, and_iff_right h, eq_comm]
  · rw [if_pos (hnil.mpr h)]
    exact iff_of_false throw_ne_ok fun hok => h hok.1

/-- A device that passes has its one-way messages and its requests among those of the actor. -/
theorem instanceObjProcessor_eq_ok {actor : Actor} {inst : Instance} (h : instanceObjProcessor actor inst = .ok ⟨⟩)
    (hio : inst.type.ioComponent = true) {port : Port} (hport : port ∈ inst.type.ports) :
    ∃ names, portMessageNames port = .ok names ∧ ∀ name ∈ names, name ∈ actor.locals ∨ name ∈ actor.internals := by
  rw [instanceObjProcessor, if_pos hio] at h
  obtain ⟨messageNames, hnames, h⟩ := bind_eq_ok_iff.mp h
  obtain ⟨names, hports, h⟩ := bind_eq_ok_iff.mp h
  obtain ⟨-, rfl⟩ := actorObjProcessor_eq_ok.mp hnames
  rw [forM_eq_ok_iff] at h
  obtain ⟨portNames, hmem, hok⟩ := exists_of_mapM_eq_ok hports hport
  refine ⟨portNames, hok, fun name hname => ?_⟩
  have hcheck := h name (List.mem_flatten.mpr ⟨portNames, hmem, hname⟩)
  split_ifs at hcheck with hin
  exact List.mem_append.mp hin

theorem processActor_eq_ok {actor : Actor} (h : processActor actor = .ok ⟨⟩) :
    (∀ type ∈ actor.locals, type ∉ actor.internals) ∧
      ∀ inst ∈ actor.instances, instanceObjProcessor actor inst = .ok ⟨⟩ := by
  obtain ⟨_, hinsts, h⟩ := bind_eq_ok_iff.mp h
  obtain ⟨names, hnames, -⟩ := bind_eq_ok_iff.mp h
  exact ⟨(actorObjProcessor_eq_ok.mp hnames).1, forM_eq_ok_iff.mp hinsts⟩

theorem exists_getPorts {io : Bool} {components : List Component} {res : Dict Text ComponentObj}
    (h : componentObjs io components = .ok res) {comp : Component} (hcomp : comp ∈ components)
    (hio : comp.ioComponent = io) : ∃ ports, getPorts comp.ports = .ok ports := by
  obtain ⟨_, _, hround⟩ := exists_of_foldlM_eq_ok h hcomp
  rw [if_pos hio] at hround
  split_ifs at hround with hname
  obtain ⟨obj, hobj, -⟩ := bind_eq_ok_iff.mp hround
  obtain ⟨_, -, hobj⟩ := bind_eq_ok_iff.mp hobj
  obtain ⟨ports, hports, -⟩ := bind_eq_ok_iff.mp hobj
  exact ⟨ports, hports⟩

theorem exists_actorObj {actors : List Actor} {res : Dict Text ActorObj} (h : getActors actors = .ok res) {act : Actor}
    (hact : act ∈ actors) : ∃ obj, actorObj act = .ok obj := by
  obtain ⟨_, _, hround⟩ := exists_of_foldlM_eq_ok h hact
  split_ifs at hround with hname
  obtain ⟨obj, hobj, -⟩ := bind_eq_ok_iff.mp hround
  exact ⟨obj, hobj⟩

theorem messageNames_actorObj {act : Actor} {obj : ActorObj} (h : actorObj act = .ok obj) :
    obj.messageNames = ⟨act.locals, act.internals⟩ := by
  obtain ⟨_, -, h⟩ := bind_eq_ok_iff.mp h
  obtain ⟨_, -, h⟩ := bind_eq_ok_iff.mp h
  obtain ⟨_, -, h⟩ := bind_eq_ok_iff.mp h
  obtain rfl := pure_eq_ok_iff.mp h
  rfl

/-- Of a model that is accepted, each actor has passed and has its tables, and so has the component of each of its
instances. -/
theorem compileModel_eq_ok {model : RIAPSModel} {apps : Dict Text AppObj} (h : compileModel model = .ok apps)
    {app : App} (happ : app ∈ model.apps) {act : Actor} (hact : act ∈ app.actors) :
    processActor act = .ok ⟨⟩ ∧ (∃ obj, actorObj act = .ok obj) ∧
      ∀ inst ∈ act.instances, ∃ ports, getPorts inst.type.ports = .ok ports := by
  obtain ⟨_, hprocessors, h⟩ := bind_eq_ok_iff.mp h
  rw [mapError_eq_ok_iff, forM_eq_ok_iff] at hprocessors
  have hobj : ∀ app ∈ model.apps, ∃ obj, appObj app = .ok obj := by
    intro app happ
    obtain ⟨_, _, hround⟩ := exists_of_foldlM_eq_ok h happ
    obtain ⟨obj, hobj, -⟩ := bind_eq_ok_iff.mp hround
    exact ⟨obj, hobj⟩
  refine ⟨forM_eq_ok_iff.mp (hprocessors app happ) act hact, ?_, fun inst hinst => ?_⟩
  · obtain ⟨obj, hobj⟩ := hobj app happ
    obtain ⟨_, -, hobj⟩ := bind_eq_ok_iff.mp hobj
    obtain ⟨_, -, hobj⟩ := bind_eq_ok_iff.mp hobj
    obtain ⟨actors, hactors, -⟩ := bind_eq_ok_iff.mp hobj
    exact exists_actorObj hactors hact
  · obtain ⟨app', happ', hcomp⟩ := model.resolved app happ act hact inst hinst
    obtain ⟨obj, hobj⟩ := hobj app' happ'
    obtain ⟨devices, hdevices, hobj⟩ := bind_eq_ok_iff.mp hobj
    obtain ⟨components, hcomponents, -⟩ := bind_eq_ok_iff.mp hobj
    cases hio : inst.type.ioComponent with
    | true => exact exists_getPorts hdevices hcomp hio
    | false => exact exists_getPorts hcomponents hcomp hio

/-! ### The tables of the ports -/

/-- An entry of the table is that of a port of the class. -/
theorem exists_of_getPorts {ports : List Port} {table : PortTable} (h : getPorts ports = .ok table) {cls : PortClass}
    {name : Text} {spec : PortObj} (hspec : (table cls).get? name = some spec) :
    ∃ port ∈ ports, port.cls = cls ∧ ∃ portIndex, portObj portIndex port = .ok spec := by
  obtain ⟨s, hs, hpure⟩ := bind_eq_ok_iff.mp h
  obtain rfl := pure_eq_ok_iff.mp hpure
  clear h hpure
  induction ports using List.reverseRecOn generalizing s with
  | nil =>
    obtain rfl := pure_eq_ok_iff.mp hs
    exact absurd hspec nofun
  | append_singleton ports port ih =>
    obtain ⟨s', hs', hadd⟩ := foldlM_concat_eq_ok_iff.mp hs
    rw [PortLoop.add] at hadd
    split_ifs at hadd with hname
    obtain ⟨obj, hobj, hpure⟩ := bind_eq_ok_iff.mp hadd
    obtain rfl := pure_eq_ok_iff.mp hpure
    change (Function.update s'.table port.cls ((s'.table port.cls).set port.name obj) cls).get? name = some spec
      at hspec
    by_cases hcls : cls = port.cls
    · subst hcls
      rw [Function.update_self, Dict.get?_set] at hspec
      split_ifs at hspec with hport
      · obtain rfl := Option.some.inj hspec
        exact ⟨port, by simp, rfl, _, hobj⟩
      · obtain ⟨p, hp, hrest⟩ := ih s' hs' hspec
        exact ⟨p, List.mem_append_left _ hp, hrest⟩
    · rw [Function.update_of_ne hcls] at hspec
      obtain ⟨p, hp, hrest⟩ := ih s' hs' hspec
      exact ⟨p, List.mem_append_left _ hp, hrest⟩

theorem convertSpec_isSome (spec : ℤ) (unit : Option TimeUnit) : (convertSpec spec unit).isSome := by
  unfold convertSpec
  split_ifs
  · rfl
  · obtain _ | _ | _ | _ := unit <;> rfl

theorem messageName_eq_ok {type : Option Text} {name : Text} : messageName type = .ok name ↔ type = some name := by
  obtain _ | type := type
  · exact iff_of_false nofun nofun
  · exact pure_eq_ok_iff.trans Option.some_inj.symm

/-- With all its keys there, the constructor compares the scopes only. -/
theorem exists_init_iff {names : MessageNames} {spec : PortObj} {reqType repType : Text} {timed : Bool} {deadline : ℤ}
    (hreq : spec.reqType = some reqType) (hrep : spec.repType = some repType) (htimed : spec.timed = some timed)
    (hdeadline : specDeadline spec.deadline = .ok deadline) :
    (∃ p, DuplexPort.init names spec = .ok p) ↔ names.messageScope reqType = names.messageScope repType := by
  rw [DuplexPort.init, hreq, hrep, htimed, hdeadline]
  change (∃ p, (if names.messageScope reqType = names.messageScope repType then _ else _) = _) ↔ _
  split_ifs with h
  · exact iff_of_true ⟨_, rfl⟩ h
  · exact iff_of_false (fun ⟨_, hp⟩ => nomatch hp) h

/-- The entry of a two-way port has both its types. -/
theorem init_portObj {portIndex : ℕ} {port : Port} {spec : PortObj} (h : portObj portIndex port = .ok spec)
    (hcls : port.cls.duplex = true) (names : MessageNames) :
    ∃ reqType ∈ port.reqRep.1, ∃ repType ∈ port.reqRep.2,
      ((∃ p, DuplexPort.init names spec = .ok p) ↔ names.messageScope reqType = names.messageScope repType) := by
  cases port with
  | pub | sub | tim | ins => exact absurd hcls nofun
  | clt name reqType repType timed =>
    obtain ⟨req, hreq, h⟩ := bind_eq_ok_iff.mp h
    obtain ⟨rep, hrep, h⟩ := bind_eq_ok_iff.mp h
    obtain rfl := pure_eq_ok_iff.mp h
    exact ⟨req, messageName_eq_ok.mp hreq, rep, messageName_eq_ok.mp hrep, exists_init_iff rfl rfl rfl rfl⟩
  | op cls name reqType repType timed w =>
    obtain ⟨req, hreq, h⟩ := bind_eq_ok_iff.mp h
    obtain ⟨rep, hrep, h⟩ := bind_eq_ok_iff.mp h
    obtain rfl := pure_eq_ok_iff.mp h
    obtain ⟨deadline, hdeadline⟩ := Option.isSome_iff_exists.mp (convertSpec_isSome w.deadline w.unit)
    exact ⟨req, messageName_eq_ok.mp hreq, rep, messageName_eq_ok.mp hrep,
      exists_init_iff rfl rfl rfl (congrArg (fun deadline => specDeadline (some deadline)) hdeadline)⟩

theorem messageScope_eq_iff {locals internals : List Text} (h : ∀ type ∈ locals, type ∉ internals)
    (type type' : Text) :
    (MessageNames.mk locals internals).messageScope type = (MessageNames.mk locals internals).messageScope type' ↔
      (type ∈ locals ↔ type' ∈ locals) ∧ (type ∈ internals ↔ type' ∈ internals) := by
  have hlocal := h type
  have hlocal' := h type'
  rw [MessageNames.messageScope, MessageNames.messageScope]
  by_cases hl : type ∈ locals <;> by_cases hl' : type' ∈ locals <;> by_cases hi : type ∈ internals <;>
    by_cases hi' : type' ∈ internals <;> simp_all

/-! ### What the run time assumes -/

/-- A message of a port is one that the check of a device looks at, or else the reply to one. -/
theorem mem_types {port : Port} {names : List Text} (h : portMessageNames port = .ok names) {type : Text}
    (htype : type ∈ port.types) : type ∈ names ∨ type ∈ port.reqRep.2 ∧ ∃ reqType ∈ port.reqRep.1, reqType ∈ names := by
  cases port with
  | pub | sub =>
    obtain rfl := pure_eq_ok_iff.mp h
    exact .inl htype
  | tim | ins => exact absurd htype List.not_mem_nil
  | clt _ reqType repType | op _ _ reqType repType =>
    obtain _ | req := reqType
    · exact absurd h throw_ne_ok
    · obtain rfl := pure_eq_ok_iff.mp h
      obtain hreq | hrep := List.mem_append.mp htype
      · exact .inl hreq
      · exact .inr ⟨Option.mem_toList.mp hrep, req, rfl, List.mem_singleton_self req⟩

theorem sound_iff_alike {actor : Actor} {inst : Instance} {obj : ActorObj} {ports : PortTable}
    (hactor : processActor actor = .ok ⟨⟩) (hinst : inst ∈ actor.instances) (hobj : actorObj actor = .ok obj)
    (hports : getPorts inst.type.ports = .ok ports) :
    Sound actor inst obj ports ↔ ∀ port ∈ inst.type.ports, Alike actor port := by
  obtain ⟨hshared, hinsts⟩ := processActor_eq_ok hactor
  have hscope : ∀ type type', obj.messageNames.messageScope type = obj.messageNames.messageScope type' ↔
      (type ∈ actor.locals ↔ type' ∈ actor.locals) ∧ (type ∈ actor.internals ↔ type' ∈ actor.internals) := by
    rw [messageNames_actorObj hobj]
    exact messageScope_eq_iff hshared
  constructor
  · intro h port hport reqType hreq repType hrep
    exact (hscope reqType repType).mp (h.scope port hport reqType hreq repType hrep)
  · intro h
    refine ⟨fun hio port hport type htype => ?_, fun port hport reqType hreq repType hrep => ?_,
      fun cls name spec hcls hspec => ?_⟩
    · obtain ⟨names, hnames, hmem⟩ := instanceObjProcessor_eq_ok (hinsts inst hinst) hio hport
      obtain hin | ⟨hrep, reqType, hreq, hin⟩ := mem_types hnames htype
      · exact hmem type hin
      · obtain ⟨hlocal, hinternal⟩ := h port hport reqType hreq type hrep
        exact (hmem reqType hin).imp hlocal.mp hinternal.mp
    · exact (hscope reqType repType).mpr (h port hport reqType hreq repType hrep)
    · obtain ⟨port, hport, rfl, portIndex, hok⟩ := exists_of_getPorts hports hspec
      obtain ⟨reqType, hreq, repType, hrep, hinit⟩ := init_portObj hok hcls obj.messageNames
      exact hinit.mpr ((hscope reqType repType).mpr (h port hport reqType hreq repType hrep))

/-- Of a model that is accepted, what the run time assumes holds exactly if the two messages of each two-way port of an
instance are both local in its actor, both internal, or neither. -/
theorem sound_iff {model : RIAPSModel} {apps : Dict Text AppObj} (h : compileModel model = .ok apps) :
    model.Sound ↔ ∀ app ∈ model.apps, ∀ act ∈ app.actors, ∀ inst ∈ act.instances, ∀ port ∈ inst.type.ports,
      Alike act port := by
  constructor
  · intro hsound app happ act hact inst hinst
    obtain ⟨hok, -⟩ := compileModel_eq_ok h happ hact
    obtain ⟨obj, ports, hobj, hports, hsound⟩ := hsound app happ act hact inst hinst
    exact (sound_iff_alike hok hinst hobj hports).mp hsound
  · intro halike app happ act hact inst hinst
    obtain ⟨hok, ⟨obj, hobj⟩, hports⟩ := compileModel_eq_ok h happ hact
    obtain ⟨ports, hports⟩ := hports inst hinst
    exact ⟨obj, ports, hobj, hports, (sound_iff_alike hok hinst hobj hports).mpr (halike app happ act hact inst hinst)⟩

/-- An actor that has `m` among its local messages and a device with a client port of `m` and `repType`. -/
def deviceActor (repType : Text) : Actor where
  rt := false
  name := ['A']
  formals := []
  locals := [['m']]
  internals := []
  usage := []
  scheduler := none
  instances := [⟨['d'], ⟨true, ['D'], [], none, none, [.clt ['p'] (some ['m']) (some repType) false]⟩, []⟩]

/-- The model of an app with this actor only. -/
def deviceModel (repType : Text) : RIAPSModel where
  apps := [{
    name := ['a']
    messages := [['m'], ['n']]
    groups := []
    libraries := []
    components := (deviceActor repType).instances.map Instance.type
    actors := [deviceActor repType] }]
  resolved := fun app happ act hact inst hinst => by
    obtain rfl := List.mem_singleton.mp happ
    obtain rfl := List.mem_singleton.mp hact
    exact ⟨_, List.mem_singleton_self _, List.mem_map_of_mem hinst⟩

theorem sound_deviceModel : (deviceModel ['m']).Sound := by
  refine (sound_iff (Eq.refl (compileModel _))).mpr fun app happ act hact inst hinst port hport => ?_
  obtain rfl := List.mem_singleton.mp happ
  obtain rfl := List.mem_singleton.mp hact
  obtain rfl := List.mem_singleton.mp hinst
  obtain rfl := List.mem_singleton.mp hport
  intro reqType hreq repType hrep
  obtain rfl := Option.mem_some.mp hreq
  obtain rfl := Option.mem_some.mp hrep
  exact ⟨Iff.rfl, Iff.rfl⟩

/-- A model is accepted in which the reply of a device leaves the host and the request does not. -/
theorem not_sound : (∃ apps, compileModel (deviceModel ['n']) = .ok apps) ∧ ¬(deviceModel ['n']).Sound := by
  refine ⟨⟨_, rfl⟩, fun h => ?_⟩
  obtain ⟨obj, ports, -, -, hsound⟩ := h _ (List.mem_singleton_self _) _ (List.mem_singleton_self _) _
    (List.mem_singleton_self _)
  exact absurd (hsound.io rfl _ (List.mem_singleton_self _) ['n'] (by decide)) (by decide)

end Riaps.Lang
