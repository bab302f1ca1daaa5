import Riaps.Foundation.Exceptions
import Riaps.Deployment.ResourceManager
import Riaps.Lang.Model

/-!
# Resource limits

The clauses of `uses` become limits, each in a unit of its own: kilobytes, milliseconds,
and bytes per second. A clause replaces what one of its kind before it has set.

A unit that is left out is taken to be one of megabytes, but under the name `MB`, which
`convertMem` does not know: the limit is `None`. A rate may also be too large for a double
when it is scaled. Otherwise the limits are exact (`converts_iff`).

The resource manager meets a `None` when it adds the actor: it raises the quota of the app
by the limit of space, and cannot if that is no number (`new_settings_isSome`).
-/

namespace Riaps.Lang

open Riaps.Foundation

/-! ### Conversions -/

/-- `convertTime`, to milliseconds. -/
def convertTime (value : ℤ) (unit : Text) : Option ℤ :=
  if unit = ['m', 's', 'e', 'c'] then some value
  else if unit = ['s', 'e', 'c'] then some (value * 1000)
  else if unit = ['m', 'i', 'n'] then some (value * 60 * 1000)
  else none

/-- `convertMem`, to kilobytes. -/
def convertMem (value : ℤ) (unit : Text) : Option ℤ :=
  if unit = ['m', 'b'] then some (value * 1024)
  else if unit = ['k', 'b'] then some value
  else if unit = ['g', 'b'] then some (value * 1024 * 1024)
  else none

/-- `int(x)`. -/
def toInt (x : Number) : Except CompileError ℤ :=
  match x.toInt with
  | some z => .ok z
  | none => .error .overflowError

/-- `convertRate`, to bytes per second. -/
def convertRate (value : Number) (unit : Text) : Except CompileError (Option ℤ) := do
  if unit = ['k', 'b', 'p', 's'] then return some (← toInt (value.scale 10))
  else if unit = ['m', 'b', 'p', 's'] then return some (← toInt ((value.scale 10).scale 10))
  else return none

/-! ### The limits -/

structure CpuObj where
  use : ℤ
  max : Bool
  interval : Option ℤ

structure NetObj where
  rate : Option ℤ
  ceil : Option ℤ
  burst : ℤ

/-- What `getUsage` returns: an entry is there if there is a clause of its kind. -/
structure UsageObj where
  cpu : Option CpuObj
  /-- `use`, which may be `None`. -/
  mem : Option (Option ℤ)
  /-- `use`, which may be `None`. -/
  spc : Option (Option ℤ)
  net : Option NetObj

/-- The branch of `CPUUsage` in `getUsage`. -/
def CPUUsage.obj (use : CPUUsage) : CpuObj :=
  let unit := match use.unit with
    | none => ['s', 'e', 'c']
    | some unit => unit.text
  ⟨use.usage, use.max, convertTime use.interval unit⟩

/-- That of `MemUsage`, -/
def MemUsage.obj (use : MemUsage) : Option ℤ :=
  let unit := match use.unit with
    | none => ['M', 'B']
    | some unit => unit.text
  convertMem use.usage unit

/-- of `SpaceUsage`, -/
def SpaceUsage.obj (use : SpaceUsage) : Option ℤ :=
  let unit := match use.unit with
    | none => ['M', 'B']
    | some unit => unit.text
  convertMem use.usage unit

/-- `netUsage['ceil']`. -/
def NetUsage.ceilObj (use : NetUsage) : Except CompileError (Option ℤ) :=
  match use.ceil with
  | none => pure (some 0)
  | some (ceil, ceilUnit) => convertRate ceil ceilUnit.text

/-- `netUsage['burst']`, whatever its unit. -/
def NetUsage.burstObj (use : NetUsage) : Except CompileError ℤ :=
  match use.burst with
  | none => pure 0
  | some (burst, _) => toInt (burst.scale 10)

/-- and of `NetUsage`. -/
def NetUsage.obj (use : NetUsage) : Except CompileError NetObj := do
  let rate ← convertRate use.rate use.rateUnit.text
  let ceil ← use.ceilObj
  let burst ← use.burstObj
  return ⟨rate, ceil, burst⟩

/-- The body of the loop in `getUsage`. -/
def setUsage (obj : UsageObj) : Usage → Except CompileError UsageObj
  | .cpu use => return { obj with cpu := some use.obj }
  | .mem use => return { obj with mem := some use.obj }
  | .space use => return { obj with spc := some use.obj }
  | .net use => do
    let net ← use.obj
    return { obj with net := some net }

/-- `getUsage`. -/
def getUsage (usage : List Usage) : Except CompileError UsageObj := usage.foldlM setUsage ⟨none, none, none, none⟩

/-! ### What the limits should be -/

/-- Milliseconds; a unit that is left out is one of seconds. -/
def msec : Option TimeUnit → ℤ
  | none | some .sec => 1000
  | some .min => 60 * 1000
  | some .msec => 1

/-- Kilobytes; a unit that is left out is one of megabytes. -/
def MemUsage.kb (use : MemUsage) : ℤ :=
  match use.unit with
  | none | some .mb => use.usage * 1024
  | some .kb => use.usage
  | some .gb => use.usage * 1024 * 1024

def SpaceUsage.kb (use : SpaceUsage) : ℤ :=
  match use.unit with
  | none | some .mb => use.usage * 1024
  | some .gb => use.usage * 1024 * 1024

/-- A `kbps` is 2 to the power of 10 bytes per second, and a `mbps` to that of 20. -/
def RateUnit.bits : RateUnit → ℕ
  | .kbps => 10
  | .mbps => 20

/-- A number that is multiplied by a power of two, in whole bytes. -/
def Scaled (x : Number) (k : ℕ) (z : ℤ) : Prop := ∃ q, x.value = some q ∧ trunc (q * 2 ^ k) = z

structure CPUUsage.Exact (clause : CPUUsage) (obj : CpuObj) : Prop where
  use : obj.use = clause.usage
  max : obj.max = clause.max
  interval : obj.interval = some (clause.interval * msec clause.unit)

structure NetUsage.Exact (use : NetUsage) (obj : NetObj) : Prop where
  rate : ∃ z, obj.rate = some z ∧ Scaled use.rate use.rateUnit.bits z
  ceil : ∃ z, obj.ceil = some z ∧ match use.ceil with
    | none => z = 0
    | some (ceil, ceilUnit) => Scaled ceil ceilUnit.bits z
  burst : match use.burst with
    | none => obj.burst = 0
    | some (burst, _) => Scaled burst 10 obj.burst

def Usage.cpu? : Usage → Option CPUUsage
  | .cpu use => some use
  | _ => none

def Usage.mem? : Usage → Option MemUsage
  | .mem use => some use
  | _ => none

def Usage.space? : Usage → Option SpaceUsage
  | .space use => some use
  | _ => none

def Usage.net? : Usage → Option NetUsage
  | .net use => some use
  | _ => none

/-- The last clause of a kind. -/
def last {α : Type} (kind : Usage → Option α) (usage : List Usage) : Option α := usage.reverse.findSome? kind

/-- **Limits are exact**: there is one for each kind of clause, that of the last clause of the kind, and it is a
number, its value in the unit of the limit. -/
structure Converts (usage : List Usage) (obj : UsageObj) : Prop where
  cpu : Option.Rel CPUUsage.Exact (last Usage.cpu? usage) obj.cpu
  mem : Option.Rel (fun use o => o = some use.kb) (last Usage.mem? usage) obj.mem
  spc : Option.Rel (fun use o => o = some use.kb) (last Usage.space? usage) obj.spc
  net : Option.Rel NetUsage.Exact (last Usage.net? usage) obj.net

/-- No rate is too large for a double. -/
def NetUsage.Fits (use : NetUsage) : Prop :=
  use.rate.Fits use.rateUnit.bits ∧ (∀ c ∈ use.ceil, c.1.Fits c.2.bits) ∧ ∀ b ∈ use.burst, b.1.Fits 10

/-! ### One clause -/

theorem CPUUsage.exact_obj (use : CPUUsage) : use.Exact use.obj := by
  refine ⟨rfl, rfl, ?_⟩
  rw [obj]
  obtain _ | _ | _ | _ := use.unit
  · rfl
  · rfl
  · simp [convertTime, TimeUnit.text, msec, mul_assoc]
  · simp [convertTime, TimeUnit.text, msec]

theorem MemUsage.obj_eq (use : MemUsage) : use.obj = if use.unit.isSome then some use.kb else none := by
  rw [obj, kb]
  obtain _ | _ | _ | _ := use.unit <;> rfl

theorem SpaceUsage.obj_eq (use : SpaceUsage) : use.obj = if use.unit.isSome then some use.kb else none := by
  rw [obj, kb]
  obtain _ | _ | _ := use.unit <;> rfl

theorem exists_scaled {x : Number} {k : ℕ} (h : x.Fits k) : ∃ z, Scaled x k z := by
  cases x with
  | int z => exact ⟨_, z, rfl, rfl⟩
  | float x =>
    obtain ⟨q, hq, -⟩ := h
    exact ⟨_, q, hq, rfl⟩

theorem toInt_eq_ok {x : Number} {k : ℕ} {z : ℤ} : toInt (x.scale k) = .ok z ↔ x.Fits k ∧ Scaled x k z := by
  rw [Scaled, ← Number.toInt_scale, toInt]
  cases (x.scale k).toInt <;> simp

theorem convertRate_eq_ok {x : Number} {unit : RateUnit} {o : Option ℤ} :
    convertRate x unit.text = .ok o ↔ x.Fits unit.bits ∧ ∃ z, o = some z ∧ Scaled x unit.bits z := by
  have hrate : convertRate x unit.text = some <$> toInt (x.scale unit.bits) := by
    cases unit with
    | kbps => rfl
    | mbps => exact congrArg (some <$> toInt ·) (Number.scale_scale 10 10 x)
  rw [hrate, ← bind_pure_comp, bind_eq_ok_iff]
  simp only [toInt_eq_ok, pure_eq_ok_iff, ← exists_and_left, and_assoc, eq_comm (b := o),
    and_comm (a := Scaled _ _ _)]

theorem NetUsage.ceilObj_eq_ok {use : NetUsage} {o : Option ℤ} :
    use.ceilObj = .ok o ↔ (∀ c ∈ use.ceil, c.1.Fits c.2.bits) ∧ ∃ z, o = some z ∧ match use.ceil with
      | none => z = 0
      | some (ceil, ceilUnit) => Scaled ceil ceilUnit.bits z := by
  rw [ceilObj]
  obtain _ | ⟨ceil, ceilUnit⟩ := use.ceil
  · simp [eq_comm (b := o)]
  · simpa using convertRate_eq_ok

theorem NetUsage.burstObj_eq_ok {use : NetUsage} {z : ℤ} :
    use.burstObj = .ok z ↔ (∀ b ∈ use.burst, b.1.Fits 10) ∧ match use.burst with
      | none => z = 0
      | some (burst, _) => Scaled burst 10 z := by
  rw [burstObj]
  obtain _ | ⟨burst, burstUnit⟩ := use.burst
  · simp [eq_comm (b := z)]
  · simpa using toInt_eq_ok

theorem NetUsage.obj_eq_ok {use : NetUsage} {o : NetObj} : use.obj = .ok o ↔ use.Fits ∧ use.Exact o := by
  simp only [obj, bind_eq_ok_iff, convertRate_eq_ok, ceilObj_eq_ok, burstObj_eq_ok, pure_eq_ok_iff, Fits]
  constructor
  · rintro ⟨_, ⟨hrfit, hr⟩, _, ⟨hcfit, hc⟩, _, ⟨hbfit, hb⟩, rfl⟩
    exact ⟨⟨hrfit, hcfit, hbfit⟩, hr, hc, hb⟩
  · rintro ⟨⟨hrfit, hcfit, hbfit⟩, hr, hc, hb⟩
    exact ⟨_, ⟨hrfit, hr⟩, _, ⟨hcfit, hc⟩, _, ⟨hbfit, hb⟩, rfl⟩

theorem NetUsage.exists_obj (use : NetUsage) : (∃ o, use.obj = .ok o) ↔ use.Fits := by
  constructor
  · rintro ⟨o, ho⟩
    exact (obj_eq_ok.mp ho).1
  · intro h
    obtain ⟨rate, hrate⟩ := exists_scaled h.1
    have hceil : ∃ z, match use.ceil with
        | none => z = 0
        | some (ceil, ceilUnit) => Scaled ceil ceilUnit.bits z := by
      cases hc : use.ceil with
      | none => exact ⟨0, rfl⟩
      | some c => exact exists_scaled (h.2.1 c hc)
    have hburst : ∃ z, match use.burst with
        | none => z = 0
        | some (burst, _) => Scaled burst 10 z := by
      cases hb : use.burst with
      | none => exact ⟨0, rfl⟩
      | some b => exact exists_scaled (h.2.2 b hb)
    obtain ⟨ceil, hceil⟩ := hceil
    obtain ⟨burst, hburst⟩ := hburst
    exact ⟨⟨some rate, some ceil, burst⟩, obj_eq_ok.mpr ⟨h, ⟨rate, rfl, hrate⟩, ⟨ceil, rfl, hceil⟩, hburst⟩⟩

/-! ### All clauses -/

theorem last_append {α : Type} (kind : Usage → Option α) (usage : List Usage) (u : Usage) :
    last kind (usage ++ [u]) = (kind u).or (last kind usage) := by
  rw [last, List.reverse_append, List.reverse_singleton, List.singleton_append, List.findSome?_cons]
  cases kind u <;> rfl

theorem rel_map {α β : Type} {r : α → β → Prop} {a : Option α} (f : α → β) :
    Option.Rel r a (a.map f) ↔ ∀ x ∈ a, r x (f x) := by
  cases a with
  | none => exact iff_of_true .none nofun
  | some x =>
    constructor
    · intro hrel y hy
      obtain rfl := Option.some.inj hy
      exact Option.rel_some_some.mp hrel
    · exact fun h => .some (h x rfl)

theorem rel_mono {α β : Type} {r r' : α → β → Prop} (h : ∀ x y, r x y → r' x y) {a : Option α} {b : Option β}
    (hrel : Option.Rel r a b) : Option.Rel r' a b := by
  cases hrel with
  | none => exact .none
  | some hxy => exact .some (h _ _ hxy)

/-- What `getUsage` has set after the clauses. -/
structure Sets (usage : List Usage) (obj : UsageObj) : Prop where
  cpu : obj.cpu = (last Usage.cpu? usage).map CPUUsage.obj
  mem : obj.mem = (last Usage.mem? usage).map MemUsage.obj
  spc : obj.spc = (last Usage.space? usage).map SpaceUsage.obj
  net : Option.Rel (fun use o => use.obj = .ok o) (last Usage.net? usage) obj.net

theorem sets_of_getUsage {usage : List Usage} {obj : UsageObj} (h : getUsage usage = .ok obj) : Sets usage obj := by
  induction usage using List.reverseRecOn generalizing obj with
  | nil =>
    obtain rfl := Except.ok.inj h
    exact ⟨rfl, rfl, rfl, .none⟩
  | append_singleton usage u ih =>
    obtain ⟨obj', h', hu⟩ := foldlM_concat_eq_ok_iff.mp h
    obtain ⟨hcpu, hmem, hspc, hnet⟩ := ih h'
    cases u with
    | cpu use =>
      obtain rfl := pure_eq_ok_iff.mp hu
      exact ⟨by rw [last_append]; rfl, by rw [last_append]; exact hmem, by rw [last_append]; exact hspc,
        by rw [last_append]; exact hnet⟩
    | mem use =>
      obtain rfl := pure_eq_ok_iff.mp hu
      exact ⟨by rw [last_append]; exact hcpu, by rw [last_append]; rfl, by rw [last_append]; exact hspc,
        by rw [last_append]; exact hnet⟩
    | space use =>
      obtain rfl := pure_eq_ok_iff.mp hu
      exact ⟨by rw [last_append]; exact hcpu, by rw [last_append]; exact hmem, by rw [last_append]; rfl,
        by rw [last_append]; exact hnet⟩
    | net use =>
      obtain ⟨net, hobj, hpure⟩ := bind_eq_ok_iff.mp hu
      obtain rfl := pure_eq_ok_iff.mp hpure
      exact ⟨by rw [last_append]; exact hcpu, by rw [last_append]; exact hmem, by rw [last_append]; exact hspc,
        by rw [last_append]; exact .some hobj⟩

/-- There is an exception only for a rate that is too large. -/
theorem exists_getUsage_iff (usage : List Usage) :
    (∃ obj, getUsage usage = .ok obj) ↔ ∀ use, .net use ∈ usage → use.Fits := by
  induction usage using List.reverseRecOn with
  | nil => exact iff_of_true ⟨_, rfl⟩ fun _ h => absurd h List.not_mem_nil
  | append_singleton usage u ih =>
    have hstep : (∃ obj, getUsage (usage ++ [u]) = .ok obj) ↔
        (∃ obj, getUsage usage = .ok obj) ∧ ∀ use, u = .net use → ∃ o, use.obj = .ok o := by
      simp only [getUsage, foldlM_concat_eq_ok_iff]
      constructor
      · rintro ⟨obj, obj', h', hu⟩
        refine ⟨⟨obj', h'⟩, ?_⟩
        rintro use rfl
        obtain ⟨o, ho, -⟩ := bind_eq_ok_iff.mp hu
        exact ⟨o, ho⟩
      · rintro ⟨⟨obj', h'⟩, hu⟩
        cases u with
        | net use =>
          obtain ⟨o, ho⟩ := hu use rfl
          exact ⟨_, obj', h', bind_eq_ok_iff.mpr ⟨o, ho, rfl⟩⟩
        | cpu use | mem use | space use => exact ⟨_, obj', h', rfl⟩
    simp only [hstep, ih, NetUsage.exists_obj, List.mem_append, List.mem_singleton, or_imp, forall_and,
      eq_comm (a := u)]

/-- **Limits are exact**, without an exception, exactly if the last clause for memory and the last for space have their
units, and no rate is too large for a double. -/
theorem converts_iff (usage : List Usage) :
    (∃ obj, getUsage usage = .ok obj ∧ Converts usage obj) ↔
      (∀ use ∈ last Usage.mem? usage, use.unit.isSome) ∧ (∀ use ∈ last Usage.space? usage, use.unit.isSome) ∧
        ∀ use, .net use ∈ usage → use.Fits := by
  constructor
  · rintro ⟨obj, hobj, h⟩
    have hsets := sets_of_getUsage hobj
    refine ⟨fun use huse => ?_, fun use huse => ?_, (exists_getUsage_iff usage).mp ⟨obj, hobj⟩⟩
    · have hrel := h.mem
      rw [hsets.mem, rel_map] at hrel
      have heq := hrel use huse
      rw [MemUsage.obj_eq] at heq
      by_contra hunit
      simp [hunit] at heq
    · have hrel := h.spc
      rw [hsets.spc, rel_map] at hrel
      have heq := hrel use huse
      rw [SpaceUsage.obj_eq] at heq
      by_contra hunit
      simp [hunit] at heq
  · rintro ⟨hmem, hspc, hnet⟩
    obtain ⟨obj, hobj⟩ := (exists_getUsage_iff usage).mpr hnet
    have hsets := sets_of_getUsage hobj
    refine ⟨obj, hobj, ?_, ?_, ?_, ?_⟩
    · rw [hsets.cpu, rel_map]
      exact fun use _ => use.exact_obj
    · rw [hsets.mem, rel_map]
      exact fun use huse => by rw [MemUsage.obj_eq, if_pos (hmem use huse)]
    · rw [hsets.spc, rel_map]
      exact fun use huse => by rw [SpaceUsage.obj_eq, if_pos (hspc use huse)]
    · refine rel_mono (fun use o h => ?_) hsets.net
      exact (NetUsage.obj_eq_ok.mp h).2

/-- A limit of memory, and one of space, without a unit. -/
theorem not_converts :
    (¬∃ obj, getUsage [.mem ⟨200, none⟩] = .ok obj ∧ Converts [.mem ⟨200, none⟩] obj) ∧
      ¬∃ obj, getUsage [.space ⟨200, none⟩] = .ok obj ∧ Converts [.space ⟨200, none⟩] obj := by
  refine ⟨fun ⟨obj, hobj, h⟩ => ?_, fun ⟨obj, hobj, h⟩ => ?_⟩
  · obtain rfl := Except.ok.inj hobj
    have hrel := Option.rel_some_some.mp h.mem
    cases hrel
  · obtain rfl := Except.ok.inj hobj
    have hrel := Option.rel_some_some.mp h.spc
    cases hrel

/-! ### The limits in the resource manager -/

/-- The limits as the resource manager sees them. -/
def UsageObj.settings (obj : UsageObj) : Deployment.Usage where
  cpu := obj.cpu.map CpuObj.max
  mem := obj.mem.isSome
  spc := obj.spc.map Option.isSome
  net := obj.net.map NetObj.rate

/-- An actor of a model can be added exactly if its last clause for space has a unit. -/
theorem new_settings_isSome {usage : List Usage} {obj : UsageObj} (h : getUsage usage = .ok obj)
    (cgroups : Deployment.Cgroups) (memFiles : Bool) :
    (Deployment.ActorResourceManager.new cgroups memFiles (some obj.settings)).isSome ↔
      ∀ use ∈ last Usage.space? usage, use.unit.isSome := by
  have hspc : obj.settings.spc = (last Usage.space? usage).map fun use => use.unit.isSome := by
    show obj.spc.map Option.isSome = _
    rw [(sets_of_getUsage h).spc, Option.map_map]
    congr 1
    funext use
    rw [Function.comp_apply, SpaceUsage.obj_eq]
    cases use.unit <;> rfl
  rw [Deployment.ActorResourceManager.new, hspc]
  cases last Usage.space? usage with
  | none => simp
  | some use => cases hunit : use.unit <;> simp [hunit]

end Riaps.Lang
