import Riaps.Foundation.Regions
import Riaps.Lang.Model

/-!
# The template of a component

What the generator writes for a component: an import section, the class with its
constructor, a handler for each port that has one, and a section for the rest. Each of these
is a region, between two marks that have its name, in which the user may write.

The name of a port's region is the port's in lower case, which may be that of another port,
or that of a section.
-/

namespace Riaps.Gen

open Riaps.Foundation
open Riaps.Lang (PortClass)

/-- `ID`; any word is let in. -/
@[ext] structure Identifier where
  text : Text
  word : ∀ c ∈ text, isWord c = true
  deriving DecidableEq

def Identifier.imports : Identifier := ⟨lit "import", List.all_eq_true.mp (by decide +kernel)⟩

def Identifier.constr : Identifier := ⟨lit "constr", List.all_eq_true.mp (by decide +kernel)⟩

def Identifier.impl : Identifier := ⟨lit "impl", List.all_eq_true.mp (by decide +kernel)⟩

structure Component where
  appname : Identifier
  name : Identifier
  formals : List Identifier
  /-- The names of the ports, by their classes, in order. -/
  ports : List (PortClass × List Identifier)
  /-- No two ports have the same name. -/
  nodup : (ports.flatMap Prod.snd).Nodup

/-! ### `comp.py.tpl` -/

/-- The classes in `handler_ports`. -/
def handlerPorts : List PortClass := [.clt, .ans, .qry, .rep, .req, .srv, .sub, .tim, .ins]

/-- `# riaps:keep_…:begin`. -/
def keepBegin (name : Identifier) : Text := lit "# riaps:keep_" ++ name.text ++ lit ":begin"

/-- `# riaps:keep_…:end`. -/
def keepEnd (name : Identifier) : Text := lit "# riaps:keep_" ++ name.text ++ lit ":end"

/-- `args`. -/
def args (component : Component) : Text := component.formals.flatMap fun key => lit ", " ++ key.text

/-- The handler of a port. -/
def handler (lower : Identifier → Identifier) (port_name : Identifier) : Text :=
  keepBegin (lower port_name) ++ lit "\n    def on_" ++ port_name.text ++ lit "(self):\n        pass\n" ++
    keepEnd (lower port_name) ++ lit "\n\n"

/-- What the template is rendered to, for the element and the filter `lower`. -/
def compPy (lower : Identifier → Identifier) (element : Component) : Text :=
  keepBegin .imports ++ lit "\nfrom riaps.run.comp import Component\nimport spdlog\nimport capnp\nimport " ++
    (lower element.appname).text ++ lit "_capnp\n\n" ++ keepEnd .imports ++
    lit "\n\nclass " ++ element.name.text ++ lit "(Component):\n\n" ++
    keepBegin .constr ++ lit "\n    def __init__(self" ++ args element ++ lit "):\n        super(" ++
    element.name.text ++ lit ", self).__init__()\n" ++ keepEnd .constr ++ lit "\n\n" ++
    (element.ports.flatMap fun port =>
      if port.2 ≠ [] ∧ port.1 ∈ handlerPorts then port.2.flatMap (handler lower) else []) ++
    keepBegin .impl ++ lit "\n\n" ++ keepEnd .impl

/-! ### Its regions -/

inductive Region where
  | imports
  | constr
  | impl
  | port (name : Identifier)
  deriving DecidableEq

/-- The name of a region. -/
def Region.name (lower : Identifier → Identifier) : Region → Identifier
  | .imports => .imports
  | .constr => .constr
  | .impl => .impl
  | .port name => lower name

/-- The regions that each component has. -/
def Region.sections : List Region := [.imports, .constr, .impl]

theorem Region.name_inj_of_mem_sections {lower : Identifier → Identifier} {region region' : Region}
    (h : region ∈ sections) (h' : region' ∈ sections) (heq : region.name lower = region'.name lower) :
    region = region' := by
  have hdistinct : [Identifier.imports, .constr, .impl].Nodup := by decide +kernel
  have hnodup : (sections.map (Region.name lower)).Nodup := hdistinct
  exact List.inj_on_of_nodup_map hnodup h h' heq

/-- No mark begins in the text, and it is read as it is. -/
def Plain (t : Text) : Prop := '#' ∉ t ∧ '\r' ∉ t

instance (t : Text) : Decidable (Plain t) := inferInstanceAs (Decidable (_ ∧ _))

@[simp] theorem plain_append {t u : Text} : Plain (t ++ u) ↔ Plain t ∧ Plain u := by
  simp only [Plain, List.mem_append, not_or]
  exact and_and_and_comm

theorem Identifier.notMem (n : Identifier) {c : Char} (hc : isWord c = false) : c ∉ n.text :=
  fun h => absurd (n.word c h) (by simp [hc])

@[simp] theorem Identifier.plain (n : Identifier) : Plain n.text := ⟨n.notMem (by decide), n.notMem (by decide)⟩

/-- What comes after the `#` of a mark. -/
def keepTag : Tag Identifier → Text
  | .opening n => lit " riaps:keep_" ++ (n.text ++ ':' :: lit "begin")
  | .closing n => lit " riaps:keep_" ++ (n.text ++ ':' :: lit "end")

theorem mem_keepTag {t : Tag Identifier} {c : Char} (h : c ∈ keepTag t) : c = ' ' ∨ c = ':' ∨ isWord c = true := by
  have hfixed : ∀ {t : Text}, (t.all fun c => c = ' ' ∨ c = ':' ∨ isWord c = true) = true → c ∈ t →
      c = ' ' ∨ c = ':' ∨ isWord c = true := fun ht hc => of_decide_eq_true (List.all_eq_true.mp ht c hc)
  cases t with
  | opening n =>
    rw [keepTag, List.mem_append, List.mem_append] at h
    obtain h | h | h := h
    · exact hfixed (by decide +kernel) h
    · exact .inr (.inr (n.word c h))
    · exact hfixed (by decide +kernel) h
  | closing n =>
    rw [keepTag, List.mem_append, List.mem_append] at h
    obtain h | h | h := h
    · exact hfixed (by decide +kernel) h
    · exact .inr (.inr (n.word c h))
    · exact hfixed (by decide +kernel) h

theorem keepTag_inj {s t : Tag Identifier} (h : keepTag s <+: keepTag t) : s = t := by
  have hname : ∀ {n m : Identifier} {x y : Text}, n.text ++ ':' :: x <+: m.text ++ ':' :: y → n = m ∧ x <+: y := by
    rintro n m x y ⟨z, hz⟩
    rw [List.append_assoc, List.cons_append,
      append_separator_inj (n.notMem (by decide)) (m.notMem (by decide))] at hz
    exact ⟨Identifier.ext hz.1, z, hz.2⟩
  cases s with
  | opening n =>
    cases t with
    | opening m =>
      rw [keepTag, keepTag, List.prefix_append_right_inj] at h
      rw [(hname h).1]
    | closing m =>
      rw [keepTag, keepTag, List.prefix_append_right_inj] at h
      exact absurd (hname h).2 (by decide +kernel)
  | closing n =>
    cases t with
    | opening m =>
      rw [keepTag, keepTag, List.prefix_append_right_inj] at h
      exact absurd (hname h).2 (by decide +kernel)
    | closing m =>
      rw [keepTag, keepTag, List.prefix_append_right_inj] at h
      rw [(hname h).1]

/-- The marks. -/
def keepMarks : Marks (Tag Identifier) Char where
  sep := '#'
  tag := keepTag
  sep_notMem _ h := absurd (mem_keepTag h) (by decide)
  tag_inj _ _ := keepTag_inj

theorem mem_mark {t : Tag Identifier} {c : Char} (h : c ∈ keepMarks.mark t) :
    c = '#' ∨ c = ' ' ∨ c = ':' ∨ isWord c = true :=
  (List.mem_cons.mp h).imp_right mem_keepTag

theorem lit_keep : lit "# riaps:keep_" = '#' :: lit " riaps:keep_" := by decide +kernel

theorem mark_opening (n : Identifier) : keepMarks.mark (.opening n) = keepBegin n := by
  have hbegin : lit ":begin" = ':' :: lit "begin" := by decide +kernel
  rw [keepBegin, lit_keep, hbegin, List.append_assoc]
  rfl

theorem mark_closing (n : Identifier) : keepMarks.mark (.closing n) = keepEnd n := by
  have hend : lit ":end" = ':' :: lit "end" := by decide +kernel
  rw [keepEnd, lit_keep, hend, List.append_assoc]
  rfl

namespace Component

variable (component : Component)

/-- The ports with a handler. -/
def handlers : List Identifier := (component.ports.filter fun port => port.1 ∈ handlerPorts).flatMap Prod.snd

/-- What is in a region at first. -/
def body (lower : Identifier → Identifier) : Region → Text
  | .imports =>
    lit "\nfrom riaps.run.comp import Component\nimport spdlog\nimport capnp\nimport " ++
      (lower component.appname).text ++ lit "_capnp\n\n"
  | .constr =>
    lit "\n    def __init__(self" ++ args component ++ lit "):\n        super(" ++ component.name.text ++
      lit ", self).__init__()\n"
  | .impl => lit "\n\n"
  | .port name => lit "\n    def on_" ++ name.text ++ lit "(self):\n        pass\n"

/-- The regions, and what is between them. -/
def pieces : List (Piece Char Region) :=
  [.region .imports, .text (lit "\n\nclass " ++ component.name.text ++ lit "(Component):\n\n"), .region .constr,
    .text (lit "\n\n")] ++
    (component.handlers.flatMap fun name => [.region (.port name), .text (lit "\n\n")]) ++ [.region .impl]

theorem regions_flatMap (names : List Identifier) :
    regions (names.flatMap fun name => [.region (.port name), .text (lit "\n\n")] : List (Piece Char Region)) =
      names.map Region.port := by
  induction names with
  | nil => rfl
  | cons name names ih => exact congrArg (Region.port name :: ·) ih

theorem regions_pieces :
    regions component.pieces = .imports :: .constr :: (component.handlers.map Region.port ++ [.impl]) := by
  rw [pieces, regions_append, regions_append, regions_flatMap]
  rfl

theorem mem_regions {region : Region} :
    region ∈ regions component.pieces ↔
      region ∈ Region.sections ∨ ∃ port ∈ component.handlers, .port port = region := by
  rw [regions_pieces]
  simp only [Region.sections, List.mem_cons, List.mem_append, List.mem_map, List.not_mem_nil, or_false]
  rw [or_assoc, or_assoc, or_comm (a := region = .impl)]

theorem nodup_handlers : component.handlers.Nodup := component.nodup.sublist (List.filter_sublist.flatMap _)

theorem nodup_regions : (regions component.pieces).Nodup := by
  have hport : Function.Injective Region.port := fun _ _ => Region.port.inj
  rw [regions_pieces, List.nodup_cons, List.nodup_cons, List.nodup_append]
  refine ⟨by simp, by simp, component.nodup_handlers.map hport, List.nodup_singleton _, ?_⟩
  simp

theorem plain_of_text_mem {t : Text} (h : .text t ∈ component.pieces) : Plain t := by
  simp only [pieces, List.mem_append, List.mem_cons, List.mem_flatMap, List.not_mem_nil, Piece.text.injEq, reduceCtorEq,
    false_or, or_false] at h
  obtain (rfl | rfl) | ⟨name, -, rfl⟩ := h
  · rw [plain_append, plain_append]
    exact ⟨⟨by decide +kernel, Identifier.plain _⟩, by decide +kernel⟩
  · decide +kernel
  · decide +kernel

theorem plain_args : Plain (args component) := by
  rw [args]
  induction component.formals with
  | nil => decide
  | cons key formals ih =>
    rw [List.flatMap_cons, plain_append, plain_append]
    exact ⟨⟨by decide +kernel, key.plain⟩, ih⟩

theorem plain_body (lower : Identifier → Identifier) (region : Region) : Plain (component.body lower region) := by
  cases region with
  | imports =>
    simp only [body, plain_append, Identifier.plain, and_true]
    decide +kernel
  | constr =>
    simp only [body, plain_append, Identifier.plain, plain_args, and_true]
    decide +kernel
  | impl => rw [body]; decide +kernel
  | port name =>
    simp only [body, plain_append, Identifier.plain, and_true]
    decide +kernel

def layout : Layout keepMarks.sep Region where
  pieces := component.pieces
  sep_notMem _ ht := (component.plain_of_text_mem ht).1
  nodup := component.nodup_regions

end Component

theorem render_handlers (lower : Identifier → Identifier) (component : Component) (names : List Identifier) :
    render keepMarks (Region.name lower) (component.body lower)
        (names.flatMap fun name => [.region (.port name), .text (lit "\n\n")]) = names.flatMap (handler lower) := by
  induction names with
  | nil => rfl
  | cons name names ih =>
    rw [List.flatMap_cons, List.flatMap_cons, render_append, ih]
    simp only [render, mark_opening, mark_closing, Component.body, Region.name, handler, List.append_assoc,
      List.append_nil]

theorem flatMap_handlers (component : Component) (f : Identifier → Text) :
    (component.ports.flatMap fun port => if port.2 ≠ [] ∧ port.1 ∈ handlerPorts then port.2.flatMap f else []) =
      component.handlers.flatMap f := by
  rw [Component.handlers]
  induction component.ports with
  | nil => rfl
  | cons port ports ih =>
    rw [List.flatMap_cons, ih]
    by_cases hport : port.1 ∈ handlerPorts
    · by_cases hnil : port.2 = [] <;> simp [hport, hnil]
    · simp [hport]

/-- The template is the layout with the bodies in it. -/
theorem compPy_eq (lower : Identifier → Identifier) (component : Component) :
    compPy lower component = component.layout.fill (Region.name lower) (component.body lower) := by
  delta compPy
  rw [flatMap_handlers]
  change _ = render keepMarks (Region.name lower) (component.body lower) component.pieces
  rw [Component.pieces, render_append, render_append, render_handlers]
  simp only [render, mark_opening, mark_closing, Component.body, Region.name, List.append_assoc, List.append_nil]

end Riaps.Gen
