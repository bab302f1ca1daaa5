import Riaps.Gen.CompTpl

/-!
# Keeping the user's code

When a component is generated again the regions of the file that was there are put into the
new one. For each section and each port there is a rule, which looks for the marks in both
texts and replaces what is between the first and the last of them.

The rules do what they are for if no region of the new file has the name of another one of
the old file, as two ports have that differ in case only. Even then a region is not kept in
which there is nothing, and of one that is kept the ends of the lines may change.
-/

namespace Riaps.Gen

open Riaps.Foundation

variable {lower : Identifier → Identifier}

/-! ### `FileSync` -/

/-- `py_rules`, by the names in the marks. -/
def pyRules (lower : Identifier → Identifier) (component : Component) : List Identifier :=
  [.imports, .impl, .constr] ++ component.ports.flatMap fun port => port.2.map lower

/-- `apply_py_rules`, for the contents of the two files: what it leaves in the second. -/
def applyPyRules (rules : List Identifier) (orig new : Text) : Text :=
  let orig_content := readText orig
  rules.foldl (fun new_content rule => transfer (keepBegin rule) (keepEnd rule) orig_content new_content) (readText new)

/-- A file that was generated for a version of the component, with what the user has made of its regions. -/
structure Edited where
  component : Component
  text : Region → Text
  /-- No mark has been written. -/
  free : ∀ region ∈ regions component.pieces, keepMarks.Free (text region)

/-- What is in the file. -/
def Edited.content (lower : Identifier → Identifier) (old : Edited) : Text :=
  old.component.layout.fill (Region.name lower) old.text

/-- What is to be in a region of the new file: the old text if the old file has the region. -/
def Edited.wanted (lower : Identifier → Identifier) (old : Edited) (new : Component) (region : Region) : Text :=
  if region ∈ regions old.component.pieces then old.text region else new.body lower region

/-- The user's code is kept. -/
structure Preserves (lower : Identifier → Identifier) (old : Edited) (new : Component) : Prop where
  renewed : applyPyRules (pyRules lower new) (old.content lower) (compPy lower new) =
    new.layout.fill (Region.name lower) (old.wanted lower new)
  /-- Once more changes nothing. -/
  again :
    let synced := applyPyRules (pyRules lower new) (old.content lower) (compPy lower new)
    applyPyRules (pyRules lower new) (old.content lower) synced = synced

/-- No region of the new file has the name of another one of the old file. -/
def Apart (lower : Identifier → Identifier) (old new : Component) : Prop :=
  ∀ region ∈ regions new.pieces, ∀ region' ∈ regions old.pieces, region.name lower = region'.name lower →
    region = region'

instance (lower : Identifier → Identifier) (old new : Component) : Decidable (Apart lower old new) :=
  inferInstanceAs (Decidable (∀ region ∈ _, ∀ region' ∈ _, _))

/-- Two ports are told apart by their names in lower case, and a port from a section. -/
theorem apart_iff {old new : Component} :
    Apart lower old new ↔ (∀ port ∈ new.handlers, ∀ port' ∈ old.handlers, lower port = lower port' → port = port') ∧
      ∀ port, port ∈ new.handlers ∨ port ∈ old.handlers → ∀ region ∈ Region.sections,
        lower port ≠ region.name lower := by
  have hport : ∀ {component : Component} {port}, port ∈ component.handlers → .port port ∈ regions component.pieces :=
    fun hmem => Component.mem_regions _ |>.mpr (.inr ⟨_, hmem, rfl⟩)
  have hsection : ∀ {component : Component} {region}, region ∈ Region.sections → region ∈ regions component.pieces :=
    fun hmem => Component.mem_regions _ |>.mpr (.inl hmem)
  have hne : ∀ {port}, Region.port port ∉ Region.sections := by simp [Region.sections]
  constructor
  · intro h
    refine ⟨fun port hnew port' hold heq => Region.port.inj (h _ (hport hnew) _ (hport hold) heq), ?_⟩
    rintro port (hnew | hold) region hregion heq
    · exact hne (h _ (hport hnew) _ (hsection hregion) heq ▸ hregion)
    · exact hne (h _ (hsection hregion) _ (hport hold) heq.symm ▸ hregion)
  · rintro ⟨hports, hsections⟩ region hregion region' hregion' heq
    obtain hregion | ⟨port, hnew, rfl⟩ := (new.mem_regions).mp hregion
    · obtain hregion' | ⟨port', hold, rfl⟩ := (old.mem_regions).mp hregion'
      · exact Region.name_inj_of_mem_sections hregion hregion' heq
      · exact absurd heq.symm (hsections port' (.inr hold) region hregion)
    · obtain hregion' | ⟨port', hold, rfl⟩ := (old.mem_regions).mp hregion'
      · exact absurd heq (hsections port (.inl hnew) region' hregion')
      · rw [hports port hnew port' hold heq]

/-! ### Reading -/

theorem free_readText {t : Text} (h : keepMarks.Free t) : keepMarks.Free (readText t) := fun s hin =>
  h s (infix_of_infix_readText (fun hmem => absurd (mem_mark hmem) (by decide)) hin)

theorem readText_render (name : Region → Identifier) (f : Region → Text) {ps : List (Piece Char Region)}
    (h : ∀ t, .text t ∈ ps → Plain t) :
    readText (render keepMarks name f ps) = render keepMarks name (fun region => readText (f region)) ps := by
  have hmark : ∀ t : Tag Identifier, '\r' ∉ keepMarks.mark t := fun t hmem => absurd (mem_mark hmem) (by decide)
  induction ps with
  | nil => rfl
  | cons p ps ih =>
    have hrest := ih fun t ht => h t (List.mem_cons_of_mem _ ht)
    cases p with
    | text t => rw [render, render, readText_append (h t List.mem_cons_self).2, hrest]
    | region k =>
      have hclosing := readText_append (hmark (.closing (name k))) (render keepMarks name f ps)
      rw [render, render, readText_append (hmark _), ← hrest, ← hclosing]
      exact congrArg _ (readText_append_cons (f k) (by decide) _)

/-! ### The rules -/

theorem name_mem_pyRules {component : Component} {region : Region} (h : region ∈ regions component.pieces) :
    region.name lower ∈ pyRules lower component := by
  rw [pyRules, List.mem_append]
  obtain hsection | ⟨name, hname, rfl⟩ := component.mem_regions.mp h
  · simp only [Region.sections, List.mem_cons, List.not_mem_nil, or_false] at hsection
    rcases hsection with rfl | rfl | rfl <;> simp [Region.name]
  · obtain ⟨port, hport, hmem⟩ := List.mem_flatMap.mp hname
    exact .inr (List.mem_flatMap.mpr ⟨port, (List.mem_filter.mp hport).1, List.mem_map_of_mem hmem⟩)

theorem body_ne_nil (component : Component) (region : Region) : component.body lower region ≠ [] := by
  cases region with
  | imports | constr | port => exact List.append_ne_nil_of_right_ne_nil _ (by decide +kernel)
  | impl =>
    change lit "\n\n" ≠ []
    decide +kernel

/-- All rules together: the regions that the old file has are replaced, unless there is nothing in them. -/
theorem applyPyRules_fill {old : Edited} {new : Component} (h : Apart lower old.component new) {f : Region → Text}
    (hfree : new.layout.Free f) (hf : ∀ region ∈ regions new.pieces, f region ≠ [] ∧ '\r' ∉ f region) :
    applyPyRules (pyRules lower new) (old.content lower) (new.layout.fill (Region.name lower) f) =
      new.layout.fill (Region.name lower) fun region =>
        if region ∈ regions old.component.pieces ∧ old.text region ≠ [] then readText (old.text region)
        else f region := by
  have hold : readText (old.content lower) =
      old.component.layout.fill (Region.name lower) fun region => readText (old.text region) :=
    readText_render _ _ fun _ => old.component.plain_of_text_mem
  have hnew : readText (new.layout.fill (Region.name lower) f) = new.layout.fill (Region.name lower) f :=
    (readText_render _ _ fun _ => new.plain_of_text_mem).trans
      (render_congr fun region hregion => readText_eq_self.mpr (hf region hregion).2)
  rw [applyPyRules, hold, hnew]
  simp only [← mark_opening, ← mark_closing]
  rw [Layout.foldl_transfer_fill (o := old.component.layout)
    (fun region hregion => free_readText (old.free region hregion)) hfree
    (fun region hregion => (hf region hregion).1) _ h]
  refine render_congr fun region hregion => ?_
  simp only [name_mem_pyRules hregion, true_and, ne_eq, readText_eq_nil]
  rfl

/-! ### What is kept -/

/-- What the rules leave in a region of the new file. -/
def Edited.synced (lower : Identifier → Identifier) (old : Edited) (new : Component) (region : Region) : Text :=
  if region ∈ regions old.component.pieces ∧ old.text region ≠ [] then readText (old.text region)
  else new.body lower region

variable {old : Edited} {new : Component}

theorem free_body (component : Component) (region : Region) : keepMarks.Free (component.body lower region) :=
  Marks.free_of_notMem (component.plain_body lower region).1

theorem free_wanted (region : Region) : keepMarks.Free (old.wanted lower new region) := by
  rw [Edited.wanted]
  split_ifs with hold
  exacts [old.free region hold, free_body new region]

theorem free_synced (region : Region) : keepMarks.Free (old.synced lower new region) := by
  rw [Edited.synced]
  split_ifs with hold
  exacts [free_readText (old.free region hold.1), free_body new region]

theorem synced_ne_nil (region : Region) : old.synced lower new region ≠ [] := by
  rw [Edited.synced]
  split_ifs with hold
  exacts [mt readText_eq_nil.mp hold.2, body_ne_nil new region]

theorem cr_notMem_synced (region : Region) : '\r' ∉ old.synced lower new region := by
  rw [Edited.synced]
  split_ifs with hold
  exacts [cr_notMem_readText _, (new.plain_body lower region).2]

/-- A region is as it is to be if the old file does not have it, or has something in it that is read as it is. -/
theorem synced_eq_wanted_iff (region : Region) :
    old.synced lower new region = old.wanted lower new region ↔
      (region ∈ regions old.component.pieces → old.text region ≠ [] ∧ '\r' ∉ old.text region) := by
  rw [Edited.synced, Edited.wanted]
  by_cases hold : region ∈ regions old.component.pieces
  · by_cases hnil : old.text region = []
    · simp [hold, hnil, body_ne_nil]
    · simp [hold, hnil, readText_eq_self]
  · simp [hold]

/-- The new file after the rules, -/
theorem applyPyRules_compPy (h : Apart lower old.component new) :
    applyPyRules (pyRules lower new) (old.content lower) (compPy lower new) =
      new.layout.fill (Region.name lower) (old.synced lower new) := by
  rw [compPy_eq]
  exact applyPyRules_fill h (fun region _ => free_body new region)
    fun region _ => ⟨body_ne_nil new region, (new.plain_body lower region).2⟩

/-- and after them once more. -/
theorem applyPyRules_synced (h : Apart lower old.component new) :
    applyPyRules (pyRules lower new) (old.content lower) (new.layout.fill (Region.name lower) (old.synced lower new)) =
      new.layout.fill (Region.name lower) (old.synced lower new) := by
  rw [applyPyRules_fill h (fun region _ => free_synced region)
    fun region _ => ⟨synced_ne_nil region, cr_notMem_synced region⟩]
  refine render_congr fun region _ => ?_
  rw [Edited.synced]
  split_ifs <;> rfl

/-- With the names apart, the user's code is kept exactly if each region that both files have had something in it,
and no carriage return. -/
theorem preserves_iff (h : Apart lower old.component new) :
    Preserves lower old new ↔ ∀ region ∈ regions new.pieces, region ∈ regions old.component.pieces →
      old.text region ≠ [] ∧ '\r' ∉ old.text region := by
  have hfirst := applyPyRules_compPy h
  constructor
  · intro hkept region hregion
    have heq := hfirst.symm.trans hkept.renewed
    exact (synced_eq_wanted_iff region).mp
      (render_inj (fun region _ => free_synced region) (fun region _ => free_wanted region) heq region hregion)
  · intro htexts
    have hwanted : ∀ region ∈ regions new.pieces, old.synced lower new region = old.wanted lower new region :=
      fun region hregion => (synced_eq_wanted_iff region).mpr (htexts region hregion)
    refine ⟨hfirst.trans (render_congr hwanted), ?_⟩
    rw [hfirst]
    exact applyPyRules_synced h

/-! ### Generating again and again -/

/-- A component is generated, and what was there before is kept. -/
def regenerate (lower : Identifier → Identifier) (content : Text) (new : Component) : Text :=
  applyPyRules (pyRules lower new) content (compPy lower new)

/-- The file that is left, as one of the new version. -/
def Edited.next (lower : Identifier → Identifier) (old : Edited) (new : Component) : Edited where
  component := new
  text := old.synced lower new
  free region _ := free_synced region

/-- If the names of each version are apart from those of the one before, what is left at the end is such a file, -/
theorem foldl_regenerate {old : Edited} {news : List Component}
    (h : List.IsChain (Apart lower) (old.component :: news)) :
    news.foldl (regenerate lower) (old.content lower) = (news.foldl (Edited.next lower) old).content lower := by
  induction news generalizing old with
  | nil => rfl
  | cons new news ih =>
    obtain ⟨hfirst, hrest⟩ := List.isChain_cons_cons.mp h
    have hnext : regenerate lower (old.content lower) new = (old.next lower new).content lower :=
      applyPyRules_compPy hfirst
    rw [List.foldl_cons, List.foldl_cons, hnext]
    exact ih hrest

/-- and a region that all versions have is in it as the user left it. -/
theorem text_foldl_next {old : Edited} {news : List Component} {region : Region}
    (hold : region ∈ regions old.component.pieces) (hnews : ∀ new ∈ news, region ∈ regions new.pieces)
    (hnil : old.text region ≠ []) (hcr : '\r' ∉ old.text region) :
    (news.foldl (Edited.next lower) old).text region = old.text region := by
  induction news generalizing old with
  | nil => rfl
  | cons new news ih =>
    have hnext : (old.next lower new).text region = old.text region :=
      (if_pos ⟨hold, hnil⟩).trans (readText_eq_self.mpr hcr)
    have hmem : region ∈ regions (old.next lower new).component.pieces := hnews new List.mem_cons_self
    have hrest := ih hmem (fun new' hnew' => hnews new' (List.mem_cons_of_mem _ hnew')) (by rwa [hnext])
      (by rwa [hnext])
    exact hrest.trans hnext

/-! ### A new port -/

theorem isLower_toLower {c : Char} (h : c.isUpper = true) : c.toLower.isLower = true := by
  have hle : c.val ≥ 'A'.val ∧ c.val ≤ 'Z'.val := of_decide_eq_true h
  have hlow : 65 ≤ c.val.toNat := UInt32.le_iff_toNat_le.mp hle.1
  have hhigh : c.val.toNat ≤ 90 := UInt32.le_iff_toNat_le.mp hle.2
  have hval : c.toLower.val = c.val + 32 := congrArg Char.val (dif_pos hle)
  have hadd : (c.val + 32).toNat = c.val.toNat + 32 := by
    rw [UInt32.toNat_add]
    exact Nat.mod_eq_of_lt (by change c.val.toNat + 32 < 2 ^ 32; omega)
  refine Bool.and_eq_true_iff.mpr ⟨decide_eq_true (UInt32.le_iff_toNat_le.mpr ?_),
    decide_eq_true (UInt32.le_iff_toNat_le.mpr ?_)⟩
  · change 97 ≤ c.toLower.val.toNat
    rw [hval]
    omega
  · change c.toLower.val.toNat ≤ 122
    rw [hval]
    omega

/-- `lower`, of names in ASCII. -/
def asciiLower (name : Identifier) : Identifier where
  text := name.text.map Char.toLower
  word c hc := by
    obtain ⟨d, hd, rfl⟩ := List.mem_map.mp hc
    by_cases hupper : d.isUpper = true
    · have halpha : d.toLower.isAlphanum = true :=
        Bool.or_eq_true_iff.mpr (.inl (Bool.or_eq_true_iff.mpr (.inr (isLower_toLower hupper))))
      rw [isWord, halpha, Bool.true_or, Bool.true_or]
    · have hsame : d.toLower = d := dif_neg fun hle => hupper (decide_eq_true hle)
      rw [hsame]
      exact name.word d hd

/-- A name of one letter. -/
def letter (c : Char) (h : isWord c = true) : Identifier := ⟨[c], by simpa using h⟩

/-- A component with timers. -/
def timers (names : List Identifier) (h : names.Nodup) : Component where
  appname := letter 'x' rfl
  name := letter 'X' rfl
  formals := []
  ports := [(.tim, names)]
  nodup := by simpa using h

/-- What was generated for the timer `a`, as it is. -/
def generated : Edited where
  component := timers [letter 'a' rfl] (by decide)
  text := (timers [letter 'a' rfl] (by decide)).body asciiLower
  free region _ := free_body _ region

/-- It is kept when there is a timer `b` too, -/
theorem preserves_b : Preserves asciiLower generated (timers [letter 'a' rfl, letter 'b' rfl] (by decide)) :=
  (preserves_iff (by decide +kernel)).mpr fun region _ _ =>
    ⟨body_ne_nil _ region, (Component.plain_body _ asciiLower region).2⟩

/-- but not when there is one `A`: the text from the region of `a` to that of `A` is replaced by the old one. -/
theorem not_preserves : ¬Preserves asciiLower generated (timers [letter 'a' rfl, letter 'A' rfl] (by decide)) :=
  fun h => absurd h.renewed (by decide +kernel)

end Riaps.Gen
