import Vitae.Proofs.Agreement
import Vitae.Proofs.Carried

/-! How far an override reaches.

Two documents that differ only in their overrides are compiled side by side. They fail in one
way or give pages that differ at most in the items of a section, and there only when the
overrides of that very section differ (`Compile.compileDraft_overrides_local`). Values that
differ only in the fields of their overrides are compiled as such documents
(`Compile.Accepts.sameButOverrides`). -/

namespace Vitae

/-- Documents that a page shows alike but for their overrides. -/
structure Document.SameButOverrides (a b : Document) : Prop where
  version : a.version = b.version
  layout : a.layout = b.layout
  tokens : a.tokens = b.tokens
  sections : a.sections = b.sections

/-- Fields that differ at most in the overrides. -/
def Fields.SameButOverrides : Fields → Fields → Prop :=
  AgreeBeside ["itemOverrides", "item_overrides"]

/-- A section on the pages of two documents: what it shows differs at most in its items, and
only where the documents hold different overrides for it. -/
structure PlacedSection.SameButItems (a b : Document) (p q : PlacedSection) : Prop where
  id : p.id = q.id
  columnId : p.columnId = q.columnId
  order : p.order = q.order
  styles : p.styles = q.styles
  payload : Payload.SameButItems p.payload q.payload
  overrides : p.payload ≠ q.payload → a.overridesFor p.id ≠ b.overridesFor p.id

/-- The pages of two documents that differ, besides in the time they were made, at most in the
items of sections. -/
structure Ast.SameButItems (a b : Document) (x y : Ast) : Prop where
  info : x.timeless.info = y.timeless.info
  page : x.page = y.page
  sections : List.Forall₂ (PlacedSection.SameButItems a b) x.sections y.sections
  globalStyles : x.globalStyles = y.globalStyles

/-! ### Documents before they are read -/

/-- Only the overrides differ where only they are set. -/
theorem Fields.sameButOverrides_set (fields : Fields) (u w : Value) :
    SameButOverrides (Keyed.set fields "itemOverrides" u)
      (Keyed.set fields "itemOverrides" w) := by
  intro key hkey
  have hne := Key.beq_str_eq_false (hkey "itemOverrides" (by decide))
  rw [Keyed.get?_set_of_ne fields u hne, Keyed.get?_set_of_ne fields w hne]

theorem Migration.carried_sameButOverrides : Carried Fields.SameButOverrides where
  agree h name hname := by
    refine h.get?_eq ?_
    revert name
    decide
  set h name _ v := h.set name v
  fill h := h.setDefault (by decide) _

theorem Document.ReadFrom.sameButOverrides {u w : Fields} {a b : Document}
    (h : u.SameButOverrides w) (ha : a.ReadFrom u) (hb : b.ReadFrom w) : a.SameButOverrides b := by
  have hread {α : Type} {name : String} {read : Value → Checked α} {x y : α}
      (hname : name ∉ ["itemOverrides", "item_overrides"])
      (hx : (FieldName.word name).required u read = .ok x)
      (hy : (FieldName.word name).required w read = .ok y) : x = y := by
    rw [h.required_eq hname, hy] at hx
    exact (Checked.ok.inj hx).symm
  exact
    { version := hread (by decide) ha.version hb.version
      layout := hread (by decide) ha.layout hb.layout
      tokens := hread (by decide) ha.tokens hb.tokens
      sections := hread (by decide) ha.sections hb.sections }

/-- Values that differ in nothing but their overrides are compiled as such documents. -/
theorem Compile.Accepts.sameButOverrides {u w : Fields} {a b : Document}
    (h : u.SameButOverrides w) (ha : Accepts Migration.builtin (.object u) a)
    (hb : Accepts Migration.builtin (.object w) b) : a.SameButOverrides b := by
  obtain ⟨current, hcurrent, ha⟩ := ha
  obtain ⟨other, hother, hb⟩ := hb
  obtain ⟨cu, cw, rfl, hcw, hsame⟩ := Migration.carried_sameButOverrides.exists_upToDate h hcurrent
  cases hcw.symm.trans hother
  obtain ⟨_, hobject, ha⟩ := Document.read_eq_ok.mp (Validation.validate_eq_ok.mp ha).1
  cases hobject
  obtain ⟨_, hobject, hb⟩ := Document.read_eq_ok.mp (Validation.validate_eq_ok.mp hb).1
  cases hobject
  exact ha.sameButOverrides hsame hb

namespace Placement

variable {a b : Document} {resume : Value} {registry : SectionRegistry}

/-- One section of two documents. -/
theorem placeOne_parallel (styles : SectionStyles) (s : Section) :
    Except.Parallel (PlacedSection.SameButItems a b) (placeOne a styles resume registry s).result
      (placeOne b styles resume registry s).result := by
  rw [result_placeOne, result_placeOne]
  by_cases hsame : a.overridesFor s.id = b.overridesFor s.id
  · rw [hsame]
    exact .map_self _ fun payload =>
      ⟨rfl, rfl, rfl, rfl, .same payload, fun hne => absurd rfl hne⟩
  · exact (SectionRegistry.compile_parallel _ _).map fun p q hpq =>
      ⟨rfl, rfl, rfl, rfl, hpq, fun _ => hsame⟩

theorem place_parallel (h : a.SameButOverrides b) (design : DesignStyle) :
    Except.Parallel (List.Forall₂ (PlacedSection.SameButItems a b))
      (place a design resume registry).result (place b design resume registry).result := by
  rw [place, place, visibleSections_congr h.sections]
  exact placeAll_parallel fun s _ => placeOne_parallel _ s

end Placement

namespace Compile

variable {stamp stamp' : Stamp} {draft other : Draft} {target resume : Value}
  {migrations : Migration.Registry} {sections : SectionRegistry} {a b : Document}

theorem sameButItems_assembled (h : a.SameButOverrides b) (known : Target)
    {placed others : List PlacedSection}
    (hplaced : List.Forall₂ (PlacedSection.SameButItems a b) placed others) :
    Ast.SameButItems a b (assembled stamp known a placed) (assembled stamp' known b others) where
  info := by simp only [Ast.timeless, assembled, h.version, h.layout]
  page := by simp only [assembled, h.layout, h.tokens]
  sections := hplaced
  globalStyles := by simp only [assembled, h.tokens]

/-- **Overrides are local, and never break a page**: documents that differ in nothing else are
compiled with one failure or to pages that differ at most in the items of the sections whose
overrides differ. -/
theorem compileDraft_overrides_local (ha : Accepts migrations draft.value a)
    (hb : Accepts migrations other.value b) (h : a.SameButOverrides b) :
    Except.Parallel (Ast.SameButItems a b)
      (compileDraft stamp draft target resume migrations sections).result
      (compileDraft stamp' other target resume migrations sections).result := by
  unfold compileDraft
  cases htarget : Target.ofValue? target with
  | none =>
    rw [result_compile_of_unknown htarget, result_compile_of_unknown htarget]
    exact .error _
  | some known =>
    rw [result_compile_of_accepts htarget ha, result_compile_of_accepts htarget hb, h.tokens]
    exact (Placement.place_parallel h _).map fun _ _ => sameButItems_assembled h known

/-- A document of the first version, with overrides. -/
def withOverrides (overrides : Fields) : Fields :=
  Keyed.set (documentOf "1.0" "two-column"
    [entryOf "skills" true (.int 1) .sidebar, entryOf "awards" false (.int 0) .main,
     entryOf "summary" true (.int 1) .fullWidth]).entries "itemOverrides" (.object overrides)

/-- Hides the first item of a section. -/
def hidesFirst : Value := .list [.object [("index", .int 0), ("visible", .bool false)]]

/-- Names an item, moves it and adds a field. -/
def movesLean : Value :=
  .list [.object [("itemId", .str "lean"), ("order", .int (-1)), ("since", .int 2013)]]

theorem compileDraft_overrides_local_skills :
    ∃ a b x y, Accepts Migration.builtin
        (.object (withOverrides [("skills", hidesFirst), ("awards", movesLean)])) a ∧
      Accepts Migration.builtin (.object (withOverrides [("skills", movesLean)])) b ∧
      a.SameButOverrides b ∧
      (compileDraft ⟨"", ""⟩
        (.raw (.object (withOverrides [("skills", hidesFirst), ("awards", movesLean)])))
        (.str "pdf") (.object Placement.skilled) Migration.builtin .builtin).result = .ok x ∧
      (compileDraft ⟨"", ""⟩ (.raw (.object (withOverrides [("skills", movesLean)])))
        (.str "pdf") (.object Placement.skilled) Migration.builtin .builtin).result = .ok y ∧
      Ast.SameButItems a b x y := by
  obtain ⟨a, ha, hsections⟩ : ∃ a, Accepts Migration.builtin
      (Draft.raw (.object (withOverrides [("skills", hidesFirst), ("awards", movesLean)]))).value a ∧
        a.sections = reordered.sections :=
    ⟨_, ⟨_, upToDate_of_fromFirst rfl (by decide) (by rfl), by rfl⟩, by rfl⟩
  have hb : Accepts Migration.builtin
      (Draft.raw (.object (withOverrides [("skills", movesLean)]))).value _ :=
    ⟨_, upToDate_of_fromFirst rfl (by decide) (by rfl), by rfl⟩
  have hsame := Accepts.sameButOverrides (Fields.sameButOverrides_set _ _ _) ha hb
  have hvisible : ∀ s ∈ a.sections, s.visible = true → s.id = "skills" ∨ s.id = "summary" := by
    rw [hsections]
    simp [reordered]
  obtain ⟨placed, hplaced⟩ := Placement.exists_place_skilled hvisible a.tokens.resolve
  have hast : (compileDraft ⟨"", ""⟩
      (.raw (.object (withOverrides [("skills", hidesFirst), ("awards", movesLean)])))
      (.str "pdf") (.object Placement.skilled) Migration.builtin .builtin).result = .ok _ :=
    compile_eq_ok.mpr ⟨.pdf, a, placed, rfl, ha, hplaced, rfl⟩
  obtain ⟨other, hother, hitems⟩ := (compileDraft_overrides_local ha hb hsame).exists_ok hast
  exact ⟨a, _, _, other, ha, hb, hsame, hast, hother, hitems⟩

end Compile

end Vitae
