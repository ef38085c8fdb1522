import Mathlib.Data.List.Nodup
import Vitae.Compile
import Vitae.Proofs.Page
import Vitae.Proofs.Placement
import Vitae.Proofs.Validation

/-! What a compiled page is made of.

A page is assembled from one document: the draft, brought up to date and found valid
(`Accepts`). `compile_eq_ok` takes a successful compilation apart into its stages, and
what the stages guarantee is put together here for every draft, resume and registry. -/

namespace Vitae

namespace Compile

/-- The document that a value is compiled as: brought up to date, and valid. -/
def Accepts (migrations : Migration.Registry) (v : Value) (d : Document) : Prop :=
  ∃ current, (upToDate migrations v).result = .ok current ∧ Validation.validate current = .ok d

/-- The page of a document whose sections are placed. -/
def assembled (stamp : Stamp) (target : Target) (d : Document) (placed : List PlacedSection) :
    Ast where
  info := ⟨d.version, stamp.generatedAt, target, pagination target d.layout⟩
  page := Page.build d.layout d.tokens.resolve
  sections := placed
  globalStyles := globalStyles d.tokens.resolve.colors

theorem result_assemble (stamp : Stamp) (target : Target) (resume : Value)
    (sections : SectionRegistry) (d : Document) :
    (assemble stamp target resume sections d).result =
      (Placement.place d d.tokens.resolve resume sections).result.map
        (assembled stamp target d) := by
  simp only [assemble, Traced.note, Traced.result_bind, Traced.result_tell, Traced.result_pure]
  cases (Placement.place d d.tokens.resolve resume sections).result <;> rfl

variable {stamp : Stamp} {target resume : Value} {migrations : Migration.Registry}
  {sections : SectionRegistry} {v : Value} {ast : Ast}

theorem compile_eq_ok :
    (compile stamp v target resume migrations sections).result = .ok ast ↔
      ∃ known d placed, Target.ofValue? target = some known ∧ Accepts migrations v d ∧
        (Placement.place d d.tokens.resolve resume sections).result = .ok placed ∧
        ast = assembled stamp known d placed := by
  unfold compile
  cases Target.ofValue? target with
  | none => simp
  | some known =>
    simp only [Traced.result_bind_eq_ok, Validation.result_require_eq_ok, result_assemble,
      Accepts, Option.some.injEq]
    constructor
    · intro h
      obtain ⟨current, hcurrent, d, hd, hast⟩ := h
      cases hplaced : (Placement.place d d.tokens.resolve resume sections).result with
      | error f => simp [hplaced, Except.map] at hast
      | ok placed =>
        rw [hplaced] at hast
        cases hast
        exact ⟨known, d, placed, rfl, ⟨current, hcurrent, hd⟩, hplaced, rfl⟩
    · intro h
      obtain ⟨_, d, placed, rfl, ⟨current, hcurrent, hd⟩, hplaced, rfl⟩ := h
      exact ⟨current, hcurrent, d, hd, by rw [hplaced]; rfl⟩

theorem result_compile_of_unknown (htarget : Target.ofValue? target = none) :
    (compile stamp v target resume migrations sections).result =
      .error (.unknownTarget target) := by
  simp [compile, htarget]

theorem result_compile_of_error {known : Target} {f : Failure}
    (htarget : Target.ofValue? target = some known) (h : (upToDate migrations v).result = .error f) :
    (compile stamp v target resume migrations sections).result = .error f := by
  simp [compile, htarget, h, Except.bind]

theorem result_compile_of_invalid {known : Target} {current : Value} {errors : List FieldError}
    (htarget : Target.ofValue? target = some known)
    (hcurrent : (upToDate migrations v).result = .ok current)
    (h : Validation.validate current = .error errors) :
    (compile stamp v target resume migrations sections).result =
      .error (.invalid "Invalid resume DSL" errors) := by
  simp [compile, htarget, hcurrent, h, Except.bind, Validation.require]

/-- A document that is accepted has a preview, whatever the sections are compiled by. -/
theorem preview_of_accepts {known : Target} {d : Document}
    (htarget : Target.ofValue? target = some known) (hd : Accepts migrations v d) :
    ∃ ast, (compile stamp v target .null migrations sections).result = .ok ast :=
  ⟨_, compile_eq_ok.mpr ⟨known, d, _, htarget, hd, Placement.result_place_null .., rfl⟩⟩

theorem Accepts.unique {d e : Document} (hd : Accepts migrations v d) (he : Accepts migrations v e) :
    d = e := by
  obtain ⟨current, hcurrent, hd⟩ := hd
  obtain ⟨other, hother, he⟩ := he
  cases hcurrent.symm.trans hother
  cases hd.symm.trans he
  rfl

theorem Accepts.names {d : Document} (h : Accepts migrations v d) :
    (d.sections.map Section.id).Nodup := by
  obtain ⟨_, _, hvalid⟩ := h
  exact (Validation.validate_sections hvalid).1

theorem Accepts.ordered {d : Document} (h : Accepts migrations v d) : Placement.Ordered d := by
  obtain ⟨_, _, hvalid⟩ := h
  exact fun s hs => Number.place?_of_isFinite ((Validation.validate_sections hvalid).2 s hs)

end Compile

/-! ### Sections and columns of a page -/

/-- The sections of a page, when they are those of a document: each visible section once,
with its order, and of two sections the one of smaller order first, or the one that the
document has first when the orders are equal. Orders are compared by their exact values. -/
structure Placement.Arranged (d : Document) (placed : List PlacedSection) : Prop where
  once : (placed.map PlacedSection.id).Nodup
  visible : (placed.map PlacedSection.id).Perm
    ((d.sections.filter Section.visible).map Section.id)
  orders : ∀ p ∈ placed, ∃ s ∈ d.sections, s.visible = true ∧ s.id = p.id ∧ s.order = p.order
  before : ∀ a ∈ d.sections, ∀ b ∈ d.sections, a.visible = true → b.visible = true →
    ∃ p q : Rat, a.order.place? = some (.at p) ∧ b.order.place? = some (.at q) ∧
      (Precedes (placed.map PlacedSection.id) a.id b.id ↔
        p < q ∨ p = q ∧ Precedes (d.sections.map Section.id) a.id b.id)

theorem Placement.place_arranged {d : Document} {design : DesignStyle} {resume : Value}
    {registry : SectionRegistry} {placed : List PlacedSection} (hordered : Ordered d)
    (hnames : (d.sections.map Section.id).Nodup)
    (h : (place d design resume registry).result = .ok placed) : Arranged d placed := by
  have hids : placed.map PlacedSection.id = (visibleSections d).map Section.id :=
    map_placed h fun _ _ => rfl
  have horders : placed.map (fun p => (p.id, p.order)) =
      (visibleSections d).map fun s => (s.id, s.order) := map_placed h fun _ _ => rfl
  have hperm := (visibleSections_perm d).map Section.id
  have hsections : d.sections.Nodup := List.Nodup.of_map Section.id hnames
  have honce : ((visibleSections d).map Section.id).Nodup :=
    hperm.nodup_iff.mpr (hnames.sublist (List.filter_sublist.map _))
  refine ⟨hids ▸ honce, hids ▸ hperm, fun p hp => ?_, fun a ha b hb hva hvb => ?_⟩
  · have hmem : (p.id, p.order) ∈ (visibleSections d).map fun s => (s.id, s.order) :=
      horders ▸ List.mem_map.mpr ⟨p, hp, rfl⟩
    obtain ⟨s, hs, hsp⟩ := List.mem_map.mp hmem
    obtain ⟨hs, hvisible⟩ := mem_visibleSections.mp hs
    exact ⟨s, hs, hvisible, congrArg Prod.fst hsp, congrArg Prod.snd hsp⟩
  · have ha' := mem_visibleSections.mpr ⟨ha, hva⟩
    have hb' := mem_visibleSections.mpr ⟨hb, hvb⟩
    refine ⟨weight a, weight b, place?_eq_weight (hordered a ha),
      place?_eq_weight (hordered b hb), ?_⟩
    rw [hids, Precedes.map_iff honce ha' hb', Precedes.map_iff hnames ha hb]
    exact precedes_visibleSections hordered hsections ha' hb'

namespace Compile

variable {stamp : Stamp} {draft : Draft} {target resume : Value}
  {migrations : Migration.Registry} {sections : SectionRegistry} {ast : Ast}

/-- **A compiled page shows the visible sections of its document**, each once and in
order, in columns that share the page. -/
theorem compileDraft_arranged
    (h : (compileDraft stamp draft target resume migrations sections).result = .ok ast) :
    ∃ d, Accepts migrations draft.value d ∧ Placement.Arranged d ast.sections ∧
      Page.Shared ast.page.columns := by
  obtain ⟨_, d, placed, _, hd, hplaced, rfl⟩ := compile_eq_ok.mp h
  exact ⟨d, hd, Placement.place_arranged hd.ordered hd.names hplaced, Page.arrange_shared ..⟩

/-- A section of a document, as a value. -/
def entryOf (id : String) (visible : Bool) (order : Number) (column : Column) : Value :=
  .object (Section.write ⟨id, visible, order, column, []⟩)

/-- A document of a version and a layout type, as a value. -/
def documentOf (version type : String) (entries : List Value) : Value :=
  .object
    [("version", .str version), ("layout", .object [("type", .str type)]),
     ("tokens", .object []), ("sections", .list entries)]

/-- A whole order and a fraction, and a section that is hidden. -/
def mixedOrders : Value :=
  documentOf "1.1.0" "two-column"
    [entryOf "skills" true (.int 1) .sidebar, entryOf "awards" false (.int 0) .main,
     entryOf "summary" true (.float (Binary64.ofRatio false 1 2)) .fullWidth]

/-- Two sections that a resume fills, and overrides for one of them. -/
def reordered : Document where
  version := "1.1.0"
  layout := { type := .given "two-column" }
  tokens := {}
  sections :=
    [⟨"skills", true, .int 1, .sidebar, []⟩, ⟨"awards", false, .int 0, .main, []⟩,
     ⟨"summary", true, .int 1, .fullWidth, []⟩]
  itemOverrides := some [("skills", [[("itemId", .str "lean"), ("order", .int (-1))]])]

theorem accepts_reordered : Accepts Migration.builtin (.object reordered.given) reordered :=
  ⟨_, by rfl, by rfl⟩

theorem compiles_mixedOrders :
    ∃ ast, (compileDraft ⟨"", ""⟩ (.raw mixedOrders) (.str "html") .null Migration.builtin
      .builtin).result = .ok ast := by
  have hvalid : Accepts Migration.builtin mixedOrders _ := ⟨_, by rfl, by rfl⟩
  exact preview_of_accepts rfl hvalid

theorem compileDraft_arranged_mixedOrders :
    ∃ ast d, (compileDraft ⟨"", ""⟩ (.raw mixedOrders) (.str "html") .null Migration.builtin
        .builtin).result = .ok ast ∧
      Accepts Migration.builtin mixedOrders d ∧ Placement.Arranged d ast.sections ∧
        Page.Shared ast.page.columns := by
  obtain ⟨ast, hast⟩ := compiles_mixedOrders
  obtain ⟨d, harranged⟩ := compileDraft_arranged hast
  exact ⟨ast, d, hast, harranged⟩

end Compile

/-! ### Sections in their columns -/

/-- Every section of a page stands in one of its columns. -/
def Ast.Anchored (a : Ast) : Prop :=
  ∀ p ∈ a.sections, p.columnId ∈ a.page.columns.map PageColumn.id

theorem Column.pageId_eq_sidebarId {c : Column} : c.pageId = Page.sidebarId ↔ c = .sidebar := by
  cases c <;> decide

theorem Column.pageId_eq_mainId {c : Column} : c.pageId = Page.mainId ↔ c ≠ .sidebar := by
  cases c <;> decide

/-- The columns of a layout have room for all visible sections when there is a sidebar,
or nothing is meant for one. -/
theorem Placement.anchored_iff {d : Document} {design : DesignStyle} {resume : Value}
    {registry : SectionRegistry} {placed : List PlacedSection}
    (h : (place d design resume registry).result = .ok placed) :
    (∀ p ∈ placed, p.columnId ∈
        (Page.arrange d.layout.type.get? d.layout.columnDistribution.get?).map PageColumn.id) ↔
      (∃ name ∈ d.layout.type.get?, name ∈ Page.sidebarTypes) ∨
        ∀ s ∈ d.sections, s.visible = true → s.column ≠ .sidebar := by
  have hcolumns : placed.map PlacedSection.columnId =
      (visibleSections d).map fun s => s.column.pageId := map_placed h fun _ _ => rfl
  rw [← List.forall_mem_map (f := PlacedSection.columnId), hcolumns, List.forall_mem_map]
  simp only [Page.mem_arrange_iff, Column.pageId_eq_mainId, Column.pageId_eq_sidebarId,
    mem_visibleSections]
  constructor
  · intro hall
    by_cases htype : ∃ name ∈ d.layout.type.get?, name ∈ Page.sidebarTypes
    · exact .inl htype
    · refine .inr fun s hs hvisible => ?_
      rcases hall s ⟨hs, hvisible⟩ with hcolumn | ⟨_, hname⟩
      · exact hcolumn
      · exact absurd hname htype
  · intro hroom s hmem
    obtain ⟨hs, hvisible⟩ := hmem
    rcases hroom with htype | hnone
    · by_cases hcolumn : s.column = .sidebar
      · exact .inr ⟨hcolumn, htype⟩
      · exact .inl hcolumn
    · exact .inl (hnone s hs hvisible)

namespace Compile

variable {stamp : Stamp} {draft : Draft} {target resume : Value}
  {migrations : Migration.Registry} {sections : SectionRegistry} {ast : Ast}

/-- **When no section of a page is without a column**: when the layout type has a sidebar,
or no visible section is meant for one. -/
theorem compileDraft_anchored_iff
    (h : (compileDraft stamp draft target resume migrations sections).result = .ok ast) :
    ∃ d, Accepts migrations draft.value d ∧
      (ast.Anchored ↔
        (∃ name ∈ d.layout.type.get?, name ∈ Page.sidebarTypes) ∨
          ∀ s ∈ d.sections, s.visible = true → s.column ≠ .sidebar) := by
  obtain ⟨_, d, placed, _, hd, hplaced, rfl⟩ := compile_eq_ok.mp h
  exact ⟨d, hd, Placement.anchored_iff hplaced⟩

theorem compileDraft_anchored_iff_mixedOrders :
    ∃ ast d, (compileDraft ⟨"", ""⟩ (.raw mixedOrders) (.str "html") .null Migration.builtin
        .builtin).result = .ok ast ∧
      Accepts Migration.builtin mixedOrders d ∧
        (ast.Anchored ↔
          (∃ name ∈ d.layout.type.get?, name ∈ Page.sidebarTypes) ∨
            ∀ s ∈ d.sections, s.visible = true → s.column ≠ .sidebar) := by
  obtain ⟨ast, hast⟩ := compiles_mixedOrders
  obtain ⟨d, hanchored⟩ := compileDraft_anchored_iff hast
  exact ⟨ast, d, hast, hanchored⟩

/-- One column, and a section that is meant for a sidebar. -/
def withoutSidebar : Value :=
  documentOf "1.1.0" "single-column" [entryOf "skills" true (.int 1) .sidebar]

theorem withoutSidebar_not_anchored :
    ∃ ast, (compileDraft ⟨"", ""⟩ (.raw withoutSidebar) (.str "html") .null Migration.builtin
        .builtin).result = .ok ast ∧ ¬ ast.Anchored := by
  have hvalid : Accepts Migration.builtin withoutSidebar _ := ⟨_, by rfl, by rfl⟩
  refine ⟨_, compile_eq_ok.mpr ⟨.html, _, _, rfl, hvalid, Placement.result_place_null .., rfl⟩, ?_⟩
  intro hanchored
  rcases (Placement.anchored_iff (Placement.result_place_null ..)).mp hanchored with
    ⟨name, hname, hmem⟩ | hnone
  · have hsingle : "single-column" = name := Option.some.inj hname
    subst hsingle
    exact absurd hmem (by decide)
  · exact hnone _ (List.mem_cons_self ..) rfl rfl

end Compile

end Vitae
