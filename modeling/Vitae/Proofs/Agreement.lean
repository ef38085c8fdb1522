import Vitae.Proofs.Compilation
import Vitae.Proofs.Overriding

/-! When two values compile alike.

Two outcomes agree when both are pages that differ at most in the time they were made, or
both are failures of one kind. For documents with the same sections and design,
`alike_iff_samePage` says what is left to compare: the page, its pagination, and what the
sections are placed as. -/

namespace Vitae

/-- A page without the time it was made. -/
def Ast.timeless (a : Ast) : Ast := { a with info := { a.info with generatedAt := "" } }

/-- The kinds of failures, whatever they report. -/
inductive Failure.Kind where
  | invalid
  | unsupported
  | unknownTarget
  | noResume
  | noTheme
  | unreadable
  | unwritable
  | disk
  | content
  | misuse (m : Misuse)
deriving DecidableEq

def Failure.kind : Failure → Kind
  | .invalid _ _ => .invalid
  | .unsupported _ _ _ => .unsupported
  | .unknownTarget _ => .unknownTarget
  | .noResume _ _ => .noResume
  | .noTheme _ _ => .noTheme
  | .unreadable _ => .unreadable
  | .unwritable _ _ => .unwritable
  | .disk _ => .disk
  | .content _ => .content
  | .misuse m => .misuse m

namespace Compile

/-- Outcomes that differ at most in the time of a page and the details of a failure. -/
def Agree : Except Failure Ast → Except Failure Ast → Prop
  | .ok a, .ok b => a.timeless = b.timeless
  | .error f, .error g => f.kind = g.kind
  | _, _ => False

/-- Values that compile alike, whenever, for whatever target and resume. -/
def Alike (sections : SectionRegistry) (u w : Value) : Prop :=
  ∀ stamp stamp' target resume,
    Agree (compile stamp u target resume Migration.builtin sections).result
      (compile stamp' w target resume Migration.builtin sections).result

variable {sections : SectionRegistry} {u w : Value}

/-- An unknown target is unknown for every value. -/
theorem alike_of_known
    (h : ∀ stamp stamp' target known resume, Target.ofValue? target = some known →
      Agree (compile stamp u target resume Migration.builtin sections).result
        (compile stamp' w target resume Migration.builtin sections).result) :
    Alike sections u w := by
  intro stamp stamp' target resume
  cases hknown : Target.ofValue? target with
  | none => simp [compile, hknown, Agree]
  | some known => exact h stamp stamp' target known resume hknown

/-- How a value fails before anything is made of it. -/
def Refused (v : Value) (kind : Failure.Kind) : Prop :=
  (∃ f, (upToDate Migration.builtin v).result = .error f ∧ f.kind = kind) ∨
    (∃ current errors, (upToDate Migration.builtin v).result = .ok current ∧
      Validation.validate current = .error errors ∧ kind = .invalid)

theorem compile_of_refused {v : Value} {kind : Failure.Kind} (h : Refused v kind) {stamp : Stamp}
    {target resume : Value} {known : Target} (htarget : Target.ofValue? target = some known) :
    ∃ f, (compile stamp v target resume Migration.builtin sections).result = .error f ∧
      f.kind = kind := by
  rcases h with ⟨f, hf, hkind⟩ | ⟨current, errors, hcurrent, herrors, rfl⟩
  · exact ⟨f, result_compile_of_error htarget hf, hkind⟩
  · exact ⟨_, result_compile_of_invalid htarget hcurrent herrors, rfl⟩

theorem alike_of_refused {kind : Failure.Kind} (hu : Refused u kind) (hw : Refused w kind) :
    Alike sections u w := by
  refine alike_of_known fun stamp stamp' target known resume htarget => ?_
  obtain ⟨f, hf, hfkind⟩ := compile_of_refused hu htarget
  obtain ⟨g, hg, hgkind⟩ := compile_of_refused hw htarget
  rw [hf, hg]
  exact hfkind.trans hgkind.symm

/-- What can be compiled is not alike to what is refused. -/
theorem not_alike_of_refused {kind : Failure.Kind} {d : Document}
    (hu : Accepts Migration.builtin u d) (hw : Refused w kind) : ¬ Alike sections u w := by
  intro h
  have hhtml : Target.ofValue? (.str "html") = some .html := rfl
  obtain ⟨ast, hast⟩ :
      ∃ ast, (compile ⟨"", ""⟩ u (.str "html") .null Migration.builtin sections).result = .ok ast :=
    preview_of_accepts hhtml hu
  obtain ⟨f, hf, _⟩ : ∃ f, (compile ⟨"", ""⟩ w (.str "html") .null Migration.builtin
      sections).result = .error f ∧ f.kind = kind := compile_of_refused hw hhtml
  have hagree := h ⟨"", ""⟩ ⟨"", ""⟩ (.str "html") .null
  rw [hast, hf] at hagree
  exact hagree

/-! ### Documents with the same sections and design -/

/-- What a page takes from a document besides its sections and its design. -/
@[mk_iff]
structure SamePage (sections : SectionRegistry) (t r : Document) : Prop where
  page : Page.build t.layout t.tokens.resolve = Page.build r.layout r.tokens.resolve
  pagination : pagination .pdf t.layout = pagination .pdf r.layout
  placed : ∀ resume, (Placement.place t t.tokens.resolve resume sections).result =
    (Placement.place r r.tokens.resolve resume sections).result

/-- A document's version, sections and design are those of another. -/
structure Kin (t r : Document) : Prop where
  version : t.version = r.version
  tokens : t.tokens.resolve = r.tokens.resolve
  sections : t.sections = r.sections

theorem result_compile_of_accepts {stamp : Stamp} {target resume : Value} {known : Target}
    {migrations : Migration.Registry} {v : Value} {d : Document}
    (htarget : Target.ofValue? target = some known) (hd : Accepts migrations v d) :
    (compile stamp v target resume migrations sections).result =
      (Placement.place d d.tokens.resolve resume sections).result.map (assembled stamp known d) := by
  obtain ⟨current, hcurrent, hvalid⟩ := hd
  rw [← result_assemble]
  unfold compile
  simp [htarget, hcurrent, hvalid, Validation.require, Except.bind]

variable {t r : Document}

theorem timeless_assembled (stamp stamp' : Stamp) (known : Target) (hkin : Kin t r)
    (h : SamePage sections t r) (placed : List PlacedSection) :
    (assembled stamp known t placed).timeless = (assembled stamp' known r placed).timeless := by
  have hpagination : pagination known t.layout = pagination known r.layout := by
    cases known with
    | html => rfl
    | pdf => exact h.pagination
  simp only [assembled, Ast.timeless, hkin.version, hkin.tokens, hpagination]
  have hpage := h.page
  rw [hkin.tokens] at hpage
  rw [hpage]

theorem alike_of_samePage (ht : Accepts Migration.builtin u t) (hr : Accepts Migration.builtin w r)
    (hkin : Kin t r) (h : SamePage sections t r) : Alike sections u w := by
  refine alike_of_known fun stamp stamp' target known resume htarget => ?_
  rw [result_compile_of_accepts htarget ht, result_compile_of_accepts htarget hr, h.placed resume]
  cases (Placement.place r r.tokens.resolve resume sections).result with
  | error f => rfl
  | ok placed => exact timeless_assembled stamp stamp' known hkin h placed

/-- Previews that agree show the same page. -/
theorem samePage_of_alike (ht : Accepts Migration.builtin u t) (hr : Accepts Migration.builtin w r)
    (hkin : Kin t r) (h : Alike sections u w) : SamePage sections t r := by
  have hplaced (known : Target) (resume : Value) (a b : List PlacedSection)
      (ha : (Placement.place t t.tokens.resolve resume sections).result = .ok a)
      (hb : (Placement.place r r.tokens.resolve resume sections).result = .ok b) :
      (assembled ⟨"", ""⟩ known t a).timeless = (assembled ⟨"", ""⟩ known r b).timeless := by
    have hknown : Target.ofValue? (.str known.name) = some known := by cases known <;> rfl
    have hagree := h ⟨"", ""⟩ ⟨"", ""⟩ (.str known.name) resume
    rw [result_compile_of_accepts hknown ht, result_compile_of_accepts hknown hr, ha, hb] at hagree
    exact hagree
  have hpreview (known : Target) := hplaced known .null _ _
    (Placement.result_place_null t t.tokens.resolve sections)
    (Placement.result_place_null r r.tokens.resolve sections)
  refine ⟨congrArg Ast.page (hpreview .html),
    congrArg (fun a : Ast => a.info.pagination) (hpreview .pdf), fun resume => ?_⟩
  rw [hkin.tokens]
  cases ha : (Placement.place t r.tokens.resolve resume sections).result with
  | error f => exact (Placement.place_error_congr hkin.sections _ ha).symm
  | ok a =>
    cases hb : (Placement.place r r.tokens.resolve resume sections).result with
    | error f =>
      rw [Placement.place_error_congr hkin.sections.symm _ hb] at ha
      cases ha
    | ok b =>
      rw [← hkin.tokens] at ha
      exact congrArg Except.ok (congrArg Ast.sections (hplaced .html resume a b ha hb))

theorem alike_iff_samePage (ht : Accepts Migration.builtin u t)
    (hr : Accepts Migration.builtin w r) (hkin : Kin t r) :
    Alike sections u w ↔ SamePage sections t r :=
  ⟨samePage_of_alike ht hr hkin, alike_of_samePage ht hr hkin⟩

/-! ### One value in two runs -/

/-- Runs that place the sections of a document alike have one outcome, but for the time. -/
theorem timeless_compile_congr {migrations : Migration.Registry} {v resume resume' : Value}
    {sections sections' : SectionRegistry}
    (h : ∀ d, Accepts migrations v d →
      (Placement.place d d.tokens.resolve resume sections).result =
        (Placement.place d d.tokens.resolve resume' sections').result)
    (stamp stamp' : Stamp) (target : Value) :
    (compile stamp v target resume migrations sections).result.map Ast.timeless =
      (compile stamp' v target resume' migrations sections').result.map Ast.timeless := by
  cases htarget : Target.ofValue? target with
  | none => rw [result_compile_of_unknown htarget, result_compile_of_unknown htarget]
  | some known =>
    cases hcurrent : (upToDate migrations v).result with
    | error f =>
      rw [result_compile_of_error htarget hcurrent, result_compile_of_error htarget hcurrent]
    | ok current =>
      cases hvalid : Validation.validate current with
      | error errors =>
        rw [result_compile_of_invalid htarget hcurrent hvalid,
          result_compile_of_invalid htarget hcurrent hvalid]
      | ok d =>
        have hd : Accepts migrations v d := ⟨current, hcurrent, hvalid⟩
        rw [result_compile_of_accepts htarget hd, result_compile_of_accepts htarget hd, h d hd]
        cases (Placement.place d d.tokens.resolve resume' sections').result <;> rfl

/-! ### Values that are read before they are compared -/

theorem refused_of_invalid {v current : Value}
    (hcurrent : (upToDate Migration.builtin v).result = .ok current)
    (h : ∀ d, Validation.validate current ≠ .ok d) : Refused v .invalid := by
  cases hvalid : Validation.validate current with
  | error errors => exact .inr ⟨current, errors, hcurrent, hvalid, rfl⟩
  | ok d => exact absurd hvalid (h d)

/-- A value that is read is accepted, or its sections are at fault. -/
theorem accepts_or_refused {v current : Value}
    (hcurrent : (upToDate Migration.builtin v).result = .ok current)
    (hread : Document.read current = .ok t) :
    Accepts Migration.builtin v t ∧ Validation.sectionErrors (Validation.idsOf t) = [] ∨
      Refused v .invalid ∧ Validation.sectionErrors (Validation.idsOf t) ≠ [] := by
  by_cases hsections : Validation.sectionErrors (Validation.idsOf t) = []
  · exact .inl ⟨⟨current, hcurrent, Validation.validate_eq_ok.mpr ⟨hread, hsections⟩⟩, hsections⟩
  · refine .inr ⟨refused_of_invalid hcurrent fun d hd => hsections ?_, hsections⟩
    obtain ⟨hd, herrors⟩ := Validation.validate_eq_ok.mp hd
    cases hread.symm.trans hd
    exact herrors

theorem not_accepts_of_refused {v : Value} {kind : Failure.Kind} {d : Document}
    (h : Refused v kind) : ¬ Accepts Migration.builtin v d := by
  intro hparts
  obtain ⟨current, hcurrent, hvalid⟩ := hparts
  rcases h with ⟨f, hf, _⟩ | ⟨other, errors, hother, herrors, _⟩
  · rw [hcurrent] at hf
    cases hf
  · rw [hcurrent] at hother
    cases hother
    rw [hvalid] at herrors
    cases herrors

/-- Values that are refused in one way are alike, and no page has to be compared. -/
theorem alike_iff_of_refused {kind : Failure.Kind} {p : Prop} (hu : Refused u kind)
    (hw : Refused w kind) :
    Alike sections u w ↔ ((∃ d, Accepts Migration.builtin u d) → p) := by
  refine ⟨?_, fun _ => alike_of_refused hu hw⟩
  intro _ h
  obtain ⟨d, hd⟩ := h
  exact absurd hd (not_accepts_of_refused hu)

/-- Values whose documents are kin are alike exactly when they have the same page, if they
have one. -/
theorem alike_iff_of_read {cu cw : Value} (hu : (upToDate Migration.builtin u).result = .ok cu)
    (ht : Document.read cu = .ok t) (hw : (upToDate Migration.builtin w).result = .ok cw)
    (hr : Document.read cw = .ok r) (hkin : Kin t r) :
    Alike sections u w ↔
      ((∃ d, Accepts Migration.builtin u d) → SamePage sections t r) := by
  have hids : Validation.idsOf t = Validation.idsOf r := by
    rw [Validation.idsOf, Validation.idsOf, hkin.sections]
  rcases accepts_or_refused hu ht with ⟨htyped, hvalid⟩ | ⟨htyped, hinvalid⟩
  · rcases accepts_or_refused hw hr with ⟨hraw, _⟩ | ⟨_, hinvalid⟩
    · rw [alike_iff_samePage htyped hraw hkin]
      exact ⟨fun h _ => h, fun h => h ⟨t, htyped⟩⟩
    · rw [← hids] at hinvalid
      exact absurd hvalid hinvalid
  · rcases accepts_or_refused hw hr with ⟨_, hvalid⟩ | ⟨hraw, _⟩
    · rw [← hids] at hvalid
      exact absurd hvalid hinvalid
    · exact alike_iff_of_refused htyped hraw

end Compile

end Vitae
