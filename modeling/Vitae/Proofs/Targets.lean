import Vitae.Proofs.Agreement
import Vitae.Proofs.Grammar
import Vitae.Proofs.Renewal

/-! One document for two targets.

A target settles nothing but metadata: no stage before the last one sees it, so a document
fails for both targets or for none, and then with the same failure. Where it has pages, the one
to be printed is the other one with the settings for printed pages, and these are what the
fields of the layout give once the document is up to date (`Pagination.GivenBy`). A setting that
is left out, or given as null, is no reason to fail. -/

namespace Vitae

/-! ### Settings for printed pages -/

namespace Reading

/-- A text that is read is the one that was given. -/
theorem get?_of_optionalText {n : FieldName} {fields : Fields} {e : Entry String}
    (h : optionalText n fields = .ok e) : e.get? = (n.given? fields).bind Value.text? := by
  rcases FieldName.optional_eq_ok_iff.mp h with ⟨hnone, rfl⟩ | ⟨v, hv, hread⟩
  · rw [hnone]
    rfl
  · rw [hv]
    cases v <;> cases hread <;> rfl

/-- A truth value that is read is the one that the given value names. -/
theorem get?_of_optionalFlag {n : FieldName} {fields : Fields} {e : Entry Bool}
    (h : n.optional fields .absent flag = .ok e) :
    e.get? = some true ↔ (n.given? fields).bind Value.truth? = some true := by
  rcases FieldName.optional_eq_ok_iff.mp h with ⟨hnone, rfl⟩ | ⟨v, hv, hread⟩
  · simp [hnone, Entry.get?]
  · rw [hv, Option.bind_some, ← flag_eq_given, hread]
    cases e <;> simp [Entry.get?]

end Reading

/-- Settings are what the fields of a layout give: texts as they are, and page numbers only for
a value that names true. -/
structure Pagination.GivenBy (p : Pagination) (layout : Fields) : Prop where
  pageBreakBehavior : p.pageBreakBehavior =
    (FieldName.given? ⟨"pageBreakBehavior", "page_break_behavior"⟩ layout).bind Value.text?
  showPageNumbers : p.showPageNumbers = true ↔
    (FieldName.given? ⟨"showPageNumbers", "show_page_numbers"⟩ layout).bind Value.truth? = some true
  pageNumberPosition : p.pageNumberPosition =
    (FieldName.given? ⟨"pageNumberPosition", "page_number_position"⟩ layout).bind Value.text?

/-- The settings that a layout was read with. -/
def Layout.printed (l : Layout) : Pagination where
  pageBreakBehavior := l.pageBreakBehavior.get?
  showPageNumbers := l.showPageNumbers.get?.getD false
  pageNumberPosition := l.pageNumberPosition.get?

theorem Layout.ReadFrom.givenBy {l : Layout} {layout : Fields} (h : l.ReadFrom layout) :
    l.printed.GivenBy layout where
  pageBreakBehavior := Reading.get?_of_optionalText h.pageBreakBehavior
  showPageNumbers := by
    rw [← Reading.get?_of_optionalFlag h.showPageNumbers, Layout.printed]
    rcases l.showPageNumbers.get? with _ | shown <;> simp
  pageNumberPosition := Reading.get?_of_optionalText h.pageNumberPosition

namespace Compile

variable {migrations : Migration.Registry} {v : Value} {d : Document}

/-- An accepted document has a layout, and the settings that its fields give. -/
theorem Accepts.printed_givenBy (h : Accepts migrations v d) :
    ∃ current layout, (upToDate migrations v).result = .ok (.object current) ∧
      Keyed.get? current "layout" = some (.object layout) ∧ d.layout.printed.GivenBy layout := by
  obtain ⟨current, hcurrent, hvalid⟩ := h
  obtain ⟨fields, rfl, hd⟩ := Document.read_eq_ok.mp (Validation.validate_eq_ok.mp hvalid).1
  obtain ⟨layout, hlayout, hl⟩ := hd.exists_layout
  exact ⟨fields, layout, hcurrent, hlayout, hl.givenBy⟩

/-! ### Two targets -/

/-- A page with the metadata of a page to be printed. -/
def forPrint (page : Ast) (generatedAt : String) (settings : Pagination) : Ast :=
  { page with
    info := { page.info with
      generatedAt := generatedAt
      target := .pdf
      pagination := some settings } }

/-- What the two targets make of a value: the same failure, or pages that share all but the
metadata. -/
inductive Twins (migrations : Migration.Registry) (v : Value) (generatedAt : String) :
    Except Failure Ast → Except Failure Ast → Prop
  | failed (f : Failure) : Twins migrations v generatedAt (.error f) (.error f)
  | made {page : Ast} {current layout : Fields} {settings : Pagination}
      (htarget : page.info.target = .html) (hpagination : page.info.pagination = none)
      (hcurrent : (upToDate migrations v).result = .ok (.object current))
      (hlayout : Keyed.get? current "layout" = some (.object layout))
      (hgiven : settings.GivenBy layout) :
      Twins migrations v generatedAt (.ok page) (.ok (forPrint page generatedAt settings))

theorem assembled_pdf (stamp stamp' : Stamp) (d : Document) (placed : List PlacedSection) :
    assembled stamp' .pdf d placed =
      forPrint (assembled stamp .html d placed) stamp'.generatedAt d.layout.printed := rfl

/-- **The targets differ in metadata alone.** Whatever a draft and a resume are, compiling them
for html and for pdf gives one failure, or a page and that page as it is to be printed. -/
theorem compileDraft_twins (stamp stamp' : Stamp) (draft : Draft) (resume : Value)
    (migrations : Migration.Registry) (sections : SectionRegistry) :
    Twins migrations draft.value stamp'.generatedAt
      (compileDraft stamp draft (.str "html") resume migrations sections).result
      (compileDraft stamp' draft (.str "pdf") resume migrations sections).result := by
  have hhtml : Target.ofValue? (.str "html") = some .html := rfl
  have hpdf : Target.ofValue? (.str "pdf") = some .pdf := rfl
  unfold compileDraft
  -- The stages in their order: the first that fails does so for both targets.
  cases hcurrent : (upToDate migrations draft.value).result with
  | error f =>
    rw [result_compile_of_error hhtml hcurrent, result_compile_of_error hpdf hcurrent]
    exact .failed f
  | ok current =>
    cases hvalid : Validation.validate current with
    | error errors =>
      rw [result_compile_of_invalid hhtml hcurrent hvalid,
        result_compile_of_invalid hpdf hcurrent hvalid]
      exact .failed _
    | ok d =>
      have hd : Accepts migrations draft.value d := ⟨current, hcurrent, hvalid⟩
      rw [result_compile_of_accepts hhtml hd, result_compile_of_accepts hpdf hd]
      cases (Placement.place d d.tokens.resolve resume sections).result with
      | error f => exact .failed f
      | ok placed =>
        obtain ⟨fields, layout, hfields, hlayout, hgiven⟩ := hd.printed_givenBy
        show Twins migrations draft.value _ (.ok (assembled stamp .html d placed))
          (.ok (assembled stamp' .pdf d placed))
        rw [assembled_pdf stamp stamp']
        exact .made rfl rfl hfields hlayout hgiven

end Compile

end Vitae
