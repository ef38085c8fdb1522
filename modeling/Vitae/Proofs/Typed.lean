import Vitae.Proofs.Agreement
import Vitae.Proofs.Renewal
import Vitae.Proofs.RoundTrip

/-! Documents that were read, and the values that they were read from.

A document that was read gives its fields under their first names. The value it came from may
have them under the second ones, which the steps of a migration do not know: a step fills in
a default beside the field, and the field is unknown from then on. `Document.Harmless` says for
which documents that does not show. -/

namespace Vitae

/-- A field is given under its second name alone. -/
def FieldName.Overlooked (n : FieldName) (fields : Fields) : Prop :=
  Keyed.has fields n.camel = false ∧ Keyed.has fields n.snake = true

instance (n : FieldName) (fields : Fields) : Decidable (n.Overlooked fields) := by
  unfold FieldName.Overlooked
  infer_instance

open FieldName Reading Slots

/-! ### Fields of a document that is given back -/

namespace Slots.Fit

variable {slots : List Slot} {source extra : Fields} {n : FieldName}

/-- No field is overlooked in what is written. -/
theorem not_overlooked (h : Fit slots source extra) (hn : n ∈ slots.map Prod.fst) :
    ¬ n.Overlooked (fields slots ++ extra) := by
  intro hparts
  obtain ⟨hcamel, hsnake⟩ := hparts
  obtain ⟨⟨_, value⟩, hslot, rfl⟩ := List.mem_map.mp hn
  cases value with
  | none =>
    rw [Keyed.has, h.get?_snake hslot] at hsnake
    cases hsnake
  | some v =>
    rw [Keyed.has, h.get?_camel hslot] at hcamel
    cases hcamel

/-- A field of another name is written as it was. -/
theorem get?_other (h : Fit slots source extra) {name : String}
    (hname : ∀ n ∈ slots.map Prod.fst, name ≠ n.camel ∧ name ≠ n.snake) :
    Keyed.get? (fields slots ++ extra) name = Keyed.get? source name := by
  rw [h.get?_of_not_camel fun n hn => (hname n hn).1, if_neg]
  intro hknown
  obtain ⟨n, hn, used, hused, hkey⟩ := isKnown_eq_true.mp hknown
  cases hkey
  rcases used?_eq_some hused with hcamel | hsnake
  · exact (hname n hn).1 hcamel
  · exact (hname n hn).2 hsnake

end Slots.Fit

/-! ### Fields that were filled in -/

namespace FieldName

variable {α : Type} {n : FieldName} {fields others : Fields} {e : Entry α}
  {read : Value → Checked (Entry α)}

/-- A field that is read as absent is given under neither name. -/
theorem absent_iff (hread : ∀ v, read v ≠ .ok .absent)
    (h : n.optional fields .absent read = .ok e) :
    e = .absent ↔ Keyed.has fields n.camel = false ∧ Keyed.has fields n.snake = false := by
  rw [← used?_eq_none]
  constructor
  · intro heq
    subst heq
    exact used?_of_optional_absent hread h
  · intro hunused
    rcases optional_eq_ok.mp h with ⟨_, habsent⟩ | ⟨name, hused, _⟩
    · exact habsent
    · rw [hunused] at hused
      cases hused

theorem ne_absent_of_overlooked (hread : ∀ v, read v ≠ .ok .absent)
    (h : n.optional fields .absent read = .ok e) (hoverlooked : n.Overlooked fields) :
    e ≠ .absent := by
  intro heq
  have hsnake := ((absent_iff hread h).mp heq).2
  rw [hoverlooked.2] at hsnake
  cases hsnake

/-- A field that is not overlooked is there, under its first name, when it is given. -/
theorem has_camel_iff (hread : ∀ v, read v ≠ .ok .absent)
    (h : n.optional fields .absent read = .ok e) (hnot : ¬ n.Overlooked fields) :
    Keyed.has fields n.camel = true ↔ e ≠ .absent := by
  rw [ne_eq, absent_iff hread h]
  cases hcamel : Keyed.has fields n.camel with
  | true => simp
  | false =>
    have hsnake : Keyed.has fields n.snake ≠ true := fun hsnake => hnot ⟨hcamel, hsnake⟩
    simpa using hsnake

/-- A default shows only in the place of a field that was overlooked. -/
theorem kept_iff {β : Type} (f : Entry α → β) (fallback : Entry α) (hread : ∀ v, read v ≠ .ok .absent)
    (h : n.optional fields .absent read = .ok e) (hothers : n.optional others .absent read = .ok e)
    (hnot : ¬ n.Overlooked others) :
    f (n.kept others e fallback) = f (n.kept fields e fallback) ↔
      (n.Overlooked fields → f e = f fallback) := by
  have hhas := has_camel_iff hread hothers hnot
  unfold kept
  by_cases hoverlooked : n.Overlooked fields
  · have he : e ≠ .absent := ne_absent_of_overlooked hread h hoverlooked
    rw [if_pos (hhas.mpr he), if_neg (by rw [hoverlooked.1]; decide)]
    exact ⟨fun hf _ => hf, fun hf => hf hoverlooked⟩
  · have hsame : Keyed.has fields n.camel = Keyed.has others n.camel := by
      rw [Bool.eq_iff_iff, has_camel_iff hread h hoverlooked, hhas]
    rw [hsame]
    exact ⟨fun _ hf => absurd hf hoverlooked, fun _ => rfl⟩

end FieldName

/-! ### Documents that the last step made alike -/

/-- Pages are the same when their papers, their columns and the rest of their layouts are. -/
theorem Page.build_eq_iff {a b : Layout} (hmargins : a.margins = b.margins) (design : DesignStyle) :
    Page.build a design = Page.build b design ↔
      Design.paperSizes.resolve a.paperSize.get? = Design.paperSizes.resolve b.paperSize.get? ∧
        Page.arrange a.type.get? a.columnDistribution.get? =
          Page.arrange b.type.get? b.columnDistribution.get? := by
  have hpaper (p q : Design.Paper) : p = q ↔ p.width = q.width ∧ p.height = q.height := by
    cases p
    cases q
    simp
  rw [hpaper]
  simp [Page.build, hmargins, and_assoc]

theorem Compile.pagination_eq_iff {a b : Layout} (hbreaks : a.pageBreakBehavior = b.pageBreakBehavior) :
    Compile.pagination .pdf a = Compile.pagination .pdf b ↔
      a.showPageNumbers.get?.getD false = b.showPageNumbers.get?.getD false ∧
        a.pageNumberPosition.get? = b.pageNumberPosition.get? := by
  simp [Compile.pagination, hbreaks]

namespace Document

variable {registry : SectionRegistry} {d t r : Document} {fields layout : Fields}
  {type size size' : Entry String}

/-- What a document gives has its overrides under the first name. -/
theorem ReadFrom.overrides_given (h : d.ReadFrom fields) :
    (if Keyed.has d.given "itemOverrides" then d.itemOverrides.getD [] else []) =
      d.itemOverrides.getD [] := by
  have hslot : (⟨"itemOverrides", "item_overrides"⟩, d.itemOverrides.map overridesValue) ∈
      d.slots := by simp [slots]
  have hfound := h.fit.get?_camel hslot
  rw [← given_eq] at hfound
  rw [Keyed.has, hfound]
  cases d.itemOverrides <;> rfl

/-- Overrides that are not overlooked are kept. -/
theorem ReadFrom.overrides_kept (h : d.ReadFrom fields)
    (hnot : ¬ (⟨"itemOverrides", "item_overrides"⟩ : FieldName).Overlooked fields) :
    (if Keyed.has fields "itemOverrides" then d.itemOverrides.getD [] else []) =
      d.itemOverrides.getD [] := by
  cases hcamel : Keyed.has fields "itemOverrides" with
  | true => rfl
  | false =>
    have hsnake : Keyed.has fields "item_overrides" = false := by
      by_contra hsnake
      exact hnot ⟨hcamel, Bool.not_eq_false _ ▸ hsnake⟩
    rcases optional_eq_ok.mp h.itemOverrides with ⟨_, hnone⟩ | ⟨name, hused, _⟩
    · rw [hnone]
      rfl
    · rw [used?_eq_none.mpr ⟨hcamel, hsnake⟩] at hused
      cases hused

/-- The sections of two renewed documents are placed alike, unless overrides were overlooked
that would have shown. -/
theorem placed_iff (h : d.ReadFrom fields) {l l' : Layout} {old : Fields}
    (ht : Renewed d.given old l d t) (hr : Renewed fields layout l' d r) :
    (∀ resume, (Placement.place t t.tokens.resolve resume registry).result =
      (Placement.place r r.tokens.resolve resume registry).result) ↔
        ((⟨"itemOverrides", "item_overrides"⟩ : FieldName).Overlooked fields →
          Placement.Indifferent registry d) := by
  have hsections : t.sections = r.sections := ht.sections.trans hr.sections.symm
  have hgiven : t.itemOverrides.getD [] = d.itemOverrides.getD [] :=
    ht.overrides.trans h.overrides_given
  rw [ht.tokens, hr.tokens]
  by_cases hoverlooked : (⟨"itemOverrides", "item_overrides"⟩ : FieldName).Overlooked fields
  · have hbare : r.itemOverrides.getD [] = [] := by
      rw [hr.overrides, hoverlooked.1]
      rfl
    have hindifferent : Placement.Indifferent registry t ↔ Placement.Indifferent registry d := by
      simp only [Placement.Indifferent, ht.sections, Placement.overridesFor_congr hgiven]
    rw [Placement.indifferent_iff hsections hbare, hindifferent]
    exact ⟨fun hd _ => hd, fun hd => hd hoverlooked⟩
  · have hsame : t.itemOverrides.getD [] = r.itemOverrides.getD [] := by
      rw [hgiven, hr.overrides, h.overrides_kept hoverlooked]
    exact ⟨fun _ hd => absurd hd hoverlooked,
      fun _ resume => Placement.place_congr hsections hsame _ resume registry⟩

/-- A layout that is written overlooks nothing. -/
theorem not_overlooked_given {l : Layout} {n : FieldName} (hl : l.ReadFrom layout)
    (hn : n ∈ Layout.names) : ¬ n.Overlooked (l.write .given) := by
  rw [Layout.write_eq]
  exact hl.fit.not_overlooked hn

/-! Two documents, one renewed from what `d` gives and the other from what it was read from. -/

section Pair

variable (hl : d.layout.ReadFrom layout)
  (ht : Renewed d.given (d.layout.write .given) { d.layout with type := type, paperSize := size } d t)
  (hr : Renewed fields layout { d.layout with type := type, paperSize := size' } d r)

include hl ht hr

theorem page_iff :
    Page.build t.layout t.tokens.resolve = Page.build r.layout r.tokens.resolve ↔
      Design.paperSizes.resolve size.get? = Design.paperSizes.resolve size'.get? ∧
        ((⟨"columnDistribution", "column_distribution"⟩ : FieldName).Overlooked layout →
          Page.arrange type.get? d.layout.columnDistribution.get? =
            Page.arrange type.get? (some "70-30")) := by
  obtain ⟨extra, htl⟩ := ht.layout
  obtain ⟨extra', hrl⟩ := hr.layout
  have hdistribution := kept_iff (fun e => Page.arrange type.get? e.get?) (.given "70-30")
    (fun _ => text_ne_absent) hl.columnDistribution hl.reread.columnDistribution
    (not_overlooked_given hl (by simp [Layout.names]))
  have hmargins : t.layout.margins = r.layout.margins := by rw [htl, hrl]; rfl
  rw [ht.tokens, hr.tokens, Page.build_eq_iff hmargins, htl, hrl]
  exact and_congr Iff.rfl hdistribution

theorem pagination_iff :
    Compile.pagination .pdf t.layout = Compile.pagination .pdf r.layout ↔
      ((⟨"showPageNumbers", "show_page_numbers"⟩ : FieldName).Overlooked layout →
        d.layout.showPageNumbers.get?.getD false = false) ∧
      ((⟨"pageNumberPosition", "page_number_position"⟩ : FieldName).Overlooked layout →
        d.layout.pageNumberPosition.get? = some "bottom-center") := by
  obtain ⟨extra, htl⟩ := ht.layout
  obtain ⟨extra', hrl⟩ := hr.layout
  have hnumbers := kept_iff (fun e => e.get?.getD false) (.given false) (fun _ => flag_ne_absent)
    hl.showPageNumbers hl.reread.showPageNumbers
    (not_overlooked_given hl (by simp [Layout.names]))
  have hposition := kept_iff Entry.get? (.given "bottom-center") (fun _ => text_ne_absent)
    hl.pageNumberPosition hl.reread.pageNumberPosition
    (not_overlooked_given hl (by simp [Layout.names]))
  have hbreaks : t.layout.pageBreakBehavior = r.layout.pageBreakBehavior := by rw [htl, hrl]; rfl
  rw [Compile.pagination_eq_iff hbreaks, htl, hrl]
  exact and_congr hnumbers hposition

theorem samePage_iff (h : d.ReadFrom fields) :
    Compile.SamePage registry t r ↔
      Design.paperSizes.resolve size.get? = Design.paperSizes.resolve size'.get? ∧
      ((⟨"columnDistribution", "column_distribution"⟩ : FieldName).Overlooked layout →
        Page.arrange type.get? d.layout.columnDistribution.get? =
          Page.arrange type.get? (some "70-30")) ∧
      ((⟨"showPageNumbers", "show_page_numbers"⟩ : FieldName).Overlooked layout →
        d.layout.showPageNumbers.get?.getD false = false) ∧
      ((⟨"pageNumberPosition", "page_number_position"⟩ : FieldName).Overlooked layout →
        d.layout.pageNumberPosition.get? = some "bottom-center") ∧
      ((⟨"itemOverrides", "item_overrides"⟩ : FieldName).Overlooked fields →
        Placement.Indifferent registry d) := by
  rw [Compile.samePage_iff, page_iff hl ht hr, pagination_iff hl ht hr, placed_iff h ht hr]
  simp only [and_assoc]

end Pair

/-! ### The paper size of the oldest version -/

/-- The paper that the first step puts in the place of a paper size that it overlooks. -/
def TakenBy (layout : Fields) (paper : Value) : Prop :=
  (⟨"paperSize", "paper_size"⟩ : FieldName).Overlooked layout ∧
    Keyed.get? layout "paper" = some paper

/-- What a document gives has its paper size under the first name, and the paper beside it. -/
theorem movedSize_given (hl : d.layout.ReadFrom layout) :
    movedSize d.layout (d.layout.write .given) =
      if d.layout.paperSize = .absent then
        (Keyed.get? layout "paper").elim (.ok .absent) text
      else .ok d.layout.paperSize := by
  have hhas := has_camel_iff (fun _ => text_ne_absent) hl.reread.paperSize
    (not_overlooked_given hl (by simp [Layout.names]))
  rw [Layout.write_eq] at hhas ⊢
  have hpaper : Keyed.get? (Slots.fields d.layout.slots ++ d.layout.extra) "paper" =
      Keyed.get? layout "paper" :=
    hl.fit.get?_other (by decide : ∀ n ∈ Layout.names, "paper" ≠ n.camel ∧ "paper" ≠ n.snake)
  unfold movedSize Migration.movedPaper?
  rw [hpaper]
  by_cases habsent : d.layout.paperSize = .absent
  · have hnone : Keyed.has (Slots.fields d.layout.slots ++ d.layout.extra) "paperSize" = false := by
      rw [Bool.eq_false_iff]
      exact fun h => hhas.mp h habsent
    simp [hnone, habsent]
  · have hsome : Keyed.has (Slots.fields d.layout.slots ++ d.layout.extra) "paperSize" = true :=
      hhas.mpr habsent
    simp [hsome, habsent]

theorem movedSize_of_taken {paper : Value} (hl : d.layout.ReadFrom layout)
    (h : TakenBy layout paper) :
    movedSize d.layout (d.layout.write .given) = .ok d.layout.paperSize ∧
      movedSize d.layout layout = text paper := by
  have hgiven : d.layout.paperSize ≠ .absent :=
    ne_absent_of_overlooked (fun _ => text_ne_absent) hl.paperSize h.1
  rw [movedSize_given hl, if_neg hgiven]
  refine ⟨rfl, ?_⟩
  have hnone : Keyed.has layout "paperSize" = false := h.1.1
  simp [movedSize, Migration.movedPaper?, hnone, h.2]

theorem movedSize_of_not_taken (hl : d.layout.ReadFrom layout) (h : ∀ paper, ¬ TakenBy layout paper) :
    movedSize d.layout (d.layout.write .given) = movedSize d.layout layout := by
  rw [movedSize_given hl]
  unfold movedSize Migration.movedPaper?
  cases hpaper : Keyed.get? layout "paper" with
  | none =>
    by_cases habsent : d.layout.paperSize = .absent <;> simp [habsent]
  | some paper =>
    have hnot : ¬ (⟨"paperSize", "paper_size"⟩ : FieldName).Overlooked layout :=
      fun hoverlooked => h paper ⟨hoverlooked, hpaper⟩
    have hhas := has_camel_iff (fun _ => text_ne_absent) hl.paperSize hnot
    by_cases habsent : d.layout.paperSize = .absent
    · have hnone : Keyed.has layout "paperSize" = false := by
        rw [Bool.eq_false_iff]
        exact fun h => hhas.mp h habsent
      simp [hnone, habsent]
    · have hsome : Keyed.has layout "paperSize" = true := hhas.mpr habsent
      simp [hsome, habsent]

/-! ### When being overlooked does no harm -/

/-- The layout type of a document once it is up to date. -/
def currentType (d : Document) : Entry String :=
  if Version.normal d.version = "0.9.0" then Layout.presentType d.layout.type else d.layout.type

/-- Every field that the steps overlook has no effect on the page, for a document `d` that was
read from these fields and this layout. -/
@[mk_iff]
structure Harmless (registry : SectionRegistry) (fields layout : Fields) (d : Document) :
    Prop where
  paper : Version.normal d.version = "0.9.0" → ∀ paper, TakenBy layout paper →
    ∃ size, text paper = .ok size ∧
      Design.paperSizes.resolve size.get? = Design.paperSizes.resolve d.layout.paperSize.get?
  distribution : (⟨"columnDistribution", "column_distribution"⟩ : FieldName).Overlooked layout →
    Page.arrange d.currentType.get? d.layout.columnDistribution.get? =
      Page.arrange d.currentType.get? (some "70-30")
  numbers : (⟨"showPageNumbers", "show_page_numbers"⟩ : FieldName).Overlooked layout →
    d.layout.showPageNumbers.get?.getD false = false
  position : (⟨"pageNumberPosition", "page_number_position"⟩ : FieldName).Overlooked layout →
    d.layout.pageNumberPosition.get? = some "bottom-center"
  overrides : (⟨"itemOverrides", "item_overrides"⟩ : FieldName).Overlooked fields →
    Placement.Indifferent registry d

/-! ### Documents of each version -/

theorem ReadFrom.field_version (h : d.ReadFrom fields) :
    Value.field fields "version" = .str d.version := by
  obtain ⟨v, hv, hread⟩ := required_word_eq_ok.mp h.version
  rw [Value.field, hv, (readVersion_eq_ok.mp hread).1]
  rfl

theorem ReadFrom.layout_given (h : d.ReadFrom fields) :
    Keyed.get? d.given "layout" = some (.object (d.layout.write .given)) := by
  have hslot : (word "layout", some (.object (d.layout.write .given))) ∈ d.slots := by
    simp [slots]
  rw [given_eq]
  exact h.fit.get?_camel hslot

theorem ReadFrom.stamped (h : d.ReadFrom fields) :
    ∃ extra, ({ d with version := "1.1.0", extra := extra } : Document).ReadFrom
      (Migration.stamped "1.1.0" fields) := by
  obtain ⟨extra, hextra⟩ := unknownFields_of_named Document.names
    (Fields.Named.set (named_of_unknownFields h.extra) "version" (.str "1.1.0"))
  have hframe (name : String) (hname : "version" ≠ name) :
      Keyed.get? (Migration.stamped "1.1.0" fields) name = Keyed.get? fields name := by
    rw [Migration.stamped, Fields.get?_set, if_neg hname]
  have hversion : Keyed.get? (Migration.stamped "1.1.0" fields) "version" = some (.str "1.1.0") :=
    Keyed.get?_set_self ..
  exact ⟨extra,
    { version := required_word_eq_ok.mpr ⟨_, hversion, rfl⟩
      layout := (required_congr (hframe _ (by decide)) (hframe _ (by decide)) _).trans h.layout
      tokens := (required_congr (hframe _ (by decide)) (hframe _ (by decide)) _).trans h.tokens
      sections := (required_congr (hframe _ (by decide)) (hframe _ (by decide)) _).trans h.sections
      itemOverrides := (optional_congr (hframe _ (by decide)) (hframe _ (by decide)) _ _).trans
        h.itemOverrides
      extra := hextra }⟩

open Compile

/-- A document is valid when its sections are those of a valid one. -/
theorem ReadFrom.validate (ht : t.ReadFrom fields) (hsame : t.sections = d.sections)
    (hsections : Validation.sectionErrors (Validation.idsOf d) = []) :
    Validation.validate (.object fields) = .ok t := by
  refine Validation.validate_eq_ok.mpr ⟨read_eq_ok.mpr ⟨fields, rfl, ht⟩, ?_⟩
  rw [Validation.idsOf, hsame]
  exact hsections

/-- A version that is no text of a version is left to validation. -/
theorem ReadFrom.kept_of_malformed (h : d.ReadFrom fields)
    (hformed : Version.isWellFormed d.version = false) :
    (upToDate Migration.builtin (.object fields)).result = .ok (.object fields) := by
  refine upToDate_of_malformed fun version hversion => ?_
  have hsame : Value.str d.version = .str version := h.field_version.symm.trans hversion
  rw [← Value.str.inj hsame]
  exact hformed

/-- Validation sees one document then. -/
theorem ReadFrom.alike_of_malformed (h : d.ReadFrom fields)
    (hformed : Version.isWellFormed d.version = false) :
    Alike registry (.object d.given) (.object fields) := by
  have hread {source : Fields} (hsource : d.ReadFrom source) :
      Document.read (.object source) = .ok d := read_eq_ok.mpr ⟨source, rfl, hsource⟩
  exact (alike_iff_of_read (h.reread.kept_of_malformed hformed) (hread h.reread)
    (h.kept_of_malformed hformed) (hread h) ⟨rfl, rfl, rfl⟩).mpr
      fun _ => ⟨rfl, rfl, fun _ => rfl⟩

theorem ReadFrom.alike_of_unknown (h : d.ReadFrom fields)
    (hformed : Version.isWellFormed d.version = true)
    (hunknown : Version.normal d.version ∉ Migration.knownOrigins) :
    Alike registry (.object d.given) (.object fields) := by
  have hrefused {source : Fields} (hsource : d.ReadFrom source) :
      Refused (.object source) .unsupported :=
    .inl ⟨_, upToDate_of_unknown hsource.field_version hformed hunknown, rfl⟩
  exact alike_of_refused (hrefused h.reread) (hrefused h)

theorem ReadFrom.alike_of_current (h : d.ReadFrom fields)
    (hversion : Version.normal d.version = "1.1.0") :
    Alike registry (.object d.given) (.object fields) := by
  obtain ⟨extra, ht⟩ := h.reread.stamped
  obtain ⟨extra', hr⟩ := h.stamped
  exact (alike_iff_of_read (upToDate_of_current h.reread.field_version hversion)
    (read_eq_ok.mpr ⟨_, rfl, ht⟩) (upToDate_of_current h.field_version hversion)
    (read_eq_ok.mpr ⟨_, rfl, hr⟩) ⟨rfl, rfl, rfl⟩).mpr fun _ => ⟨rfl, rfl, fun _ => rfl⟩

theorem Renewed.kin {old : Fields} {l l' : Layout} {others : Fields}
    (ht : Renewed others old l d t) (hr : Renewed fields layout l' d r) : Kin t r :=
  ⟨ht.version.trans hr.version.symm, ht.tokens.trans hr.tokens.symm,
    ht.sections.trans hr.sections.symm⟩

/-- A document of the first version compiles when its sections are in order. -/
theorem ReadFrom.exists_accepts (h : d.ReadFrom fields)
    (hversion : Version.normal d.version = "1.0.0")
    (hsections : Validation.sectionErrors (Validation.idsOf d) = []) :
    ∃ t, Accepts Migration.builtin (.object d.given) t := by
  obtain ⟨current, t, hcurrent, ht, hrenewed⟩ := h.reread.renewed h.layout_given
  exact ⟨t, .object current, upToDate_of_fromFirst h.reread.field_version hversion hcurrent,
    ht.validate hrenewed.sections hsections⟩

theorem ReadFrom.alike_first_iff (h : d.ReadFrom fields) (hl : d.layout.ReadFrom layout)
    (hlayout : Keyed.get? fields "layout" = some (.object layout))
    (hversion : Version.normal d.version = "1.0.0") :
    Alike registry (.object d.given) (.object fields) ↔
      ((∃ t, Accepts Migration.builtin (.object d.given) t) → Harmless registry fields layout d) := by
  obtain ⟨typed, t, htyped, ht, hrt⟩ := h.reread.renewed h.layout_given
  obtain ⟨raw, r, hraw, hr, hrr⟩ := h.renewed hlayout
  have hu : (upToDate Migration.builtin (.object d.given)).result = .ok (.object typed) :=
    upToDate_of_fromFirst h.reread.field_version hversion htyped
  have hw : (upToDate Migration.builtin (.object fields)).result = .ok (.object raw) :=
    upToDate_of_fromFirst h.field_version hversion hraw
  rw [alike_iff_of_read hu (read_eq_ok.mpr ⟨_, rfl, ht⟩) hw (read_eq_ok.mpr ⟨_, rfl, hr⟩)
    (hrt.kin hrr), samePage_iff hl hrt hrr h, harmless_iff]
  simp [hversion, currentType]

/-- A document of the oldest version whose paper size cannot be read is refused. -/
theorem ReadFrom.refused_of_size {source old : Fields} (h : d.ReadFrom source)
    (hold : Keyed.get? source "layout" = some (.object old))
    (hversion : Version.normal d.version = "0.9.0")
    (hsize : ∀ size, movedSize d.layout old ≠ .ok size) : Refused (.object source) .invalid := by
  obtain ⟨current, hcurrent, hnone⟩ := h.not_renewed hold hsize
  have hupToDate : (upToDate Migration.builtin (.object source)).result = .ok (.object current) :=
    upToDate_of_fromOldest h.field_version hversion hcurrent
  refine refused_of_invalid hupToDate fun other hvalid => ?_
  obtain ⟨_, hfields, hread⟩ := read_eq_ok.mp (Validation.validate_eq_ok.mp hvalid).1
  cases hfields
  exact hnone other hread

/-- The papers of a document and of what it gives are the same size, unless a paper that was
overlooked has another. -/
theorem resolve_size_iff (hl : d.layout.ReadFrom layout)
    (hsize : movedSize d.layout (d.layout.write .given) = .ok size)
    (hsize' : movedSize d.layout layout = .ok size') :
    Design.paperSizes.resolve size.get? = Design.paperSizes.resolve size'.get? ↔
      ∀ paper, TakenBy layout paper → ∃ size, text paper = .ok size ∧
        Design.paperSizes.resolve size.get? =
          Design.paperSizes.resolve d.layout.paperSize.get? := by
  by_cases htaken : ∃ paper, TakenBy layout paper
  · obtain ⟨paper, hpaper⟩ := htaken
    obtain ⟨hgiven, htext⟩ := movedSize_of_taken hl hpaper
    cases hsize.symm.trans hgiven
    have hread : text paper = .ok size' := htext.symm.trans hsize'
    constructor
    · intro hsame other hother
      cases hpaper.2.symm.trans hother.2
      exact ⟨size', hread, hsame.symm⟩
    · intro hall
      obtain ⟨found, hfound, hsame⟩ := hall paper hpaper
      cases hread.symm.trans hfound
      exact hsame.symm
  · have hnone : ∀ paper, ¬ TakenBy layout paper := fun paper hpaper => htaken ⟨paper, hpaper⟩
    rw [movedSize_of_not_taken hl hnone, hsize'] at hsize
    cases hsize
    exact ⟨fun _ paper hpaper => absurd hpaper (hnone paper), fun _ => rfl⟩

/-! A document of the oldest version, by whether the steps leave a paper size that is read. -/

section Oldest

variable (h : d.ReadFrom fields) (hl : d.layout.ReadFrom layout)
  (hlayout : Keyed.get? fields "layout" = some (.object layout))
  (hversion : Version.normal d.version = "0.9.0")

include h hl hlayout hversion

theorem alike_oldest_iff_of_sizes (hsize : movedSize d.layout (d.layout.write .given) = .ok size)
    (hsize' : movedSize d.layout layout = .ok size') :
    Alike registry (.object d.given) (.object fields) ↔
      ((∃ t, Accepts Migration.builtin (.object d.given) t) →
        Harmless registry fields layout d) := by
  obtain ⟨typed, t, htyped, ht, hrt⟩ := h.reread.renewedOldest h.layout_given hsize
  obtain ⟨raw, r, hraw, hr, hrr⟩ := h.renewedOldest hlayout hsize'
  have hu : (upToDate Migration.builtin (.object d.given)).result = .ok (.object typed) :=
    upToDate_of_fromOldest h.reread.field_version hversion htyped
  have hw : (upToDate Migration.builtin (.object fields)).result = .ok (.object raw) :=
    upToDate_of_fromOldest h.field_version hversion hraw
  rw [alike_iff_of_read hu (read_eq_ok.mpr ⟨_, rfl, ht⟩) hw (read_eq_ok.mpr ⟨_, rfl, hr⟩)
    (hrt.kin hrr), samePage_iff hl hrt hrr h, harmless_iff, resolve_size_iff hl hsize hsize']
  simp [hversion, currentType]

/-- A paper that cannot be read does harm: the value is refused, and what the document gives
is not. -/
theorem alike_oldest_iff_of_size (hsize : movedSize d.layout (d.layout.write .given) = .ok size)
    (hnone : ∀ size', movedSize d.layout layout ≠ .ok size') :
    Alike registry (.object d.given) (.object fields) ↔
      ((∃ t, Accepts Migration.builtin (.object d.given) t) →
        Harmless registry fields layout d) := by
  obtain ⟨typed, t, htyped, ht, _⟩ := h.reread.renewedOldest h.layout_given hsize
  have hu : (upToDate Migration.builtin (.object d.given)).result = .ok (.object typed) :=
    upToDate_of_fromOldest h.reread.field_version hversion htyped
  have hraw : Refused (.object fields) .invalid := h.refused_of_size hlayout hversion hnone
  have htaken : ∃ paper, TakenBy layout paper := by
    by_contra hnot
    have hsame := movedSize_of_not_taken hl fun paper hpaper => hnot ⟨paper, hpaper⟩
    exact hnone size (hsame.symm.trans hsize)
  have hharm : ¬ Harmless registry fields layout d := by
    intro hharmless
    obtain ⟨paper, hpaper⟩ := htaken
    obtain ⟨found, hfound, _⟩ := hharmless.paper hversion paper hpaper
    exact hnone found ((movedSize_of_taken hl hpaper).2.trans hfound)
  rcases accepts_or_refused hu (read_eq_ok.mpr ⟨_, rfl, ht⟩) with ⟨htyped, _⟩ | ⟨htyped, _⟩
  · exact ⟨fun halike => absurd halike (not_alike_of_refused htyped hraw),
      fun himplies => absurd (himplies ⟨t, htyped⟩) hharm⟩
  · exact alike_iff_of_refused htyped hraw

/-- A size that the document does not give is the same paper, read or not, for both. -/
theorem alike_oldest_iff_of_no_size
    (hnone : ∀ size, movedSize d.layout (d.layout.write .given) ≠ .ok size) :
    Alike registry (.object d.given) (.object fields) ↔
      ((∃ t, Accepts Migration.builtin (.object d.given) t) →
        Harmless registry fields layout d) := by
  have hfree : ∀ paper, ¬ TakenBy layout paper := by
    intro paper hpaper
    exact hnone _ (movedSize_of_taken hl hpaper).1
  have htyped : Refused (.object d.given) .invalid :=
    h.reread.refused_of_size h.layout_given hversion hnone
  have hraw : Refused (.object fields) .invalid :=
    h.refused_of_size hlayout hversion (movedSize_of_not_taken hl hfree ▸ hnone)
  exact alike_iff_of_refused htyped hraw

theorem ReadFrom.alike_oldest_iff :
    Alike registry (.object d.given) (.object fields) ↔
      ((∃ t, Accepts Migration.builtin (.object d.given) t) →
        Harmless registry fields layout d) := by
  by_cases hsize : ∃ size, movedSize d.layout (d.layout.write .given) = .ok size
  · obtain ⟨size, hsize⟩ := hsize
    by_cases hsize' : ∃ size', movedSize d.layout layout = .ok size'
    · obtain ⟨size', hsize'⟩ := hsize'
      exact alike_oldest_iff_of_sizes h hl hlayout hversion hsize hsize'
    · exact alike_oldest_iff_of_size h hl hlayout hversion hsize
        fun size' hok => hsize' ⟨size', hok⟩
  · exact alike_oldest_iff_of_no_size h hl hlayout hversion fun size hok => hsize ⟨size, hok⟩

end Oldest

/-- A document of a version that no step leads away from meets no step. -/
theorem ReadFrom.alike_of_not_legacy (h : d.ReadFrom fields)
    (holdest : Version.normal d.version ≠ "0.9.0") (hfirst : Version.normal d.version ≠ "1.0.0") :
    Alike registry (.object d.given) (.object fields) := by
  cases hformed : Version.isWellFormed d.version with
  | false => exact h.alike_of_malformed hformed
  | true =>
    by_cases hcurrent : Version.normal d.version = "1.1.0"
    · exact h.alike_of_current hcurrent
    · have hunknown : Version.normal d.version ∉ Migration.knownOrigins := by
        simp [Migration.knownOrigins, holdest, hfirst, hcurrent]
      exact h.alike_of_unknown hformed hunknown

end Document

namespace Compile

/-- The versions that the steps lead away from. -/
def legacyVersions : List String := ["0.9.0", "1.0.0"]

/-- **When a document compiles like the value that it was read from**: whenever it compiles at
all, no field that a step of its migration overlooks has an effect on the page. -/
theorem compileDraft_typed_iff {document : Value} {d : Document} {registry : SectionRegistry}
    (h : Document.read document = .ok d) :
    (∀ stamp stamp' target resume,
      Agree (compileDraft stamp (.typed d) target resume Migration.builtin registry).result
        (compileDraft stamp' (.raw document) target resume Migration.builtin registry).result) ↔
      ((∃ t, Accepts Migration.builtin (Draft.typed d).value t) →
        Version.normal d.version ∈ legacyVersions →
        d.Harmless registry document.entries (Value.field document.entries "layout").entries) := by
  obtain ⟨fields, rfl, hd⟩ := Document.read_eq_ok.mp h
  obtain ⟨layout, hlayout, hl⟩ := hd.exists_layout
  have hentries : (Value.field fields "layout").entries = layout := by
    rw [Value.field, hlayout]
    rfl
  show Alike registry (.object d.given) (.object fields) ↔
    ((∃ t, Accepts Migration.builtin (.object d.given) t) →
      Version.normal d.version ∈ legacyVersions →
      d.Harmless registry fields (Value.field fields "layout").entries)
  rw [hentries]
  by_cases hversion : Version.normal d.version ∈ legacyVersions
  · simp only [hversion, forall_const]
    simp only [legacyVersions, List.mem_cons, List.not_mem_nil, or_false] at hversion
    rcases hversion with hversion | hversion
    · exact hd.alike_oldest_iff hl hlayout hversion
    · exact hd.alike_first_iff hl hlayout hversion
  · have halike : Alike registry (.object d.given) (.object fields) := by
      simp only [legacyVersions, List.mem_cons, List.not_mem_nil, or_false, not_or] at hversion
      exact hd.alike_of_not_legacy hversion.1 hversion.2
    exact ⟨fun _ _ hlegacy => absurd hlegacy hversion, fun _ => halike⟩

/-- A document of the first version that gives its column shares under the second name. -/
def overlookedShares : Value :=
  .object
    [("version", .str "1.0.0"),
     ("layout", .object [("type", .str "two-column"), ("column_distribution", .str "50-50")]),
     ("tokens", .object []), ("sections", .list [])]

/-- What is read of it. -/
def overlookedSharesRead : Document where
  version := "1.0.0"
  layout := { type := .given "two-column", columnDistribution := .given "50-50" }
  tokens := {}
  sections := []

theorem compileDraft_typed_iff_overlookedShares :
    Document.read overlookedShares = .ok overlookedSharesRead ∧
      ((∀ stamp stamp' target resume,
        Agree (compileDraft stamp (.typed overlookedSharesRead) target resume Migration.builtin
            .builtin).result
          (compileDraft stamp' (.raw overlookedShares) target resume Migration.builtin
            .builtin).result) ↔
        ((∃ t, Accepts Migration.builtin (Draft.typed overlookedSharesRead).value t) →
          Version.normal overlookedSharesRead.version ∈ legacyVersions →
          overlookedSharesRead.Harmless .builtin overlookedShares.entries
            (Value.field overlookedShares.entries "layout").entries)) := by
  have hread : Document.read overlookedShares = .ok overlookedSharesRead := by rfl
  exact ⟨hread, compileDraft_typed_iff hread⟩

/-- The shares that were given are on the page of the document, and the default ones on the
page of the value. -/
theorem overlookedShares_not_alike :
    Document.read overlookedShares = .ok overlookedSharesRead ∧
      ¬ ∀ stamp stamp' target resume,
        Agree (compileDraft stamp (.typed overlookedSharesRead) target resume Migration.builtin
            .builtin).result
          (compileDraft stamp' (.raw overlookedShares) target resume Migration.builtin
            .builtin).result := by
  have hread : Document.read overlookedShares = .ok overlookedSharesRead := by rfl
  refine ⟨hread, fun h => ?_⟩
  obtain ⟨_, hfields, hd⟩ := Document.read_eq_ok.mp hread
  cases hfields
  have hl : overlookedSharesRead.layout.ReadFrom
      [("type", .str "two-column"), ("column_distribution", .str "50-50")] :=
    Layout.ofFields_eq_ok.mp (by rfl)
  have hharmless := (hd.alike_first_iff hl rfl (by decide)).mp h
    (hd.exists_accepts (by decide) rfl)
  have hshares : Page.arrange (some "two-column") (some "50-50") =
      Page.arrange (some "two-column") (some "70-30") := hharmless.distribution ⟨rfl, rfl⟩
  exact absurd hshares (by decide)

end Compile

end Vitae
