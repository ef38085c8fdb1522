import Vitae.Proofs.Carried
import Vitae.Proofs.Targets
import Vitae.Proofs.Thinning
import Vitae.Proofs.Typed

/-! Unrecognised means absent.

A table has one answer for a name that it does not have and for no name at all. So the values of
a document that are in no table can be taken out of it: for each field that names a value of a
table, `Table.Blanked` says what may be given before and after, and the relations `Blanked` of the
parts say that nothing else changed. What is left is read, resolves as before
(`Document.Blanked.exists_readFrom`), and is compiled to the same page
(`Compile.compileDraft_blanked`).

A field of more than one word can be given under both of its names. Without the first one the
second comes to light, which shows where the table has it (`Compile.sizedTwice_not_blank`). -/

namespace Vitae

open Reading FieldName
open Fields (AgreeBeside)
open Migration (Objects)

/-! ### One field -/

/-- What a field gives for a table, before and after a name that the table does not have was
taken out: it was replaced by null, or it is gone and nothing that shows came to light. -/
inductive Table.Blanked {α : Type} (t : Table α) : Option Value → Option Value → Prop
  | same (given : Option Value) : Blanked t given given
  | null {name : String} (h : Keyed.get? t.entries name = none) :
      Blanked t (some (.str name)) (some .null)
  | deleted {name : String} (h : Keyed.get? t.entries name = none) :
      Blanked t (some (.str name)) none
  | uncovered {name other : String} (h : Keyed.get? t.entries name = none)
      (hother : ∀ x ∈ Keyed.get? t.entries other, x = t.fallback) :
      Blanked t (some (.str name)) (some (.str other))

/-- What is left in a field can be read, and resolves as before. -/
theorem Table.Blanked.exists_text {α : Type} {t : Table α} {n : FieldName} {a b : Fields}
    {e : Entry String} (h : t.Blanked (n.given? a) (n.given? b)) (he : optionalText n a = .ok e) :
    ∃ left, optionalText n b = .ok left ∧ t.resolve left.get? = t.resolve e.get? := by
  -- What was taken out had been read as a text, and resolved to the fallback.
  have hunknown {name : String} (hname : Keyed.get? t.entries name = none)
      (hgiven : n.given? a = some (.str name)) : t.fallback = t.resolve e.get? := by
    rw [get?_of_optionalText he, hgiven]
    exact (t.resolve_of_unknown hname).symm
  have hread {left : Entry String} {v : Value} (hgiven : n.given? b = some v)
      (hv : text v = .ok left) : optionalText n b = .ok left :=
    optional_eq_ok_iff.mpr (.inr ⟨v, hgiven, hv⟩)
  generalize hbefore : n.given? a = before at h
  generalize hafter : n.given? b = after at h
  cases h with
  | same =>
    refine ⟨e, ?_, rfl⟩
    rw [optionalText, optional_eq_ok_iff, hbefore] at he
    rw [optionalText, optional_eq_ok_iff, hafter]
    exact he
  | null hname => exact ⟨.null, hread hafter rfl, hunknown hname hbefore⟩
  | deleted hname =>
    exact ⟨.absent, optional_eq_ok_iff.mpr (.inl ⟨hafter, rfl⟩), hunknown hname hbefore⟩
  | @uncovered _ other hname hother =>
    refine ⟨.given other, hread hafter rfl, ?_⟩
    rw [← hunknown hname hbefore]
    show (Keyed.get? t.entries other).getD t.fallback = t.fallback
    cases hfound : Keyed.get? t.entries other with
    | none => rfl
    | some x => exact hother x hfound

/-- A part is read from related fields as a related one. -/
theorem Reading.exists_optionalPart {α : Type} {n : FieldName} {name : String}
    {ofFields : Fields → Checked α} {R : Fields → Fields → Prop} {S : α → α → Prop} {a b : Fields}
    {o : Option α}
    (hR : ∀ u w x, R u w → ofFields u = .ok x → ∃ y, ofFields w = .ok y ∧ S x y)
    (h : Option.Rel (Objects R) (n.given? a) (n.given? b))
    (ho : optionalPart n a (part name ofFields) = .ok o) :
    ∃ left, optionalPart n b (part name ofFields) = .ok left ∧ Option.Rel S o left := by
  generalize hafter : n.given? b = after at h
  rcases optional_eq_ok_iff.mp ho with ⟨hnone, rfl⟩ | ⟨v, hv, hread⟩
  · rw [hnone] at h
    cases h
    exact ⟨none, optional_eq_ok_iff.mpr (.inl ⟨hafter, rfl⟩), .none⟩
  · rw [hv] at h
    obtain ⟨x, hx, rfl⟩ := Checked.both_ok_eq_ok.mp hread
    cases h with
    | some hobjects =>
      cases hobjects with
      | mk hfields =>
        obtain ⟨y, hy, hxy⟩ := hR _ _ x hfields hx
        have hleft : part name ofFields (.object _) = .ok y := hy
        exact ⟨some y, optional_eq_ok_iff.mpr (.inr ⟨_, hafter,
          Checked.both_ok_eq_ok.mpr ⟨y, hleft, rfl⟩⟩), .some hxy⟩

/-- The fields beside the ones that changed have texts for keys, as before. -/
theorem Fields.AgreeBeside.exists_extra {changed : List String} {names : List FieldName}
    {a b extra : Fields} (h : AgreeBeside changed a b) (ha : unknownFields names a = .ok extra) :
    ∃ left, unknownFields names b = .ok left :=
  unknownFields_of_named names (h.named (named_of_unknownFields ha))

/-- Fields that are the same apart from these names. -/
theorem Fields.AgreeBeside.of_filter {names : List String} {a b : Fields}
    (h : (a.filter fun f => names.all fun name => !(f.1 == Key.str name)) =
      b.filter fun f => names.all fun name => !(f.1 == Key.str name)) : AgreeBeside names a b := by
  intro key hkey
  have hother (fields : Fields) :
      Keyed.get? (fields.filter fun f => names.all fun name => !(f.1 == Key.str name)) key =
        Keyed.get? fields key := by
    refine Keyed.get?_filter fun f _ hf => List.all_eq_true.mpr fun name hname => ?_
    rw [BEq.congr_left hf, Key.beq_str_eq_false (hkey name hname)]
    rfl
  rw [← hother a, ← hother b, h]

/-! ### The parts

A part is blanked where it gives names of tables, or holds a part that is, and is the same
everywhere else. It is read then, and looks as before. -/

structure Layout.Blanked (a b : Fields) : Prop where
  beside : AgreeBeside
    ["type", "paperSize", "paper_size", "margins", "columnDistribution", "column_distribution"] a b
  type : Page.arrangements.Blanked ((word "type").given? a) ((word "type").given? b)
  paperSize : Design.paperSizes.Blanked
    (given? ⟨"paperSize", "paper_size"⟩ a) (given? ⟨"paperSize", "paper_size"⟩ b)
  margins : Design.margins.Blanked ((word "margins").given? a) ((word "margins").given? b)
  columnDistribution : Design.distributions.Blanked
    (given? ⟨"columnDistribution", "column_distribution"⟩ a)
    (given? ⟨"columnDistribution", "column_distribution"⟩ b)

/-- Layouts with one page and one print. -/
structure Layout.Alike (l m : Layout) : Prop where
  page : ∀ design, Page.build m design = Page.build l design
  printed : m.printed = l.printed

theorem Layout.Blanked.exists_ofFields {a b : Fields} {l : Layout} (h : Blanked a b)
    (hl : ofFields a = .ok l) : ∃ m, ofFields b = .ok m ∧ l.Alike m := by
  have hl := ofFields_eq_ok.mp hl
  obtain ⟨type, htype, htypes⟩ := h.type.exists_text hl.type
  obtain ⟨size, hsize, hsizes⟩ := h.paperSize.exists_text hl.paperSize
  obtain ⟨margins, hmargins, hmargin⟩ := h.margins.exists_text hl.margins
  obtain ⟨shares, hshares, hshare⟩ := h.columnDistribution.exists_text hl.columnDistribution
  obtain ⟨extra, hextra⟩ := h.beside.exists_extra hl.extra
  refine ⟨{ l with
    type := type, paperSize := size, margins := margins, columnDistribution := shares,
    extra := extra }, ofFields_eq_ok.mpr ?_, ?_⟩
  · exact
      { type := htype
        paperSize := hsize
        margins := hmargins
        columnDistribution := hshares
        pageBreakBehavior :=
          (h.beside.optional_eq (by decide) (by decide) _ _).symm.trans hl.pageBreakBehavior
        showPageNumbers :=
          (h.beside.optional_eq (by decide) (by decide) _ _).symm.trans hl.showPageNumbers
        pageNumberPosition :=
          (h.beside.optional_eq (by decide) (by decide) _ _).symm.trans hl.pageNumberPosition
        extra := hextra }
  · refine ⟨fun design => ?_, rfl⟩
    simp only [Page.build, Page.arrange, htypes, hsizes, hmargin, hshare]

structure FontFamily.Blanked (a b : Fields) : Prop where
  beside : AgreeBeside ["heading", "body"] a b
  heading : Design.fontFamilies.Blanked ((word "heading").given? a) ((word "heading").given? b)
  body : Design.fontFamilies.Blanked ((word "body").given? a) ((word "body").given? b)

/-- Font families with the same fonts. -/
structure FontFamily.Alike (f g : FontFamily) : Prop where
  heading : Design.fontFamilies.resolve g.heading.get? = Design.fontFamilies.resolve f.heading.get?
  body : Design.fontFamilies.resolve g.body.get? = Design.fontFamilies.resolve f.body.get?

theorem FontFamily.Alike.refl (f : FontFamily) : f.Alike f := ⟨rfl, rfl⟩

theorem FontFamily.Blanked.exists_ofFields {a b : Fields} {f : FontFamily} (h : Blanked a b)
    (hf : ofFields a = .ok f) : ∃ g, ofFields b = .ok g ∧ f.Alike g := by
  have hf := ofFields_eq_ok.mp hf
  obtain ⟨heading, hheading, hheadings⟩ := h.heading.exists_text hf.heading
  obtain ⟨body, hbody, hbodies⟩ := h.body.exists_text hf.body
  obtain ⟨extra, hextra⟩ := h.beside.exists_extra hf.extra
  exact ⟨⟨heading, body, extra⟩, ofFields_eq_ok.mpr ⟨hheading, hbody, hextra⟩, hheadings, hbodies⟩

structure Typography.Blanked (a b : Fields) : Prop where
  beside : AgreeBeside
    ["fontFamily", "font_family", "fontSize", "font_size", "headingStyle", "heading_style"] a b
  fontFamily : Option.Rel (Objects FontFamily.Blanked)
    (given? ⟨"fontFamily", "font_family"⟩ a) (given? ⟨"fontFamily", "font_family"⟩ b)
  fontSize : Design.fontSizes.Blanked
    (given? ⟨"fontSize", "font_size"⟩ a) (given? ⟨"fontSize", "font_size"⟩ b)
  headingStyle : Design.headingStyles.Blanked
    (given? ⟨"headingStyle", "heading_style"⟩ a) (given? ⟨"headingStyle", "heading_style"⟩ b)

/-- Typographies with one style, whatever the accent is. -/
def Typography.Alike (t u : Typography) : Prop := ∀ accent, u.resolve accent = t.resolve accent

theorem Typography.Blanked.exists_ofFields {a b : Fields} {t : Typography} (h : Blanked a b)
    (ht : ofFields a = .ok t) : ∃ u, ofFields b = .ok u ∧ t.Alike u := by
  have ht := ofFields_eq_ok.mp ht
  obtain ⟨family, hfamily, hfamilies⟩ :=
    exists_optionalPart (R := FontFamily.Blanked) (S := FontFamily.Alike)
      (fun _ _ _ => FontFamily.Blanked.exists_ofFields) h.fontFamily ht.fontFamily
  obtain ⟨size, hsize, hsizes⟩ := h.fontSize.exists_text ht.fontSize
  obtain ⟨style, hstyle, hstyles⟩ := h.headingStyle.exists_text ht.headingStyle
  obtain ⟨extra, hextra⟩ := h.beside.exists_extra ht.extra
  have hfonts : (t.fontFamily.getD {}).Alike (family.getD {}) :=
    Option.Rel.getD hfamilies (.refl {})
  refine ⟨⟨family, size, style, extra⟩, ofFields_eq_ok.mpr ⟨hfamily, hsize, hstyle, hextra⟩, ?_⟩
  intro accent
  simp only [Typography.resolve, hfonts.heading, hfonts.body, hsizes, hstyles]

structure Colors.Blanked (a b : Fields) : Prop where
  beside : AgreeBeside ["borderRadius", "border_radius", "shadows"] a b
  borderRadius : Design.borderRadii.Blanked
    (given? ⟨"borderRadius", "border_radius"⟩ a) (given? ⟨"borderRadius", "border_radius"⟩ b)
  shadows : Design.shadows.Blanked ((word "shadows").given? a) ((word "shadows").given? b)

/-- Colors with one palette and the same effects. -/
structure Colors.Alike (c e : Colors) : Prop where
  palette : e.colors = c.colors
  effects : e.effects = c.effects

theorem Colors.Alike.refl (c : Colors) : c.Alike c := ⟨rfl, rfl⟩

theorem Colors.Blanked.exists_ofFields {a b : Fields} {c : Colors} (h : Blanked a b)
    (hc : ofFields a = .ok c) : ∃ e, ofFields b = .ok e ∧ c.Alike e := by
  have hc := ofFields_eq_ok.mp hc
  obtain ⟨radius, hradius, hradii⟩ := h.borderRadius.exists_text hc.borderRadius
  obtain ⟨shadow, hshadow, hshadows⟩ := h.shadows.exists_text hc.shadows
  obtain ⟨extra, hextra⟩ := h.beside.exists_extra hc.extra
  have hpalette := (h.beside.optional_eq (by decide) (by decide) _ _).symm.trans hc.colors
  refine ⟨⟨c.colors, radius, shadow, extra⟩,
    ofFields_eq_ok.mpr ⟨hpalette, hradius, hshadow, hextra⟩, rfl, ?_⟩
  simp only [Colors.effects, hradii, hshadows]

structure Spacing.Blanked (a b : Fields) : Prop where
  beside : AgreeBeside
    ["density", "sectionGap", "section_gap", "itemGap", "item_gap", "contentPadding",
      "content_padding"] a b
  density : Design.densities.Blanked ((word "density").given? a) ((word "density").given? b)
  sectionGap : Design.sectionGaps.Blanked
    (given? ⟨"sectionGap", "section_gap"⟩ a) (given? ⟨"sectionGap", "section_gap"⟩ b)
  itemGap : Design.itemGaps.Blanked
    (given? ⟨"itemGap", "item_gap"⟩ a) (given? ⟨"itemGap", "item_gap"⟩ b)
  contentPadding : Design.contentPaddings.Blanked
    (given? ⟨"contentPadding", "content_padding"⟩ a)
    (given? ⟨"contentPadding", "content_padding"⟩ b)

/-- Spacings with one style. -/
def Spacing.Alike (s r : Spacing) : Prop := r.resolve = s.resolve

theorem Spacing.Blanked.exists_ofFields {a b : Fields} {s : Spacing} (h : Blanked a b)
    (hs : ofFields a = .ok s) : ∃ r, ofFields b = .ok r ∧ s.Alike r := by
  have hs := ofFields_eq_ok.mp hs
  obtain ⟨density, hdensity, hdensities⟩ := h.density.exists_text hs.density
  obtain ⟨sectionGap, hsection, hsections⟩ := h.sectionGap.exists_text hs.sectionGap
  obtain ⟨itemGap, hitem, hitems⟩ := h.itemGap.exists_text hs.itemGap
  obtain ⟨padding, hpadding, hpaddings⟩ := h.contentPadding.exists_text hs.contentPadding
  obtain ⟨extra, hextra⟩ := h.beside.exists_extra hs.extra
  refine ⟨⟨density, sectionGap, itemGap, padding, extra⟩,
    ofFields_eq_ok.mpr ⟨hdensity, hsection, hitem, hpadding, hextra⟩, ?_⟩
  simp only [Spacing.Alike, Spacing.resolve, hdensities, hsections, hitems, hpaddings]

structure Tokens.Blanked (a b : Fields) : Prop where
  beside : AgreeBeside ["typography", "colors", "spacing"] a b
  typography : Option.Rel (Objects Typography.Blanked)
    ((word "typography").given? a) ((word "typography").given? b)
  colors : Option.Rel (Objects Colors.Blanked) ((word "colors").given? a) ((word "colors").given? b)
  spacing : Option.Rel (Objects Spacing.Blanked)
    ((word "spacing").given? a) ((word "spacing").given? b)

theorem Tokens.Blanked.exists_ofFields {a b : Fields} {t : Tokens} (h : Blanked a b)
    (ht : ofFields a = .ok t) : ∃ u, ofFields b = .ok u ∧ u.resolve = t.resolve := by
  have ht := ofFields_eq_ok.mp ht
  obtain ⟨typography, htypography, htypographies⟩ :=
    exists_optionalPart (R := Typography.Blanked) (S := Typography.Alike)
      (fun _ _ _ => Typography.Blanked.exists_ofFields) h.typography ht.typography
  obtain ⟨colors, hcolors, hpalettes⟩ :=
    exists_optionalPart (R := Colors.Blanked) (S := Colors.Alike)
      (fun _ _ _ => Colors.Blanked.exists_ofFields) h.colors ht.colors
  obtain ⟨spacing, hspacing, hspacings⟩ :=
    exists_optionalPart (R := Spacing.Blanked) (S := Spacing.Alike)
      (fun _ _ _ => Spacing.Blanked.exists_ofFields) h.spacing ht.spacing
  obtain ⟨extra, hextra⟩ := h.beside.exists_extra ht.extra
  have htype : (t.typography.getD {}).Alike (typography.getD {}) :=
    Option.Rel.getD htypographies fun _ => rfl
  have hcolor : (t.colors.getD {}).Alike (colors.getD {}) :=
    Option.Rel.getD hpalettes (.refl {})
  have hspace : (t.spacing.getD {}).Alike (spacing.getD {}) :=
    Option.Rel.getD hspacings rfl
  refine ⟨⟨typography, colors, spacing, extra⟩,
    ofFields_eq_ok.mpr ⟨htypography, hcolors, hspacing, hextra⟩, ?_⟩
  simp only [Tokens.resolve, Tokens.palette, htype _, hcolor.palette, hcolor.effects,
    show Spacing.resolve _ = Spacing.resolve _ from hspace]

/-! ### The whole -/

/-- A document, before it is read, without some of the names that are in no table. -/
structure Document.Blanked (a b : Fields) : Prop where
  beside : AgreeBeside ["layout", "tokens"] a b
  layout : Option.Rel (Objects Layout.Blanked) (Keyed.get? a "layout") (Keyed.get? b "layout")
  tokens : Option.Rel (Objects Tokens.Blanked) (Keyed.get? a "tokens") (Keyed.get? b "tokens")

/-- Documents that are compiled alike. -/
structure Document.SameLook (d e : Document) : Prop where
  version : e.version = d.version
  layout : d.layout.Alike e.layout
  tokens : e.tokens.resolve = d.tokens.resolve
  sections : e.sections = d.sections
  overrides : e.itemOverrides = d.itemOverrides

/-- A part that has to be there is read from related fields as a related one. -/
theorem Reading.exists_requiredPart {α : Type} {field name : String} {ofFields : Fields → Checked α}
    {R : Fields → Fields → Prop} {S : α → α → Prop} {a b : Fields} {x : α}
    (hR : ∀ u w x, R u w → ofFields u = .ok x → ∃ y, ofFields w = .ok y ∧ S x y)
    (h : Option.Rel (Objects R) (Keyed.get? a field) (Keyed.get? b field))
    (hx : (word field).required a (part name ofFields) = .ok x) :
    ∃ y, (word field).required b (part name ofFields) = .ok y ∧ S x y := by
  generalize hafter : Keyed.get? b field = after at h
  obtain ⟨v, hv, hread⟩ := required_word_eq_ok.mp hx
  rw [hv] at h
  cases h with
  | some hobjects =>
    cases hobjects with
    | mk hfields =>
      obtain ⟨y, hy, hxy⟩ := hR _ _ x hfields hread
      exact ⟨y, required_word_eq_ok.mpr ⟨_, hafter, hy⟩, hxy⟩

namespace Document.Blanked

variable {a b : Fields} {d : Document}

theorem exists_readFrom (h : Blanked a b) (hd : d.ReadFrom a) :
    ∃ e : Document, e.ReadFrom b ∧ d.SameLook e := by
  obtain ⟨layout, hlayout, hlayouts⟩ :=
    exists_requiredPart (R := Layout.Blanked) (S := Layout.Alike)
      (fun _ _ _ => Layout.Blanked.exists_ofFields) h.layout hd.layout
  obtain ⟨tokens, htokens, hdesign⟩ :=
    exists_requiredPart (R := Tokens.Blanked) (S := fun t u => u.resolve = t.resolve)
      (fun _ _ _ => Tokens.Blanked.exists_ofFields) h.tokens hd.tokens
  obtain ⟨extra, hextra⟩ := h.beside.exists_extra hd.extra
  refine ⟨{ d with layout := layout, tokens := tokens, extra := extra }, ?_,
    ⟨rfl, hlayouts, hdesign, rfl, rfl⟩⟩
  exact
    { version := (h.beside.required_eq (by decide) _).symm.trans hd.version
      layout := hlayout
      tokens := htokens
      sections := (h.beside.required_eq (by decide) _).symm.trans hd.sections
      itemOverrides :=
        (h.beside.optional_eq (by decide) (by decide) _ _).symm.trans hd.itemOverrides
      extra := hextra }

/-- A version that is written into both documents leaves them as they are. -/
theorem stamped (h : Blanked a b) (version : String) :
    Blanked (Migration.stamped version a) (Migration.stamped version b) := by
  have hother (fields : Fields) {name : String} (hne : "version" ≠ name) :
      Keyed.get? (Migration.stamped version fields) name = Keyed.get? fields name := by
    rw [Migration.stamped, Fields.get?_set, if_neg hne]
  refine ⟨h.beside.set "version" _, ?_, ?_⟩
  · rw [hother a (by decide), hother b (by decide)]
    exact h.layout
  · rw [hother a (by decide), hother b (by decide)]
    exact h.tokens

end Document.Blanked

namespace Compile

variable {stamp stamp' : Stamp} {draft other : Draft} {target resume : Value}
  {sections : SectionRegistry} {d e : Document}

theorem timeless_assembled_sameLook (h : d.SameLook e) (known : Target)
    (placed : List PlacedSection) :
    (assembled stamp known d placed).timeless = (assembled stamp' known e placed).timeless := by
  have hpagination : pagination known e.layout = pagination known d.layout := by
    cases known with
    | html => rfl
    | pdf => exact congrArg some h.layout.printed
  simp only [assembled, Ast.timeless, h.version, h.tokens, h.layout.page, hpagination]

/-- A current document and what is left of it are accepted, and compiled alike. -/
theorem exists_accepts_blanked {a b : Fields} (h : Document.Blanked a b)
    (hvalid : Validation.validate (.object a) = .ok d)
    (hcurrent : Version.normal d.version = Version.current) :
    ∃ t e, Accepts Migration.builtin (.object a) t ∧ Accepts Migration.builtin (.object b) e ∧
      t.SameLook e := by
  obtain ⟨hread, hsections⟩ := Validation.validate_eq_ok.mp hvalid
  obtain ⟨_, hobject, hd⟩ := Document.read_eq_ok.mp hread
  cases hobject
  obtain ⟨extra, ht⟩ := hd.stamped
  obtain ⟨e, he, hsame⟩ := (h.stamped "1.1.0").exists_readFrom ht
  have hversion : Value.field b "version" = .str d.version := by
    rw [Value.field, ← h.beside.get?_eq (by decide)]
    exact hd.field_version
  exact ⟨_, e, ⟨_, upToDate_of_current hd.field_version hcurrent, ht.validate rfl hsections⟩,
    ⟨_, upToDate_of_current hversion hcurrent, he.validate hsame.sections hsections⟩, hsame⟩

/-- **Unrecognised means absent**: a valid document of the current version compiles as it does
without any of the names that are in no table. -/
theorem compileDraft_blanked (hvalid : Validation.validate draft.value = .ok d)
    (hcurrent : Version.normal d.version = Version.current)
    (h : Objects Document.Blanked draft.value other.value) :
    (compileDraft stamp draft target resume Migration.builtin sections).result.map Ast.timeless =
      (compileDraft stamp' other target resume Migration.builtin sections).result.map
        Ast.timeless := by
  unfold compileDraft
  generalize draft.value = v at h hvalid
  generalize other.value = w at h
  cases h with
  | mk hfields =>
    obtain ⟨t, e, ht, he, hsame⟩ := exists_accepts_blanked hfields hvalid hcurrent
    cases htarget : Target.ofValue? target with
    | none => rw [result_compile_of_unknown htarget, result_compile_of_unknown htarget]
    | some known =>
      rw [result_compile_of_accepts htarget ht, result_compile_of_accepts htarget he,
        hsame.tokens, Placement.place_congr hsame.sections (by rw [hsame.overrides])]
      cases (Placement.place t t.tokens.resolve resume sections).result with
      | error f => rfl
      | ok placed => exact congrArg Except.ok (timeless_assembled_sameLook hsame known placed)

/-- A document with names that are in no table, in each of its parts. -/
def misnamed : Fields :=
  [("version", .str "1.1"),
   ("layout", .object
     [("type", .str "tabloid"), ("paperSize", .str "huge"), ("paper_size", .str "a4"),
      ("margins", .str "none")]),
   ("tokens", .object
     [("typography", .object
       [("font_family", .object [("heading", .str "comic"), ("body", .str "lato")]),
        ("fontSize", .str "tiny"), ("font_size", .str "small")]),
      ("colors", .object [("shadows", .str "neon")]),
      ("spacing", .object [("density", .str "airy"), ("itemGap", .str "lg")])]),
   ("sections", .list [entryOf "skills" true (.int 1) .main])]

/-- The same document without most of them, some being replaced by null. -/
def unnamed : Fields :=
  [("version", .str "1.1"),
   ("layout", .object [("type", .null), ("paper_size", .str "a4"), ("margins", .str "none")]),
   ("tokens", .object
     [("typography", .object
       [("font_family", .object [("body", .str "lato")]), ("font_size", .str "small")]),
      ("colors", .object [("shadows", .null)]),
      ("spacing", .object [("itemGap", .str "lg")])]),
   ("sections", .list [entryOf "skills" true (.int 1) .main])]

theorem misnamed_blanked : Document.Blanked misnamed unnamed where
  beside := .of_filter rfl
  layout := .some (.mk
    { beside := .of_filter rfl
      type := .null rfl
      paperSize := .uncovered rfl (by decide)
      margins := .same _
      columnDistribution := .same _ })
  tokens := .some (.mk
    { beside := .of_filter rfl
      typography := .some (.mk
        { beside := .of_filter rfl
          fontFamily := .some (.mk
            { beside := .of_filter rfl
              heading := .deleted rfl
              body := .same _ })
          fontSize := .uncovered rfl (by decide)
          headingStyle := .same _ })
      colors := .some (.mk
        { beside := .of_filter rfl
          borderRadius := .same _
          shadows := .null rfl })
      spacing := .some (.mk
        { beside := .of_filter rfl
          density := .deleted rfl
          sectionGap := .same _
          itemGap := .same _
          contentPadding := .same _ }) })

theorem compileDraft_blanked_misnamed :
    ∃ d, Validation.validate (.object misnamed) = .ok d ∧
      Version.normal d.version = Version.current ∧
      Objects Document.Blanked (.object misnamed) (.object unnamed) ∧
      (compileDraft ⟨"", ""⟩ (.raw (.object misnamed)) (.str "pdf") (.object Placement.skilled)
          Migration.builtin .builtin).result.map Ast.timeless =
        (compileDraft ⟨"", ""⟩ (.raw (.object unnamed)) (.str "pdf") (.object Placement.skilled)
          Migration.builtin .builtin).result.map Ast.timeless := by
  obtain ⟨d, hvalid, hcurrent⟩ : ∃ d, Validation.validate (Draft.raw (.object misnamed)).value =
      .ok d ∧ Version.normal d.version = Version.current := ⟨_, by rfl, by decide⟩
  exact ⟨d, hvalid, hcurrent, .mk misnamed_blanked,
    compileDraft_blanked hvalid hcurrent (.mk misnamed_blanked)⟩

/-- A layout that gives the size of its paper under both names, first as one of no table. -/
def sizedTwice : Fields :=
  [("type", .str "single-column"), ("paperSize", .str "huge"), ("paper_size", .str "letter")]

/-- A document of the current version with a layout and nothing else. -/
def ofLayout (layout : Fields) : Value :=
  .object
    [("version", .str "1.1.0"), ("layout", .object layout), ("tokens", .object []),
     ("sections", .list [])]

/-- Without the first size, which is in no table, the second one shows. -/
theorem sizedTwice_not_blank :
    Keyed.get? sizedTwice "paperSize" = some (.str "huge") ∧
      Keyed.get? Design.paperSizes.entries "huge" = none ∧
      ∃ x y, (compileDraft ⟨"", ""⟩ (.raw (ofLayout sizedTwice)) (.str "html") .null
          Migration.builtin .builtin).result = .ok x ∧
        (compileDraft ⟨"", ""⟩ (.raw (ofLayout (Keyed.erase sizedTwice "paperSize")))
          (.str "html") .null Migration.builtin .builtin).result = .ok y ∧
        x.timeless ≠ y.timeless := by
  have hboth : Accepts Migration.builtin (ofLayout sizedTwice) _ := ⟨_, by rfl, by rfl⟩
  have hsecond : Accepts Migration.builtin (ofLayout (Keyed.erase sizedTwice "paperSize")) _ :=
    ⟨_, by rfl, by rfl⟩
  refine ⟨rfl, rfl, _, _,
    compile_eq_ok.mpr ⟨.html, _, _, rfl, hboth, Placement.result_place_null .., rfl⟩,
    compile_eq_ok.mpr ⟨.html, _, _, rfl, hsecond, Placement.result_place_null .., rfl⟩, ?_⟩
  intro hsame
  have hwidth : (210 : Nat) = 216 := congrArg (fun a : Ast => a.page.width) hsame
  cases hwidth

end Compile

end Vitae
