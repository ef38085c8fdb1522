import Mathlib.Data.List.Forall2
import Mathlib.Tactic.MkIffOfInductiveProp
import Mathlib.Tactic.Simproc.ExistsAndEq
import Vitae.Document.Validation

/-! What a document that was read looks like.

Reading collects faults, and succeeds exactly when every field can be read. For
each part there is a structure, `ReadFrom`, that says field by field what was read
from which fields, and a lemma that a part is read exactly when it holds. What later
proofs know about reading they know through these: which fields count (`used?`),
that unknown fields keep their order (`unknownFields_eq_ok`), and that a section
has a name and a finite order (`Section.ReadFrom.finite`). -/

namespace Vitae

/-! ### Reading that succeeds -/

namespace Checked
variable {α β : Type}

theorem eq_ok_iff_exists {x : Checked α} {a : α} : x = .ok a ↔ ∃ b, x = .ok b ∧ b = a := by
  simp

/-- A function and its argument are read one after the other. -/
theorem exists_seq {f : Checked (α → β)} {x : Checked α} {p : β → Prop} :
    (∃ b, f <*> x = .ok b ∧ p b) ↔ ∃ g, f = .ok g ∧ ∃ a, x = .ok a ∧ p (g a) := by
  show (∃ b, both f x = .ok b ∧ p b) ↔ _
  cases f <;> cases x <;> simp [both]

theorem exists_map {f : α → β} {x : Checked α} {p : β → Prop} :
    (∃ b, f <$> x = .ok b ∧ p b) ↔ ∃ a, x = .ok a ∧ p (f a) := by
  show (∃ b, both (.ok f) x = .ok b ∧ p b) ↔ _
  cases x <;> simp [both]

theorem both_eq_ok {f : Checked (α → β)} {x : Checked α} {b : β} :
    both f x = .ok b ↔ ∃ g a, f = .ok g ∧ x = .ok a ∧ g a = b := by
  cases f <;> cases x <;> simp [both]

@[simp] theorem both_ok_eq_ok {f : α → β} {x : Checked α} {b : β} :
    both (.ok f) x = .ok b ↔ ∃ a, x = .ok a ∧ f a = b := by
  cases x <;> simp [both]

@[simp] theorem under_eq_ok {step : String} {x : Checked α} {a : α} :
    x.under step = .ok a ↔ x = .ok a := by
  cases x <;> simp [under]

@[simp] theorem fault_ne_ok {f : Fault} {a : α} : (fault f : Checked α) ≠ .ok a := by
  simp [fault]

/-- A list is read exactly when each of its elements is. -/
theorem each_eq_ok {read : α → Checked β} {values : List α} {found : List β} :
    each read values = .ok found ↔ List.Forall₂ (fun v x => read v = .ok x) values found := by
  induction values generalizing found with
  | nil => cases found <;> simp [each]
  | cons v rest ih =>
    simp only [each, both_eq_ok]
    constructor
    · intro hparts
      obtain ⟨_, _, ⟨_, x, hcons, hx, rfl⟩, hrest, rfl⟩ := hparts
      cases hcons
      exact .cons hx (ih.mp hrest)
    · intro h
      cases h with
      | cons hx hrest => exact ⟨_, _, ⟨_, _, rfl, hx, rfl⟩, ih.mpr hrest, rfl⟩

/-- The positions of items are for their faults only. -/
theorem items_eq_ok {read : Value → Checked α} {values : List Value} {found : List α} :
    items read values = .ok found ↔ List.Forall₂ (fun v x => read v = .ok x) values found := by
  have positions : values = (values.zipIdx).map Prod.fst := by simp
  rw [items, each_eq_ok]
  simp only [under_eq_ok]
  conv => rhs; rw [positions]
  rw [List.forall₂_map_left_iff]

/-- Whatever was read was read from one of the values. -/
theorem exists_of_mem {read : α → Checked β} {values : List α} {found : List β}
    (h : List.Forall₂ (fun v x => read v = .ok x) values found) {x : β} (hx : x ∈ found) :
    ∃ v ∈ values, read v = .ok x := by
  induction h with
  | nil => cases hx
  | cons hread _ ih =>
    rcases List.mem_cons.mp hx with rfl | hx
    · exact ⟨_, List.mem_cons_self .., hread⟩
    · obtain ⟨v, hv, hread⟩ := ih hx
      exact ⟨v, List.mem_cons_of_mem _ hv, hread⟩

end Checked

/-! ### Fields -/

/-- The fields of an object; none where there is no object. -/
def Value.entries (v : Value) : Fields := v.fields?.getD []

/-! ### Unknown fields -/

/-- Every key is a text. -/
def Fields.Named (fields : Fields) : Prop := ∀ f ∈ fields, ∃ name, f.1 = .str name

theorem Key.eq_str_of_beq {key : Key} {name : String} (h : (Key.str name == key) = true) :
    key = .str name := by
  rw [Key.beq_eq, beq_iff_eq] at h
  cases key <;> simp only [Key.identity, Key.ofNumber] at h
  case str => rw [Key.Identity.text.inj h]
  all_goals first | cases h | (split at h <;> cases h)

theorem readUnknown_eq_ok {field found : Key × Value} :
    readUnknown field = .ok found ↔ found = field ∧ ∃ name, field.1 = .str name := by
  obtain ⟨key, v⟩ := field
  cases key <;> simp [readUnknown, eq_comm (a := found)]

theorem each_readUnknown_eq_ok {fields found : Fields} :
    Checked.each readUnknown fields = .ok found ↔ found = fields ∧ fields.Named := by
  rw [Checked.each_eq_ok]
  simp only [readUnknown_eq_ok]
  constructor
  · intro h
    induction h with
    | nil => exact ⟨rfl, by simp [Fields.Named]⟩
    | cons hf _ ih =>
      obtain ⟨rfl, hname⟩ := hf
      exact ⟨by rw [ih.1], by simpa [Fields.Named, hname] using ih.2⟩
  · intro hparts
    obtain ⟨rfl, hnamed⟩ := hparts
    exact List.forall₂_same.mpr fun f hf => ⟨rfl, hnamed f hf⟩

/-- The unknown fields are the others, in their order. -/
theorem unknownFields_eq_ok {names : List FieldName} {fields extra : Fields} :
    unknownFields names fields = .ok extra ↔
      extra = fields.filter (fun f => !isKnown names fields f.1) ∧ extra.Named := by
  rw [unknownFields, each_readUnknown_eq_ok]
  constructor
  · intro hparts
    obtain ⟨rfl, h⟩ := hparts
    exact ⟨rfl, h⟩
  · intro hparts
    obtain ⟨rfl, h⟩ := hparts
    exact ⟨rfl, h⟩

theorem isKnown_eq_true {names : List FieldName} {fields : Fields} {key : Key} :
    isKnown names fields key = true ↔ ∃ n ∈ names, ∃ name, n.used? fields = some name ∧
      key = .str name := by
  simp only [isKnown, List.any_eq_true]
  constructor
  · intro hparts
    obtain ⟨n, hn, h⟩ := hparts
    cases hu : n.used? fields with
    | none => simp [hu] at h
    | some name =>
      simp only [hu, Option.map_some, Option.any_some] at h
      exact ⟨n, hn, name, hu, Key.eq_str_of_beq h⟩
  · intro hparts
    obtain ⟨n, hn, name, hu, rfl⟩ := hparts
    exact ⟨n, hn, by simp [hu]⟩

/-- Fields are read exactly when their keys are texts, whichever of them are known. -/
theorem unknownFields_isOk_iff {names : List FieldName} {fields : Fields} :
    (∃ extra, unknownFields names fields = .ok extra) ↔ fields.Named := by
  simp only [unknownFields_eq_ok, exists_eq_left]
  constructor
  · intro h f hf
    cases hk : isKnown names fields f.1 with
    | true =>
      obtain ⟨_, _, name, _, hname⟩ := isKnown_eq_true.mp hk
      exact ⟨name, hname⟩
    | false => exact h f (List.mem_filter.mpr ⟨hf, by simp [hk]⟩)
  · exact fun h f hf => h f (List.mem_filter.mp hf).1

/-! ### Known fields -/

open FieldName Reading

namespace FieldName
variable {α : Type} {n : FieldName} {fields : Fields} {read : Value → Checked α} {x : α}

theorem required_eq_ok :
    n.required fields read = .ok x ↔
      ∃ name, n.used? fields = some name ∧ read (Value.field fields name) = .ok x := by
  unfold required
  cases n.used? fields <;> simp

theorem optional_eq_ok {absent : α} :
    n.optional fields absent read = .ok x ↔
      (n.used? fields = none ∧ x = absent) ∨
        ∃ name, n.used? fields = some name ∧ read (Value.field fields name) = .ok x := by
  unfold optional
  cases n.used? fields <;> simp [eq_comm (a := x)]

end FieldName

theorem Reading.part_eq_ok {α : Type} {name : String} {read : Fields → Checked α} {v : Value}
    {x : α} : part name read v = .ok x ↔ ∃ fields, v = .object fields ∧ read fields = .ok x := by
  cases v <;> simp [part]

/-! ### Parts, field by field -/

/-- Each field of the layout is what one reading of these fields gives. -/
@[mk_iff]
structure Layout.ReadFrom (l : Layout) (fields : Fields) : Prop where
  type : optionalText (word "type") fields = .ok l.type
  paperSize : optionalText ⟨"paperSize", "paper_size"⟩ fields = .ok l.paperSize
  margins : optionalText (word "margins") fields = .ok l.margins
  columnDistribution :
    optionalText ⟨"columnDistribution", "column_distribution"⟩ fields = .ok l.columnDistribution
  pageBreakBehavior :
    optionalText ⟨"pageBreakBehavior", "page_break_behavior"⟩ fields = .ok l.pageBreakBehavior
  showPageNumbers :
    optional ⟨"showPageNumbers", "show_page_numbers"⟩ fields .absent flag = .ok l.showPageNumbers
  pageNumberPosition :
    optionalText ⟨"pageNumberPosition", "page_number_position"⟩ fields = .ok l.pageNumberPosition
  extra : unknownFields Layout.names fields = .ok l.extra

theorem Layout.ofFields_eq_ok {fields : Fields} {l : Layout} :
    Layout.ofFields fields = .ok l ↔ l.ReadFrom fields := by
  cases l
  rw [Layout.ofFields, Checked.eq_ok_iff_exists]
  simp only [Checked.exists_seq, Checked.exists_map]
  simp [Layout.readFrom_iff]

@[mk_iff]
structure FontFamily.ReadFrom (f : FontFamily) (fields : Fields) : Prop where
  heading : optionalText (word "heading") fields = .ok f.heading
  body : optionalText (word "body") fields = .ok f.body
  extra : unknownFields FontFamily.names fields = .ok f.extra

theorem FontFamily.ofFields_eq_ok {fields : Fields} {f : FontFamily} :
    FontFamily.ofFields fields = .ok f ↔ f.ReadFrom fields := by
  cases f
  rw [FontFamily.ofFields, Checked.eq_ok_iff_exists]
  simp only [Checked.exists_seq, Checked.exists_map]
  simp [FontFamily.readFrom_iff]

@[mk_iff]
structure Typography.ReadFrom (t : Typography) (fields : Fields) : Prop where
  fontFamily : optionalPart ⟨"fontFamily", "font_family"⟩ fields FontFamily.read = .ok t.fontFamily
  fontSize : optionalText ⟨"fontSize", "font_size"⟩ fields = .ok t.fontSize
  headingStyle : optionalText ⟨"headingStyle", "heading_style"⟩ fields = .ok t.headingStyle
  extra : unknownFields Typography.names fields = .ok t.extra

theorem Typography.ofFields_eq_ok {fields : Fields} {t : Typography} :
    Typography.ofFields fields = .ok t ↔ t.ReadFrom fields := by
  cases t
  rw [Typography.ofFields, Checked.eq_ok_iff_exists]
  simp only [Checked.exists_seq, Checked.exists_map]
  simp [Typography.readFrom_iff]

@[mk_iff]
structure TextColors.ReadFrom (c : TextColors) (fields : Fields) : Prop where
  primary : optionalText (word "primary") fields = .ok c.primary
  secondary : optionalText (word "secondary") fields = .ok c.secondary
  accent : optionalText (word "accent") fields = .ok c.accent
  extra : unknownFields TextColors.names fields = .ok c.extra

theorem TextColors.ofFields_eq_ok {fields : Fields} {c : TextColors} :
    TextColors.ofFields fields = .ok c ↔ c.ReadFrom fields := by
  cases c
  rw [TextColors.ofFields, Checked.eq_ok_iff_exists]
  simp only [Checked.exists_seq, Checked.exists_map]
  simp [TextColors.readFrom_iff]

@[mk_iff]
structure Palette.ReadFrom (p : Palette) (fields : Fields) : Prop where
  primary : optionalText (word "primary") fields = .ok p.primary
  secondary : optionalText (word "secondary") fields = .ok p.secondary
  background : optionalText (word "background") fields = .ok p.background
  surface : optionalText (word "surface") fields = .ok p.surface
  text : optionalPart (word "text") fields TextColors.read = .ok p.text
  border : optionalText (word "border") fields = .ok p.border
  divider : optionalText (word "divider") fields = .ok p.divider
  extra : unknownFields Palette.names fields = .ok p.extra

theorem Palette.ofFields_eq_ok {fields : Fields} {p : Palette} :
    Palette.ofFields fields = .ok p ↔ p.ReadFrom fields := by
  cases p
  rw [Palette.ofFields, Checked.eq_ok_iff_exists]
  simp only [Checked.exists_seq, Checked.exists_map]
  simp [Palette.readFrom_iff]

@[mk_iff]
structure Colors.ReadFrom (c : Colors) (fields : Fields) : Prop where
  colors : optionalPart (word "colors") fields Palette.read = .ok c.colors
  borderRadius : optionalText ⟨"borderRadius", "border_radius"⟩ fields = .ok c.borderRadius
  shadows : optionalText (word "shadows") fields = .ok c.shadows
  extra : unknownFields Colors.names fields = .ok c.extra

theorem Colors.ofFields_eq_ok {fields : Fields} {c : Colors} :
    Colors.ofFields fields = .ok c ↔ c.ReadFrom fields := by
  cases c
  rw [Colors.ofFields, Checked.eq_ok_iff_exists]
  simp only [Checked.exists_seq, Checked.exists_map]
  simp [Colors.readFrom_iff]

@[mk_iff]
structure Spacing.ReadFrom (s : Spacing) (fields : Fields) : Prop where
  density : optionalText (word "density") fields = .ok s.density
  sectionGap : optionalText ⟨"sectionGap", "section_gap"⟩ fields = .ok s.sectionGap
  itemGap : optionalText ⟨"itemGap", "item_gap"⟩ fields = .ok s.itemGap
  contentPadding : optionalText ⟨"contentPadding", "content_padding"⟩ fields = .ok s.contentPadding
  extra : unknownFields Spacing.names fields = .ok s.extra

theorem Spacing.ofFields_eq_ok {fields : Fields} {s : Spacing} :
    Spacing.ofFields fields = .ok s ↔ s.ReadFrom fields := by
  cases s
  rw [Spacing.ofFields, Checked.eq_ok_iff_exists]
  simp only [Checked.exists_seq, Checked.exists_map]
  simp [Spacing.readFrom_iff]

@[mk_iff]
structure Tokens.ReadFrom (t : Tokens) (fields : Fields) : Prop where
  typography : optionalPart (word "typography") fields Typography.read = .ok t.typography
  colors : optionalPart (word "colors") fields Colors.read = .ok t.colors
  spacing : optionalPart (word "spacing") fields Spacing.read = .ok t.spacing
  extra : unknownFields Tokens.names fields = .ok t.extra

theorem Tokens.ofFields_eq_ok {fields : Fields} {t : Tokens} :
    Tokens.ofFields fields = .ok t ↔ t.ReadFrom fields := by
  cases t
  rw [Tokens.ofFields, Checked.eq_ok_iff_exists]
  simp only [Checked.exists_seq, Checked.exists_map]
  simp [Tokens.readFrom_iff]

@[mk_iff]
structure Section.ReadFrom (s : Section) (fields : Fields) : Prop where
  id : required (word "id") fields Section.readId = .ok s.id
  visible : required (word "visible") fields Section.readVisible = .ok s.visible
  order : required (word "order") fields Section.readOrder = .ok s.order
  column : required (word "column") fields Section.readColumn = .ok s.column
  extra : unknownFields Section.names fields = .ok s.extra

theorem Section.ofFields_eq_ok {fields : Fields} {s : Section} :
    Section.ofFields fields = .ok s ↔ s.ReadFrom fields := by
  cases s
  rw [Section.ofFields, Checked.eq_ok_iff_exists]
  simp only [Checked.exists_seq, Checked.exists_map]
  simp [Section.readFrom_iff, -Bool.exists_bool]

@[mk_iff]
structure Document.ReadFrom (d : Document) (fields : Fields) : Prop where
  version : required (word "version") fields Document.readVersion = .ok d.version
  layout : required (word "layout") fields Layout.read = .ok d.layout
  tokens : required (word "tokens") fields Tokens.read = .ok d.tokens
  sections : required (word "sections") fields (Document.readList Section.read) = .ok d.sections
  itemOverrides :
    optional ⟨"itemOverrides", "item_overrides"⟩ fields none Document.readOverrides = .ok d.itemOverrides
  extra : unknownFields Document.names fields = .ok d.extra

theorem Document.ofFields_eq_ok {fields : Fields} {d : Document} :
    Document.ofFields fields = .ok d ↔ d.ReadFrom fields := by
  cases d
  rw [Document.ofFields, Checked.eq_ok_iff_exists]
  simp only [Checked.exists_seq, Checked.exists_map]
  simp [Document.readFrom_iff]

theorem Document.read_eq_ok {v : Value} {d : Document} :
    Document.read v = .ok d ↔ ∃ fields, v = .object fields ∧ d.ReadFrom fields := by
  rw [Document.read, part_eq_ok]
  simp only [Document.ofFields_eq_ok]

theorem Document.readList_eq_ok {α : Type} {read : Value → Checked α} {v : Value} {found : List α} :
    Document.readList read v = .ok found ↔
      ∃ items, v = .list items ∧ List.Forall₂ (fun v x => read v = .ok x) items found := by
  cases v <;> simp [Document.readList, Checked.items_eq_ok]

/-! ### Orders -/

theorem Number.place?_of_isFinite {n : Number} (h : n.isFinite = true) :
    ∃ q, n.place? = some (.at q) := by
  cases n with
  | int n => exact ⟨n, rfl⟩
  | float x =>
    cases x with
    | finite negative mantissa exponent => exact ⟨_, rfl⟩
    | infinite negative => cases h
    | nan => cases h

theorem Section.ReadFrom.finite {s : Section} {fields : Fields} (h : s.ReadFrom fields) :
    s.order.isFinite = true := by
  obtain ⟨_, _, horder⟩ := required_eq_ok.mp h.order
  unfold Section.readOrder at horder
  split at horder
  · split at horder
    · cases horder
      assumption
    · cases horder
  · cases horder

/-- Whatever was read, no section is without a place in the order. -/
theorem Document.ReadFrom.finite {d : Document} {fields : Fields} (h : d.ReadFrom fields) :
    ∀ s ∈ d.sections, s.order.isFinite = true := by
  obtain ⟨_, _, hsections⟩ := required_eq_ok.mp h.sections
  obtain ⟨items, _, hall⟩ := readList_eq_ok.mp hsections
  intro s hs
  obtain ⟨v, _, hread⟩ := Checked.exists_of_mem hall hs
  obtain ⟨_, _, hread⟩ := part_eq_ok.mp hread
  exact (Section.ofFields_eq_ok.mp hread).finite

end Vitae
