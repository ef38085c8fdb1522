import Mathlib.Algebra.Order.Ring.Rat
import Vitae.Proofs.RoundTrip
import Vitae.Proofs.Validation
import Vitae.Proofs.VersionText

/-! The grammar of documents.

Each part of a document is an object with a list of rules, one for each field that is known: what
the field may be given as (`Rule`). The rules of all parts are data, and reading succeeds on
exactly the values that keep to them (`Value.IsRecord`). Validation adds two rules across
sections. `Validation.validate_isOk_iff` puts them together: the valid values are those that have
the shape of a document. -/

namespace Vitae

/-! ### Reading that succeeds -/

namespace Checked
variable {α β : Type}

/-- Something was read. -/
def IsOk (x : Checked α) : Prop := ∃ a, x = .ok a

@[simp] theorem isOk_ok (a : α) : (ok a).IsOk := ⟨a, rfl⟩

@[simp] theorem not_isOk_fault (f : Fault) : ¬ (fault f : Checked α).IsOk := by
  simp [IsOk]

@[simp] theorem isOk_both {f : Checked (α → β)} {x : Checked α} :
    (both f x).IsOk ↔ f.IsOk ∧ x.IsOk := by
  cases f <;> cases x <;> simp [IsOk, both]

@[simp] theorem isOk_seq {f : Checked (α → β)} {x : Checked α} :
    (f <*> x).IsOk ↔ f.IsOk ∧ x.IsOk :=
  isOk_both

@[simp] theorem isOk_map {f : α → β} {x : Checked α} : (f <$> x).IsOk ↔ x.IsOk :=
  isOk_both.trans (and_iff_right (isOk_ok f))

@[simp] theorem isOk_under {step : String} {x : Checked α} : (x.under step).IsOk ↔ x.IsOk := by
  simp [IsOk]

theorem isOk_each {read : α → Checked β} {values : List α} :
    (each read values).IsOk ↔ ∀ v ∈ values, (read v).IsOk := by
  induction values with
  | nil => simp [each]
  | cons v rest ih => simp [each, ih]

theorem isOk_items {read : Value → Checked α} {values : List Value} :
    (items read values).IsOk ↔ ∀ v ∈ values, (read v).IsOk := by
  have hvalues : (values.zipIdx).map Prod.fst = values := List.zipIdx_map_fst 0 values
  rw [items, isOk_each, ← hvalues, List.forall_mem_map]
  simp only [isOk_under, hvalues]

end Checked

/-! ### Truth values -/

namespace Number

/-- The truth value that zero or one names. -/
def truth? (n : Number) : Option Bool :=
  if n.place? = some (.at 0) then some false
  else if n.place? = some (.at 1) then some true
  else none

theorem truth?_eq_some {n : Number} {b : Bool} :
    n.truth? = some b ↔
      (n.place? = some (.at 0) ∧ b = false) ∨ (n.place? = some (.at 1) ∧ b = true) := by
  unfold truth?
  split
  · rename_i hzero
    simp [hzero, eq_comm]
  · split
    · rename_i hone
      simp [hone, eq_comm]
    · simp_all

theorem place?_float {x : Binary64} {q : Rat} :
    (Number.float x).place? = some (.at q) ↔ x.toRat? = some q := by
  cases x with
  | finite negative mantissa exponent => simp [place?]
  | infinite negative => cases negative <;> simp [place?, Binary64.toRat?]
  | nan => simp [place?, Binary64.toRat?]

end Number

/-- The truth value that a value names: itself, a number that is zero or one, or one of a few
words in any case of their letters. -/
def Value.truth? : Value → Option Bool
  | .bool b => some b
  | .str s => Reading.flagOfWord? s
  | v => v.number?.bind Number.truth?

namespace Reading

theorem flagOfInt_eq_given {n : Int} {b : Bool} :
    flagOfInt n = .ok (.given b) ↔ (n = 0 ∧ b = false) ∨ (n = 1 ∧ b = true) := by
  unfold flagOfInt flagBound
  split
  · simp; omega
  · split
    · simp_all [eq_comm]
    · split <;> simp_all [eq_comm]

/-- A binary number names a truth value when it is a whole number that does. -/
theorem flagOfFloat_eq_given {x : Binary64} {b : Bool} :
    flagOfFloat x = .ok (.given b) ↔
      (x.toRat? = some 0 ∧ b = false) ∨ (x.toRat? = some 1 ∧ b = true) := by
  unfold flagOfFloat
  cases x.toRat? with
  | none => simp
  | some q =>
    simp only [Option.some.injEq]
    split
    · rename_i hout
      -- What is turned away, a fraction or the bound, is neither zero nor one.
      have hzero : q ≠ 0 := fun h => absurd (h ▸ hout) (by decide)
      have hone : q ≠ 1 := fun h => absurd (h ▸ hout) (by decide)
      simp [hzero, hone]
    · rename_i hin
      have hden : q.den = 1 := by simpa using (not_or.mp hin).1
      have hwhole : (q.num : Rat) = q := Rat.coe_int_num_of_den_eq_one hden
      rw [flagOfInt_eq_given, ← hwhole]
      norm_cast

theorem flag_eq_given {v : Value} {b : Bool} : flag v = .ok (.given b) ↔ v.truth? = some b := by
  cases v
  case int n =>
    simp [flag, flagOfInt_eq_given, Value.truth?, Value.number?, Number.truth?_eq_some,
      Number.place?]
  case float x =>
    simp [flag, flagOfFloat_eq_given, Value.truth?, Value.number?, Number.truth?_eq_some,
      Number.place?_float]
  case str s =>
    simp only [flag, Value.truth?]
    cases flagOfWord? s <;> simp
  all_goals simp [flag, Value.truth?, Value.number?]

theorem flag_eq_null {v : Value} : flag v = .ok .null ↔ v = .null := by
  cases v
  case int n =>
    simp only [flag, flagOfInt, reduceCtorEq, iff_false]
    repeat' split
    all_goals simp
  case float x =>
    simp only [flag, flagOfFloat, flagOfInt, reduceCtorEq, iff_false]
    repeat' split
    all_goals simp
  case str s => cases h : flagOfWord? s <;> simp [flag, h]
  all_goals simp [flag]

end Reading

/-! ### Rules -/

/-- What a field may be given as. -/
structure Rule where
  name : FieldName
  admits : Option Value → Prop

namespace Rule

/-- A field that may be left out. -/
def optional (name : FieldName) (shape : Value → Prop) : Rule :=
  ⟨name, fun given => ∀ v ∈ given, shape v⟩

/-- A field that has to be given. -/
def required (name : FieldName) (shape : Value → Prop) : Rule :=
  ⟨name, fun given => ∃ v ∈ given, shape v⟩

@[simp] theorem name_optional (n : FieldName) (shape : Value → Prop) :
    (optional n shape).name = n := rfl

@[simp] theorem name_required (n : FieldName) (shape : Value → Prop) :
    (required n shape).name = n := rfl

end Rule

namespace Value

/-- Null or a text. -/
def IsLeaf (v : Value) : Prop := v = .null ∨ ∃ s, v = .str s

/-- Null, or what names a truth value. -/
def IsFlag (v : Value) : Prop := v = .null ∨ ∃ b, v.truth? = some b

/-- An object whose fields keep to these rules. Any other field may hold anything; its key, as
all keys of an object, is a text. -/
def IsRecord (rules : List Rule) (v : Value) : Prop :=
  ∃ fields : Fields, v = .object fields ∧ (∀ r ∈ rules, r.admits (r.name.given? fields)) ∧
    fields.Named

/-- A list whose items have a shape. -/
def IsListOf (shape : Value → Prop) (v : Value) : Prop :=
  ∃ items, v = .list items ∧ ∀ item ∈ items, shape item

/-- An object whose values have a shape. -/
def IsMapOf (shape : Value → Prop) (v : Value) : Prop :=
  ∃ fields : Fields, v = .object fields ∧ fields.Named ∧ ∀ f ∈ fields, shape f.2

def IsObject (v : Value) : Prop := v.IsMapOf fun _ => True

end Value

/-- A field that may be left out, and is null or a text otherwise. -/
def Rule.leaf (name : FieldName) : Rule := optional name Value.IsLeaf

@[simp] theorem Rule.name_leaf (n : FieldName) : (leaf n).name = n := rfl

open FieldName Reading

section Reading

variable {α : Type} {n : FieldName} {fields : Fields} {read : Value → Checked α}
  {shape : Value → Prop}

theorem isOk_text {v : Value} : (text v).IsOk ↔ v.IsLeaf := by
  cases v <;> simp [text, Value.IsLeaf]

theorem isOk_flag {v : Value} : (flag v).IsOk ↔ v.IsFlag := by
  constructor
  · intro h
    obtain ⟨e, he⟩ := h
    cases e with
    | absent => exact absurd he flag_ne_absent
    | null => exact .inl (flag_eq_null.mp he)
    | given b => exact .inr ⟨b, flag_eq_given.mp he⟩
  · intro h
    rcases h with hnull | ⟨b, hb⟩
    · exact ⟨.null, flag_eq_null.mpr hnull⟩
    · exact ⟨.given b, flag_eq_given.mpr hb⟩

/-- What reads a shape reads a field that has it. -/
theorem isOk_optional {absent : α} (h : ∀ v, (read v).IsOk ↔ shape v) :
    (n.optional fields absent read).IsOk ↔
      (Rule.optional n shape).admits (n.given? fields) := by
  rw [given?_eq_map, FieldName.optional]
  cases n.used? fields <;> simp [Rule.optional, h]

theorem isOk_required (h : ∀ v, (read v).IsOk ↔ shape v) :
    (n.required fields read).IsOk ↔ (Rule.required n shape).admits (n.given? fields) := by
  rw [given?_eq_map, FieldName.required]
  cases n.used? fields <;> simp [Rule.required, h]

@[simp] theorem isOk_optionalText :
    (optionalText n fields).IsOk ↔ (Rule.leaf n).admits (n.given? fields) :=
  isOk_optional fun _ => isOk_text

theorem isOk_optionalPart (h : ∀ v, (read v).IsOk ↔ shape v) :
    (optionalPart n fields read).IsOk ↔ (Rule.optional n shape).admits (n.given? fields) := by
  have hpart (v : Value) : (optionalPart.both some (read v)).IsOk ↔ shape v := by
    rw [optionalPart.both, Checked.isOk_both, h]
    exact and_iff_right (Checked.isOk_ok _)
  exact isOk_optional hpart

@[simp] theorem isOk_unknownFields {names : List FieldName} :
    (unknownFields names fields).IsOk ↔ fields.Named :=
  unknownFields_isOk_iff

/-- A part can be read when it is an object that keeps to its rules. -/
theorem isOk_part {name : String} {ofFields : Fields → Checked α} {v : Value} {rules : List Rule}
    (h : ∀ fields, (ofFields fields).IsOk ↔
      (∀ r ∈ rules, r.admits (r.name.given? fields)) ∧ fields.Named) :
    (part name ofFields v).IsOk ↔ v.IsRecord rules := by
  cases v <;> simp [part, Value.IsRecord, h]

end Reading

/-! ### Parts -/

def Layout.rules : List Rule :=
  [.leaf (word "type"), .leaf ⟨"paperSize", "paper_size"⟩, .leaf (word "margins"),
   .leaf ⟨"columnDistribution", "column_distribution"⟩,
   .leaf ⟨"pageBreakBehavior", "page_break_behavior"⟩,
   .optional ⟨"showPageNumbers", "show_page_numbers"⟩ Value.IsFlag,
   .leaf ⟨"pageNumberPosition", "page_number_position"⟩]

theorem Layout.isOk_read {v : Value} : (Layout.read v).IsOk ↔ v.IsRecord rules :=
  isOk_part fun fields => by
    simp [Layout.ofFields, rules, and_assoc, isOk_optional fun _ => isOk_flag]

def FontFamily.rules : List Rule := [.leaf (word "heading"), .leaf (word "body")]

theorem FontFamily.isOk_read {v : Value} : (FontFamily.read v).IsOk ↔ v.IsRecord rules :=
  isOk_part fun fields => by simp [FontFamily.ofFields, rules, and_assoc]

def Typography.rules : List Rule :=
  [.optional ⟨"fontFamily", "font_family"⟩ (Value.IsRecord FontFamily.rules),
   .leaf ⟨"fontSize", "font_size"⟩, .leaf ⟨"headingStyle", "heading_style"⟩]

theorem Typography.isOk_read {v : Value} : (Typography.read v).IsOk ↔ v.IsRecord rules :=
  isOk_part fun fields => by
    simp [Typography.ofFields, rules, and_assoc, isOk_optionalPart fun _ => FontFamily.isOk_read]

def TextColors.rules : List Rule :=
  [.leaf (word "primary"), .leaf (word "secondary"), .leaf (word "accent")]

theorem TextColors.isOk_read {v : Value} : (TextColors.read v).IsOk ↔ v.IsRecord rules :=
  isOk_part fun fields => by simp [TextColors.ofFields, rules, and_assoc]

def Palette.rules : List Rule :=
  [.leaf (word "primary"), .leaf (word "secondary"), .leaf (word "background"),
   .leaf (word "surface"), .optional (word "text") (Value.IsRecord TextColors.rules),
   .leaf (word "border"), .leaf (word "divider")]

theorem Palette.isOk_read {v : Value} : (Palette.read v).IsOk ↔ v.IsRecord rules :=
  isOk_part fun fields => by
    simp [Palette.ofFields, rules, and_assoc, isOk_optionalPart fun _ => TextColors.isOk_read]

def Colors.rules : List Rule :=
  [.optional (word "colors") (Value.IsRecord Palette.rules),
   .leaf ⟨"borderRadius", "border_radius"⟩, .leaf (word "shadows")]

theorem Colors.isOk_read {v : Value} : (Colors.read v).IsOk ↔ v.IsRecord rules :=
  isOk_part fun fields => by
    simp [Colors.ofFields, rules, and_assoc, isOk_optionalPart fun _ => Palette.isOk_read]

def Spacing.rules : List Rule :=
  [.leaf (word "density"), .leaf ⟨"sectionGap", "section_gap"⟩, .leaf ⟨"itemGap", "item_gap"⟩,
   .leaf ⟨"contentPadding", "content_padding"⟩]

theorem Spacing.isOk_read {v : Value} : (Spacing.read v).IsOk ↔ v.IsRecord rules :=
  isOk_part fun fields => by simp [Spacing.ofFields, rules, and_assoc]

def Tokens.rules : List Rule :=
  [.optional (word "typography") (Value.IsRecord Typography.rules),
   .optional (word "colors") (Value.IsRecord Colors.rules),
   .optional (word "spacing") (Value.IsRecord Spacing.rules)]

theorem Tokens.isOk_read {v : Value} : (Tokens.read v).IsOk ↔ v.IsRecord rules :=
  isOk_part fun fields => by
    simp [Tokens.ofFields, rules, and_assoc, isOk_optionalPart fun _ => Typography.isOk_read,
      isOk_optionalPart fun _ => Colors.isOk_read, isOk_optionalPart fun _ => Spacing.isOk_read]

/-! ### Sections -/

namespace Value

/-- A text that is not empty. -/
def IsName (v : Value) : Prop := ∃ s, v = .str s ∧ s ≠ ""

/-- A truth value itself, and nothing that names one. -/
def IsTruth (v : Value) : Prop := ∃ b, v = .bool b

/-- A whole number, or a binary one that is finite. -/
def IsOrder (v : Value) : Prop := (∃ n, v = .int n) ∨ ∃ x, v = .float x ∧ x.isFinite = true

def IsColumn (v : Value) : Prop := ∃ name ∈ ["full-width", "main", "sidebar"], v = .str name

end Value

namespace Section

def rules : List Rule :=
  [.required (word "id") Value.IsName, .required (word "visible") Value.IsTruth,
   .required (word "order") Value.IsOrder, .required (word "column") Value.IsColumn]

theorem isOk_readId {v : Value} : (readId v).IsOk ↔ v.IsName := by
  simp [Checked.IsOk, readId_eq_ok, Value.IsName]

theorem isOk_readVisible {v : Value} : (readVisible v).IsOk ↔ v.IsTruth := by
  simp only [Checked.IsOk, readVisible_eq_ok, Value.IsTruth]

theorem isOk_readOrder {v : Value} : (readOrder v).IsOk ↔ v.IsOrder := by
  cases v <;> simp [readOrder, Value.number?, Value.IsOrder, Number.isFinite]
  case float x => by_cases h : x.isFinite = true <;> simp [h]

theorem isOk_readColumn {v : Value} : (readColumn v).IsOk ↔ v.IsColumn := by
  simp only [Checked.IsOk, readColumn_eq_ok, Value.IsColumn, List.exists_mem_cons_iff]
  constructor
  · intro h
    obtain ⟨c, rfl⟩ := h
    cases c <;> simp [Column.name]
  · intro h
    rcases h with rfl | rfl | rfl | ⟨_, hnil, _⟩
    · exact ⟨.fullWidth, rfl⟩
    · exact ⟨.main, rfl⟩
    · exact ⟨.sidebar, rfl⟩
    · cases hnil

theorem isOk_read {v : Value} : (Section.read v).IsOk ↔ v.IsRecord rules :=
  isOk_part fun fields => by
    simp [Section.ofFields, rules, and_assoc, isOk_required fun _ => isOk_readId,
      isOk_required fun _ => isOk_readVisible, isOk_required fun _ => isOk_readOrder,
      isOk_required fun _ => isOk_readColumn]

/-- The name of a section that was read is the one that it was given. -/
theorem field_id {v : Value} {s : Section} (h : Section.read v = .ok s) :
    Value.field v.entries "id" = .str s.id := by
  obtain ⟨fields, rfl, hfields⟩ := part_eq_ok.mp h
  obtain ⟨given, hgiven, hread⟩ := required_eq_ok_iff.mp (Section.ofFields_eq_ok.mp hfields).id
  rw [given?_word] at hgiven
  show (Keyed.get? fields "id").getD .null = .str s.id
  rw [hgiven, (readId_eq_ok.mp hread).1]
  rfl

end Section

/-! ### Documents -/

namespace Document

/-- The sections that a value lists. -/
def listedSections (v : Value) : List Value :=
  match Value.field v.entries "sections" with
  | .list items => items
  | _ => []

def rules : List Rule :=
  [.required (word "version") fun v => ∃ s, v = .str s ∧ s.toList ∈ Version.grammar,
   .required (word "layout") (Value.IsRecord Layout.rules),
   .required (word "tokens") (Value.IsRecord Tokens.rules),
   .required (word "sections") (Value.IsListOf (Value.IsRecord Section.rules)),
   .optional ⟨"itemOverrides", "item_overrides"⟩
     (Value.IsMapOf (Value.IsListOf Value.IsObject))]

/-- The shape of a document: its parts keep to their rules, there are at most fifty sections, and
no two of them have one name. -/
structure Shape (v : Value) : Prop where
  record : v.IsRecord rules
  few : (listedSections v).length ≤ 50
  distinct : ((listedSections v).map fun item => Value.field item.entries "id").Nodup

theorem isOk_readVersion {v : Value} :
    (readVersion v).IsOk ↔ ∃ s, v = .str s ∧ s.toList ∈ Version.grammar := by
  simp only [Checked.IsOk, readVersion_eq_ok, Version.isAdmitted_iff]

theorem isOk_readList {α : Type} {read : Value → Checked α} {shape : Value → Prop}
    (h : ∀ v, (read v).IsOk ↔ shape v) {v : Value} :
    (readList read v).IsOk ↔ v.IsListOf shape := by
  cases v <;> simp [readList, Value.IsListOf, Checked.isOk_items, h]

theorem isOk_entries {α : Type} {read : Value → Checked α} {fields : Fields} :
    (Checked.each (readEntry read) fields).IsOk ↔
      fields.Named ∧ ∀ f ∈ fields, (read f.2).IsOk := by
  have hentry (f : Key × Value) :
      (readEntry read f).IsOk ↔ (∃ name, f.1 = .str name) ∧ (read f.2).IsOk := by
    simp [Checked.IsOk, readEntry_eq_ok]
  simp only [Checked.isOk_each, hentry, forall_and, Fields.Named]

theorem isOk_readObject {v : Value} : (readObject v).IsOk ↔ v.IsObject := by
  cases v <;> simp [readObject, Value.IsObject, Value.IsMapOf, isOk_entries]

theorem isOk_readOverrides {v : Value} :
    (readOverrides v).IsOk ↔ v.IsMapOf (Value.IsListOf Value.IsObject) := by
  have hitems (v : Value) : (readList readObject v).IsOk ↔ v.IsListOf Value.IsObject :=
    isOk_readList fun _ => isOk_readObject
  cases v <;> simp [readOverrides, Value.IsMapOf, isOk_entries, hitems]

theorem isOk_read {v : Value} : (Document.read v).IsOk ↔ v.IsRecord rules :=
  isOk_part fun fields => by
    simp [Document.ofFields, rules, and_assoc, isOk_required fun _ => isOk_readVersion,
      isOk_required fun _ => Layout.isOk_read, isOk_required fun _ => Tokens.isOk_read,
      isOk_required fun _ => isOk_readList fun _ => Section.isOk_read,
      isOk_optional fun _ => isOk_readOverrides]

/-- The sections of a document that was read are those that its value lists. -/
theorem forall₂_listedSections {v : Value} {d : Document} (h : Document.read v = .ok d) :
    List.Forall₂ (fun item s => Section.read item = .ok s) (listedSections v) d.sections := by
  obtain ⟨fields, rfl, hd⟩ := read_eq_ok.mp h
  obtain ⟨given, hgiven, hread⟩ := required_eq_ok_iff.mp hd.sections
  obtain ⟨items, rfl, hitems⟩ := readList_eq_ok.mp hread
  rw [given?_word] at hgiven
  have hlisted : listedSections (.object fields) = items := by
    simp [listedSections, Value.entries, Value.fields?, Value.field, hgiven]
  rw [hlisted]
  exact hitems

theorem map_field_id {v : Value} {d : Document} (h : Document.read v = .ok d) :
    (listedSections v).map (fun item => Value.field item.entries "id") =
      d.sections.map fun s => .str s.id := by
  rw [← List.forall₂_eq_eq_eq, List.forall₂_map_left_iff, List.forall₂_map_right_iff]
  exact (forall₂_listedSections h).imp fun _ _ => Section.field_id

end Document

/-- **The valid values are exactly those that have the shape of a document.** -/
theorem Validation.validate_isOk_iff (v : Value) :
    (∃ d, validate v = .ok d) ↔ Document.Shape v := by
  have hacross {d : Document} (hread : Document.read v = .ok d) :
      sectionErrors (idsOf d) = [] ↔ (Document.listedSections v).length ≤ 50 ∧
        ((Document.listedSections v).map fun item => Value.field item.entries "id").Nodup := by
    have hnames : d.sections.map (fun s => Value.str s.id) =
        (d.sections.map Section.id).map Value.str := by simp
    rw [sectionErrors_eq_nil, (Document.forall₂_listedSections hread).length_eq,
      Document.map_field_id hread, hnames,
      List.nodup_map_iff fun _ _ => Value.str.inj]
    rfl
  simp only [validate_eq_ok]
  constructor
  · intro h
    obtain ⟨d, hread, herrors⟩ := h
    obtain ⟨hfew, hdistinct⟩ := (hacross hread).mp herrors
    exact ⟨Document.isOk_read.mp ⟨d, hread⟩, hfew, hdistinct⟩
  · intro h
    obtain ⟨d, hread⟩ := Document.isOk_read.mpr h.record
    exact ⟨d, hread, (hacross hread).mpr ⟨h.few, h.distinct⟩⟩

end Vitae
