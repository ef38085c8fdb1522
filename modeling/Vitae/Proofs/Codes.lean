import Vitae.Proofs.Faults
import Vitae.Proofs.Parts
import Vitae.Proofs.Repeats

/-! The codes of findings.

Findings go by eight codes (`Validation.stableCodes`), so that callers can tell them apart. One
fault of a field has no code among them: a value of a kind that can name a truth value, but names
none. Only one field is read so leniently. `Checked.stray` collects the faults without a stable
code, and field by field there are none but at that one; `Validation.codes_stable_iff` says so of
all findings. -/

namespace Vitae

/-! ### Values whose keys are texts -/

/-- In every object that stands in a value, the keys are texts, as in all data formats. -/
def Value.NamedThroughout (v : Value) : Prop :=
  ∀ fields : Fields, Within (.object fields) v → fields.Named

namespace Value

theorem namedThroughout_plain {v : Value} (h : v.isKey = true) : NamedThroughout v := by
  intro fields hfields
  cases hfields with
  | self | item | field => cases h

theorem namedThroughout_list {items : List Value} :
    NamedThroughout (.list items) ↔ ∀ v ∈ items, NamedThroughout v := by
  constructor
  · exact fun h v hv fields hfields => h fields (.item hv hfields)
  · intro h fields hfields
    cases hfields with
    | item hv hfields => exact h _ hv fields hfields

theorem namedThroughout_object {fields : Fields} :
    NamedThroughout (.object fields) ↔ fields.Named ∧ ∀ e ∈ fields, NamedThroughout e.2 := by
  constructor
  · exact fun h => ⟨h fields .self, fun e he inner hinner => h inner (.field he hinner)⟩
  · intro h inner hinner
    cases hinner with
    | self => exact h.1
    | field he hinner => exact h.2 _ he inner hinner

theorem NamedThroughout.named {fields : Fields} (h : NamedThroughout (.object fields)) :
    fields.Named :=
  (namedThroughout_object.mp h).1

/-- What a field is given as has texts for keys too. -/
theorem NamedThroughout.given {fields : Fields} {n : FieldName} {v : Value}
    (h : NamedThroughout (.object fields)) (hv : n.given? fields = some v) : v.NamedThroughout := by
  obtain ⟨name, hname⟩ : ∃ name : String, Keyed.get? fields name = some v := by
    rcases Option.or_eq_some_iff.mp hv with hcamel | ⟨_, hsnake⟩
    · exact ⟨_, hcamel⟩
    · exact ⟨_, hsnake⟩
  obtain ⟨_, hmem, _⟩ := Keyed.mem_of_get? hname
  exact (namedThroughout_object.mp h).2 _ hmem

end Value

/-! ### Faults without a stable code -/

/-- The codes that findings go by. -/
def Validation.stableCodes : List String :=
  ["missing", "invalid_version", "invalid_enum", "empty_value", "invalid_type", "non_finite",
   "too_many_sections", "duplicate_section_id"]

open Validation

/-- Two faults have a code of their own, the names under which reading reports them. -/
theorem Fault.code_mem_stableCodes {f : Fault} :
    f.code ∈ stableCodes ↔ f ≠ .unclearFlag ∧ f ≠ .notName := by
  cases f <;> simp [code, stableCodes]

namespace Checked

variable {α β : Type}

/-- The faults that were found and have no stable code. -/
def stray (x : Checked α) : List PlacedFault := x.faults.filter fun p => p.fault.code ∉ stableCodes

@[simp] theorem stray_ok (x : α) : (ok x).stray = [] := rfl

@[simp] theorem stray_fault (f : Fault) :
    (fault f : Checked α).stray = if f.code ∈ stableCodes then [] else [⟨[], f⟩] := by
  by_cases h : f.code ∈ stableCodes <;> simp [stray, h]

@[simp] theorem stray_both (f : Checked (α → β)) (x : Checked α) :
    (both f x).stray = f.stray ++ x.stray := by
  simp [stray, faults_both]

@[simp] theorem stray_seq (f : Checked (α → β)) (x : Checked α) :
    (f <*> x).stray = f.stray ++ x.stray :=
  stray_both f x

@[simp] theorem stray_map (f : α → β) (x : Checked α) : (f <$> x).stray = x.stray :=
  stray_both (.ok f) x

@[simp] theorem stray_under (step : String) (x : Checked α) :
    (x.under step).stray = x.stray.map (PlacedFault.under step) := by
  simp only [stray, faults_under, List.filter_map]
  rfl

theorem stray_each {read : α → Checked β} {values : List α}
    (h : ∀ v ∈ values, (read v).stray = []) : (each read values).stray = [] := by
  induction values with
  | nil => rfl
  | cons v rest ih =>
    obtain ⟨hv, hrest⟩ := List.forall_mem_cons.mp h
    simp [each, hv, ih hrest]

theorem stray_items {read : Value → Checked α} {values : List Value}
    (h : ∀ v ∈ values, (read v).stray = []) : (items read values).stray = [] := by
  refine stray_each fun v hv => ?_
  have hmem : v.1 ∈ values := (List.mem_zipIdx hv).2.2 ▸ List.getElem_mem _
  simp [h _ hmem]

end Checked

/-- What is read by it never has a fault without a stable code. -/
def Steady {α : Type} (read : Value → Checked α) : Prop :=
  ∀ v : Value, v.NamedThroughout → (read v).stray = []

open FieldName Reading

section Fields

variable {α : Type} {n : FieldName} {fields : Fields} {read : Value → Checked α}

theorem stray_optional (hread : Steady read) (h : (Value.object fields).NamedThroughout)
    (absent : α) : (n.optional fields absent read).stray = [] := by
  have hgiven (v : Value) (hv : n.given? fields = some v) := hread v (h.given hv)
  rw [given?_eq_map] at hgiven
  rw [FieldName.optional]
  cases hused : n.used? fields with
  | none => rfl
  | some name => simp [hgiven _ (by rw [hused]; rfl)]

theorem stray_required (hread : Steady read) (h : (Value.object fields).NamedThroughout) :
    (n.required fields read).stray = [] := by
  have hgiven (v : Value) (hv : n.given? fields = some v) := hread v (h.given hv)
  rw [given?_eq_map] at hgiven
  rw [FieldName.required]
  cases hused : n.used? fields with
  | none => simp [Fault.code_mem_stableCodes]
  | some name => simp [hgiven _ (by rw [hused]; rfl)]

theorem stray_unknownFields (names : List FieldName) (h : fields.Named) :
    (unknownFields names fields).stray = [] := by
  obtain ⟨extra, hextra⟩ := unknownFields_of_named names h
  rw [hextra]
  rfl

theorem steady_text : Steady text := by
  intro v _
  cases v <;> simp [text, Fault.code_mem_stableCodes]

@[simp] theorem stray_optionalText (n : FieldName) (h : (Value.object fields).NamedThroughout) :
    (optionalText n fields).stray = [] :=
  stray_optional steady_text h _

theorem stray_optionalPart (n : FieldName) (hread : Steady read)
    (h : (Value.object fields).NamedThroughout) : (optionalPart n fields read).stray = [] := by
  refine stray_optional (fun v hv => ?_) h none
  rw [optionalPart.both, Checked.stray_both, hread v hv]
  rfl

/-- A part is read without stray faults when its fields are. -/
theorem steady_part (name : String) {ofFields : Fields → Checked α}
    (h : ∀ fields : Fields, (Value.object fields).NamedThroughout → (ofFields fields).stray = []) :
    Steady (part name ofFields) := by
  intro v hv
  cases v with
  | object fields => exact h fields hv
  | _ => simp [part, Fault.code_mem_stableCodes]

end Fields

/-! ### Parts -/

theorem FontFamily.steady_read : Steady FontFamily.read :=
  steady_part _ fun fields h => by simp [ofFields, stray_unknownFields, h, h.named]

theorem Typography.steady_read : Steady Typography.read :=
  steady_part _ fun fields h => by
    simp [ofFields, stray_unknownFields, stray_optionalPart _ FontFamily.steady_read, h, h.named]

theorem TextColors.steady_read : Steady TextColors.read :=
  steady_part _ fun fields h => by simp [ofFields, stray_unknownFields, h, h.named]

theorem Palette.steady_read : Steady Palette.read :=
  steady_part _ fun fields h => by
    simp [ofFields, stray_unknownFields, stray_optionalPart _ TextColors.steady_read, h, h.named]

theorem Colors.steady_read : Steady Colors.read :=
  steady_part _ fun fields h => by
    simp [ofFields, stray_unknownFields, stray_optionalPart _ Palette.steady_read, h, h.named]

theorem Spacing.steady_read : Steady Spacing.read :=
  steady_part _ fun fields h => by simp [ofFields, stray_unknownFields, h, h.named]

theorem Tokens.steady_read : Steady Tokens.read :=
  steady_part _ fun fields h => by
    simp [ofFields, stray_unknownFields, stray_optionalPart _ Typography.steady_read,
      stray_optionalPart _ Colors.steady_read, stray_optionalPart _ Spacing.steady_read, h, h.named]

namespace Section

theorem steady_readId : Steady readId := by
  intro v _
  unfold readId
  repeat' split
  all_goals simp [Fault.code_mem_stableCodes]

theorem steady_readVisible : Steady readVisible := by
  intro v _
  unfold readVisible
  split <;> simp [Fault.code_mem_stableCodes]

theorem steady_readOrder : Steady readOrder := by
  intro v _
  unfold readOrder
  repeat' split
  all_goals simp [Fault.code_mem_stableCodes]

theorem steady_readColumn : Steady readColumn := by
  intro v _
  unfold readColumn
  repeat' split
  all_goals simp [Fault.code_mem_stableCodes]

theorem steady_read : Steady Section.read :=
  steady_part _ fun fields h => by
    simp [ofFields, stray_unknownFields, stray_required, steady_readId, steady_readVisible,
      steady_readOrder, steady_readColumn, h, h.named]

end Section

namespace Document

theorem steady_readVersion : Steady readVersion := by
  intro v _
  unfold readVersion
  repeat' split
  all_goals simp [Fault.code_mem_stableCodes]

theorem steady_readList {α : Type} {read : Value → Checked α} (hread : Steady read) :
    Steady (readList read) := by
  intro v hv
  cases v with
  | list items =>
    have hitems := Value.namedThroughout_list.mp hv
    exact Checked.stray_items fun item hitem => hread item (hitems item hitem)
  | _ => simp [readList, Fault.code_mem_stableCodes]

theorem stray_entries {α : Type} {read : Value → Checked α} {fields : Fields} (hread : Steady read)
    (h : (Value.object fields).NamedThroughout) :
    (Checked.each (readEntry read) fields).stray = [] := by
  obtain ⟨hnamed, hparts⟩ := Value.namedThroughout_object.mp h
  refine Checked.stray_each fun e he => ?_
  obtain ⟨name, hname⟩ := hnamed e he
  simp [readEntry, readName, hname, hread _ (hparts e he)]

theorem steady_readObject : Steady readObject := by
  intro v hv
  cases v with
  | object fields =>
    have hok : Steady (Checked.ok (α := Value)) := fun _ _ => rfl
    simp [readObject, stray_entries hok hv]
  | _ => simp [readObject, Fault.code_mem_stableCodes]

theorem steady_readOverrides : Steady readOverrides := by
  intro v hv
  cases v with
  | object fields =>
    simp [readOverrides, stray_entries (steady_readList steady_readObject) hv]
  | _ => simp [readOverrides, Fault.code_mem_stableCodes]

end Document

/-! ### The one field that is read leniently -/

/-- A value of a kind that can name a truth value, a text or a whole number of 64 bits, names
none. -/
def Value.IsUnclear (v : Value) : Prop :=
  v.truth? = none ∧
    ((∃ s, v = .str s) ∨ (∃ n : Int, v = .int n ∧ -flagBound ≤ n ∧ n < flagBound) ∨
      ∃ (x : Binary64) (n : Int), v = .float x ∧ x.toRat? = some (n : Rat) ∧
        -flagBound < n ∧ n < flagBound)

namespace Reading

theorem flagOfInt_eq_unclear {n : Int} :
    flagOfInt n = .fault .unclearFlag ↔
      (-flagBound ≤ n ∧ n < flagBound) ∧ ¬ (n = 0 ∨ n = 1) := by
  unfold flagOfInt flagBound Checked.fault
  split
  · simp
    omega
  · split
    · simp_all
    · split
      · simp_all
      · simp
        omega

theorem flagOfFloat_eq_unclear {x : Binary64} :
    flagOfFloat x = .fault .unclearFlag ↔
      ∃ n : Int, x.toRat? = some (n : Rat) ∧ (-flagBound < n ∧ n < flagBound) ∧
        ¬ (n = 0 ∨ n = 1) := by
  unfold flagOfFloat
  cases x.toRat? with
  | none => simp [Checked.fault]
  | some q =>
    simp only [Option.some.injEq]
    split
    · rename_i hout
      -- What is turned away, a fraction or the bound, is no whole number within it.
      have hnone : ¬ ∃ n : Int, q = n ∧ (-flagBound < n ∧ n < flagBound) ∧ ¬ (n = 0 ∨ n = 1) := by
        intro h
        obtain ⟨n, rfl, ⟨hlow, _⟩, _⟩ := h
        rcases hout with hden | hbound
        · exact hden rfl
        · exact absurd (by exact_mod_cast hbound) (Int.ne_of_gt hlow)
      exact iff_of_false (by simp [Checked.fault]) hnone
    · rename_i hin
      obtain ⟨hden, hbound⟩ := not_or.mp hin
      have hwhole : (q.num : Rat) = q := Rat.coe_int_num_of_den_eq_one (not_not.mp hden)
      have hnum : q.num ≠ -flagBound := by
        intro hnum
        rw [← hwhole, hnum] at hbound
        exact hbound (Int.cast_neg _)
      rw [flagOfInt_eq_unclear]
      constructor
      · intro h
        exact ⟨q.num, hwhole.symm, ⟨by omega, h.1.2⟩, h.2⟩
      · intro h
        obtain ⟨n, hn, ⟨hlow, hhigh⟩, hrest⟩ := h
        have hsame : q.num = n := by rw [hn]; rfl
        rw [hsame]
        exact ⟨⟨Int.le_of_lt hlow, hhigh⟩, hrest⟩

/-- A value that names no truth value is turned away as unclear when it is of a kind that could. -/
theorem flag_eq_unclear {v : Value} : flag v = .fault .unclearFlag ↔ v.IsUnclear := by
  have hnone {n : Number} : n.truth? = none ↔
      ¬ (n.place? = some (.at 0) ∨ n.place? = some (.at 1)) := by
    unfold Number.truth?
    grind
  cases v
  case int n =>
    simp [flag, flagOfInt_eq_unclear, Value.IsUnclear, Value.truth?, Value.number?, hnone,
      Number.place?, and_comm]
  case float x =>
    have hnamed {n : Int} (hn : x.toRat? = some (n : Rat)) :
        (x.toRat? = some 0 ∨ x.toRat? = some 1) ↔ (n = 0 ∨ n = 1) := by
      rw [hn, Option.some.injEq, Option.some.injEq]
      norm_cast
    simp only [flag, flagOfFloat_eq_unclear, Value.IsUnclear, Value.truth?, Value.number?,
      Option.bind_some, hnone, Number.place?_float]
    constructor
    · intro h
      obtain ⟨n, hn, hbound, hrest⟩ := h
      exact ⟨(hnamed hn).not.mpr hrest, .inr (.inr ⟨x, n, rfl, hn, hbound⟩)⟩
    · intro h
      obtain ⟨hrest, ⟨_, htext⟩ | ⟨_, hint, _⟩ | ⟨y, n, hfloat, hn, hbound⟩⟩ := h
      · cases htext
      · cases hint
      · cases hfloat
        exact ⟨n, hn, hbound, (hnamed hn).not.mp hrest⟩
  case str s =>
    simp only [flag, Value.IsUnclear, Value.truth?]
    cases flagOfWord? s <;> simp [Checked.fault]
  all_goals simp [flag, Value.IsUnclear, Value.truth?, Value.number?, Checked.fault]

/-- A value is read, is of no kind that can name a truth value, or is unclear. -/
theorem flag_cases (v : Value) :
    (∃ e, flag v = .ok e) ∨ flag v = .fault .notFlag ∨ flag v = .fault .unclearFlag := by
  have hint (n : Int) : (∃ e, flagOfInt n = .ok e) ∨ flagOfInt n = .fault .notFlag ∨
      flagOfInt n = .fault .unclearFlag := by
    unfold flagOfInt
    repeat' split
    all_goals simp
  cases v
  case int n => exact hint n
  case float x =>
    simp only [flag, flagOfFloat]
    repeat' split
    case isFalse => exact hint _
    all_goals simp
  case str s =>
    simp only [flag]
    split <;> simp
  all_goals simp [flag]

/-- Nothing else about such a value is without a stable code. -/
theorem stray_flag_cases (v : Value) :
    (flag v).stray = [] ∧ ¬ v.IsUnclear ∨
      (flag v).stray = [⟨[], .unclearFlag⟩] ∧ v.IsUnclear := by
  rw [← flag_eq_unclear]
  rcases flag_cases v with ⟨e, hok⟩ | hodd | hunclear
  · rw [hok]
    exact .inl ⟨rfl, nofun⟩
  · rw [hodd]
    exact .inl ⟨rfl, nofun⟩
  · rw [hunclear]
    exact .inr ⟨rfl, rfl⟩

end Reading

namespace Layout

/-- The names of the field that is read leniently. -/
def pageNumbersName : FieldName := ⟨"showPageNumbers", "show_page_numbers"⟩

/-- What a layout says under this name about whether pages show their numbers is unclear. -/
def UnclearUnder (name : String) (layout : Fields) : Prop :=
  pageNumbersName.used? layout = some name ∧ (Value.field layout name).IsUnclear

theorem stray_cases {layout : Fields} (h : (Value.object layout).NamedThroughout) :
    (ofFields layout).stray = [] ∧ (∀ name, ¬ UnclearUnder name layout) ∨
      ∃ name, UnclearUnder name layout ∧ (ofFields layout).stray = [⟨[name], .unclearFlag⟩] := by
  have hflag : (ofFields layout).stray = (pageNumbersName.optional layout .absent flag).stray := by
    simp [ofFields, stray_unknownFields, pageNumbersName, h, h.named]
  rw [hflag, FieldName.optional]
  cases hused : pageNumbersName.used? layout with
  | none => exact .inl ⟨rfl, by simp [UnclearUnder, hused]⟩
  | some name =>
    simp only [Checked.stray_under]
    rcases stray_flag_cases (Value.field layout name) with ⟨hnil, hclear⟩ | ⟨hone, hunclear⟩
    · exact .inl ⟨by rw [hnil]; rfl, by simp [UnclearUnder, hused, hclear]⟩
    · exact .inr ⟨name, ⟨hused, hunclear⟩, by rw [hone]; rfl⟩

end Layout

namespace Document

theorem stray_ofFields {fields : Fields} (h : (Value.object fields).NamedThroughout) :
    (ofFields fields).stray = ((word "layout").required fields Layout.read).stray := by
  simp [ofFields, stray_unknownFields, stray_required, stray_optional, steady_readVersion,
    Tokens.steady_read, steady_readList, Section.steady_read, steady_readOverrides, h, h.named]

theorem stray_of_layout {fields layout : Fields} (h : (Value.object fields).NamedThroughout)
    (hlayout : Keyed.get? fields "layout" = some (.object layout)) :
    (ofFields fields).stray = (Layout.ofFields layout).stray.map (PlacedFault.under "layout") := by
  rw [stray_ofFields h, required_of_camel (n := word "layout") hlayout, Checked.stray_under]
  rfl

theorem stray_of_no_layout {fields : Fields} (h : (Value.object fields).NamedThroughout)
    (hlayout : ∀ layout : Fields, Keyed.get? fields "layout" ≠ some (.object layout)) :
    (ofFields fields).stray = [] := by
  rw [stray_ofFields h]
  cases hgiven : Keyed.get? fields "layout" with
  | none =>
    have hused : (word "layout").used? fields = none :=
      FieldName.used?_eq_none.mpr ⟨by simp [Keyed.has, hgiven], by simp [Keyed.has, hgiven]⟩
    simp [FieldName.required, hused, Fault.code_mem_stableCodes]
  | some given =>
    rw [required_of_camel (n := word "layout") hgiven]
    cases given with
    | object layout => exact absurd hgiven (hlayout layout)
    | _ => simp [Layout.read, part, Fault.code_mem_stableCodes]

/-- The layout of a value is unclear, under this name, about whether pages show their numbers. -/
def UnclearUnder (name : String) (v : Value) : Prop :=
  ∃ fields layout : Fields, v = .object fields ∧
    Keyed.get? fields "layout" = some (.object layout) ∧ Layout.UnclearUnder name layout

/-- There is one place at most for a fault without a stable code. -/
theorem stray_cases {v : Value} (h : v.NamedThroughout) :
    (Document.read v).stray = [] ∧ (∀ name, ¬ UnclearUnder name v) ∨
      ∃ name, UnclearUnder name v ∧
        (Document.read v).stray = [⟨["layout", name], .unclearFlag⟩] := by
  by_cases hobject : ∃ fields layout : Fields, v = .object fields ∧
      Keyed.get? fields "layout" = some (.object layout)
  · obtain ⟨fields, layout, rfl, hlayout⟩ := hobject
    show (ofFields fields).stray = [] ∧ _ ∨ ∃ name, _ ∧ (ofFields fields).stray = _
    rw [stray_of_layout h hlayout]
    have hnamed : (Value.object layout).NamedThroughout :=
      h.given (n := word "layout") (by rw [given?_word, hlayout])
    rcases Layout.stray_cases hnamed with ⟨hnil, hclear⟩ | ⟨name, hunclear, hone⟩
    · refine .inl ⟨by rw [hnil]; rfl, fun name hname => ?_⟩
      obtain ⟨_, _, hfields, hother, hunclear⟩ := hname
      cases hfields
      cases hlayout.symm.trans hother
      exact hclear name hunclear
    · exact .inr ⟨name, ⟨fields, layout, rfl, hlayout, hunclear⟩, by rw [hone]; rfl⟩
  · refine .inl ⟨?_, fun name hname => ?_⟩
    · cases v with
      | object fields =>
        exact stray_of_no_layout h fun layout hlayout => hobject ⟨fields, layout, rfl, hlayout⟩
      | _ => simp [Document.read, part, Fault.code_mem_stableCodes]
    · obtain ⟨fields, layout, hfields, hlayout, _⟩ := hname
      exact hobject ⟨fields, layout, hfields, hlayout⟩

end Document

namespace Validation

/-- The finding on what a layout says under this name. -/
def unclearAt (name : String) : FieldError :=
  ⟨"layout." ++ name, "Input should be a valid boolean, unable to interpret input", "bool_parsing"⟩

theorem stable_sectionErrors {ids : List (Option String)} {e : FieldError}
    (h : e ∈ sectionErrors ids) : e.code ∈ stableCodes := by
  rcases List.mem_append.mp h with hmany | hduplicate
  · rw [code_of_mem_tooMany hmany]
    decide
  · rw [code_of_mem_duplicates hduplicate]
    decide

/-- Findings without a stable code are those on stray faults. -/
theorem mem_findings_stray {v : Value} {e : FieldError} :
    e ∈ findings (validate v) ∧ e.code ∉ stableCodes ↔
      ∃ p ∈ (Document.read v).stray, FieldError.ofFault p = e := by
  rw [findings_validate, List.mem_append]
  constructor
  · rintro ⟨hown | hsections, hcode⟩
    · obtain ⟨p, hp, rfl⟩ := List.mem_map.mp hown
      exact ⟨p, List.mem_filter.mpr ⟨hp, decide_eq_true hcode⟩, rfl⟩
    · exact absurd (stable_sectionErrors hsections) hcode
  · rintro ⟨p, hp, rfl⟩
    obtain ⟨hp, hcode⟩ := List.mem_filter.mp hp
    exact ⟨.inl (List.mem_map_of_mem hp), of_decide_eq_true hcode⟩

/-- **Which findings go by a stable code**: all of them, unless a layout is unclear about whether
pages show their numbers, and then all but the finding on that. -/
theorem codes_stable_iff {v : Value} (h : v.NamedThroughout) :
    ((∀ e ∈ findings (validate v), e.code ∈ stableCodes) ↔
        ∀ name, ¬ Document.UnclearUnder name v) ∧
      ∀ e ∈ findings (validate v), e.code ∉ stableCodes →
        ∃ name, Document.UnclearUnder name v ∧ e = unclearAt name := by
  have hstray (e : FieldError) := mem_findings_stray (v := v) (e := e)
  rcases Document.stray_cases h with ⟨hnil, hclear⟩ | ⟨name, hunclear, hone⟩
  · simp only [hnil, List.not_mem_nil, false_and, exists_false, iff_false, not_and, not_not]
      at hstray
    exact ⟨iff_of_true hstray hclear, fun e he hcode => absurd (hstray e he) hcode⟩
  · simp only [hone, List.mem_singleton, exists_eq_left] at hstray
    constructor
    · refine iff_of_false (fun hall => ?_) fun hclear => hclear name hunclear
      obtain ⟨he, hcode⟩ := (hstray _).mpr rfl
      exact hcode (hall _ he)
    · intro e he hcode
      exact ⟨name, hunclear, ((hstray e).mp ⟨he, hcode⟩).symm⟩

/-- A document that says neither yes nor no to page numbers. -/
def undecided : Value :=
  .object
    [("version", .str "1.1.0"), ("layout", .object [("showPageNumbers", .int 2)]),
     ("tokens", .object []), ("sections", .list [])]

theorem undecided_namedThroughout : undecided.NamedThroughout := by
  have hversion : (Value.str "1.1.0").NamedThroughout := Value.namedThroughout_plain rfl
  have hnumber : (Value.int 2).NamedThroughout := Value.namedThroughout_plain rfl
  simp [undecided, Value.namedThroughout_object, Value.namedThroughout_list, Fields.Named, hversion,
    hnumber]

theorem codes_stable_iff_undecided :
    undecided.NamedThroughout ∧
      ((∀ e ∈ findings (validate undecided), e.code ∈ stableCodes) ↔
        ∀ name, ¬ Document.UnclearUnder name undecided) ∧
      ∀ e ∈ findings (validate undecided), e.code ∉ stableCodes →
        ∃ name, Document.UnclearUnder name undecided ∧ e = unclearAt name :=
  ⟨undecided_namedThroughout, codes_stable_iff undecided_namedThroughout⟩

/-- The name under which reading reports a fault gets through to the caller. -/
theorem undecided_not_stable :
    ∃ e ∈ findings (validate undecided),
      e.code = Fault.unclearFlag.kind ∧ e.code ∉ stableCodes := by
  have hfindings : findings (validate undecided) = [unclearAt "showPageNumbers"] := by rfl
  rw [hfindings]
  exact ⟨_, List.mem_singleton_self _, rfl, by decide⟩

end Validation

end Vitae
