import Vitae.Proofs.Faults
import Vitae.Proofs.Slots
import Vitae.Proofs.Upgrade

/-! What a document reads as once it is up to date.

The steps change fields, and reading sees fields by their two names alone
(`FieldName.optional_congr`). So each step is described by its look-ups, and a document that
could be read before a step can be read after it, with what the step replaced in place. -/

namespace Vitae

/-! ### Fields that are set, erased and filled in -/

namespace Fields

theorem get?_set (fields : Fields) (name other : String) (v : Value) :
    Keyed.get? (Keyed.set fields (.str name) v) (.str other) =
      if name = other then some v else Keyed.get? fields (.str other) := by
  simpa using Keyed.get?_set fields (.str name) (.str other) v

theorem get?_erase (fields : Fields) (name other : String) :
    Keyed.get? (Keyed.erase fields (.str name)) (.str other) =
      if name = other then none else Keyed.get? fields (.str other) := by
  simpa using Keyed.get?_erase fields (.str name) (.str other)

theorem get?_setDefault (fields : Fields) (name other : String) (v : Value) :
    Keyed.get? (Keyed.setDefault fields (.str name) v) (.str other) =
      if name = other then some ((Keyed.get? fields (.str name)).getD v)
      else Keyed.get? fields (.str other) := by
  simpa using Keyed.get?_setDefault fields (.str name) (.str other) v

variable {fields : Fields}

theorem Named.set (h : fields.Named) (name : String) (v : Value) :
    Named (Keyed.set fields (.str name) v) := by
  induction fields with
  | nil => simp [Named, Keyed.set]
  | cons f rest ih =>
    have hrest : Named rest := fun g hg => h g (List.mem_cons_of_mem _ hg)
    have hf := h f (List.mem_cons_self ..)
    by_cases hname : (f.1 == Key.str name) = true
    · simpa [Named, Keyed.set, hname, hf] using hrest
    · simpa [Named, Keyed.set, hname, hf] using ih hrest

theorem Named.erase (h : fields.Named) (name : String) :
    Named (Keyed.erase fields (.str name)) :=
  fun f hf => h f (List.mem_filter.mp hf).1

theorem Named.setDefault (h : fields.Named) (name : String) (v : Value) :
    Named (Keyed.setDefault fields (.str name) v) := by
  unfold Keyed.setDefault
  split
  · exact h
  · exact h.set name v

end Fields

/-! ### What reading sees -/

namespace FieldName

@[simp] theorem word_camel (name : String) : (word name).camel = name := rfl

@[simp] theorem word_snake (name : String) : (word name).snake = name := rfl

variable {α : Type} {n : FieldName} {fields others : Fields}

theorem field_congr {name : String} (hused : n.used? fields = some name)
    (hcamel : Keyed.get? fields n.camel = Keyed.get? others n.camel)
    (hsnake : Keyed.get? fields n.snake = Keyed.get? others n.snake) :
    Value.field fields name = Value.field others name := by
  unfold used? at hused
  split at hused
  · cases hused
    rw [Value.field, Value.field, hcamel]
  · split at hused
    · cases hused
      rw [Value.field, Value.field, hsnake]
    · cases hused

/-- Fields that agree under both names of a field are read alike. -/
theorem optional_congr (hcamel : Keyed.get? fields n.camel = Keyed.get? others n.camel)
    (hsnake : Keyed.get? fields n.snake = Keyed.get? others n.snake) (absent : α)
    (read : Value → Checked α) :
    n.optional fields absent read = n.optional others absent read := by
  unfold optional
  rw [used?_congr hcamel hsnake]
  split
  · rfl
  · rename_i name hused
    rw [← used?_congr hcamel hsnake] at hused
    rw [field_congr hused hcamel hsnake]

theorem required_congr (hcamel : Keyed.get? fields n.camel = Keyed.get? others n.camel)
    (hsnake : Keyed.get? fields n.snake = Keyed.get? others n.snake) (read : Value → Checked α) :
    n.required fields read = n.required others read := by
  unfold required
  rw [used?_congr hcamel hsnake]
  split
  · rfl
  · rename_i name hused
    rw [← used?_congr hcamel hsnake] at hused
    rw [field_congr hused hcamel hsnake]

/-- The first name wins. -/
theorem optional_of_camel {v : Value} (h : Keyed.get? fields n.camel = some v) (absent : α)
    (read : Value → Checked α) : n.optional fields absent read = (read v).under n.camel := by
  simp [optional, used?, Keyed.has, Value.field, h]

theorem required_of_camel {v : Value} (h : Keyed.get? fields n.camel = some v)
    (read : Value → Checked α) : n.required fields read = (read v).under n.camel := by
  simp [required, used?, Keyed.has, Value.field, h]

theorem optional_word {name : String} {v : Value} (h : Keyed.get? fields name = some v) (absent : α)
    (read : Value → Checked α) : (word name).optional fields absent read = (read v).under name :=
  optional_of_camel (n := word name) h absent read

/-- Setting another field changes nothing about the one that is read. -/
theorem optional_set_of_ne {name : String} (hcamel : name ≠ n.camel) (hsnake : name ≠ n.snake)
    (v : Value) (absent : α) (read : Value → Checked α) :
    n.optional (Keyed.set fields name v) absent read = n.optional fields absent read :=
  optional_congr (by rw [Fields.get?_set, if_neg hcamel]) (by rw [Fields.get?_set, if_neg hsnake])
    absent read

theorem optional_erase_of_ne {name : String} (hcamel : name ≠ n.camel) (hsnake : name ≠ n.snake)
    (absent : α) (read : Value → Checked α) :
    n.optional (Keyed.erase fields name) absent read = n.optional fields absent read :=
  optional_congr (by rw [Fields.get?_erase, if_neg hcamel])
    (by rw [Fields.get?_erase, if_neg hsnake]) absent read

theorem optional_setDefault_of_ne {name : String} (hcamel : name ≠ n.camel)
    (hsnake : name ≠ n.snake) (v : Value) (absent : α) (read : Value → Checked α) :
    n.optional (Keyed.setDefault fields name v) absent read = n.optional fields absent read :=
  optional_congr (by rw [Fields.get?_setDefault, if_neg hcamel])
    (by rw [Fields.get?_setDefault, if_neg hsnake]) absent read

/-- A field of one word that is read is there. -/
theorem required_word_eq_ok {name : String} {read : Value → Checked α} {x : α} :
    (word name).required fields read = .ok x ↔
      ∃ v, Keyed.get? fields name = some v ∧ read v = .ok x := by
  rw [required_eq_ok_iff, given?_word]

theorem optional_word_eq_ok {name : String} {absent : α} {read : Value → Checked α} {x : α} :
    (word name).optional fields absent read = .ok x ↔
      (Keyed.get? fields name = none ∧ x = absent) ∨
        ∃ v, Keyed.get? fields name = some v ∧ read v = .ok x := by
  rw [optional_eq_ok_iff, given?_word]

end FieldName

theorem unknownFields_of_named (names : List FieldName) {fields : Fields} (h : fields.Named) :
    ∃ extra, unknownFields names fields = .ok extra :=
  unknownFields_isOk_iff.mpr h

theorem named_of_unknownFields {names : List FieldName} {fields extra : Fields}
    (h : unknownFields names fields = .ok extra) : fields.Named :=
  unknownFields_isOk_iff.mp ⟨extra, h⟩

open FieldName Reading

/-! ### Tokens -/

/-- The density under its present name. -/
def Spacing.present (s : Spacing) : Spacing :=
  if s.density = .given "normal" then { s with density := .given "comfortable" } else s

def Tokens.present (t : Tokens) : Tokens := { t with spacing := t.spacing.map Spacing.present }

theorem Spacing.ReadFrom.setDensity {s : Spacing} {fields : Fields} (h : s.ReadFrom fields) :
    ∃ extra, ({ s with density := .given "comfortable", extra := extra } : Spacing).ReadFrom
      (Keyed.set fields "density" (.str "comfortable")) := by
  obtain ⟨extra, hextra⟩ := unknownFields_of_named Spacing.names
    ((named_of_unknownFields h.extra).set "density" (.str "comfortable"))
  have hdensity : optionalText (word "density")
      (Keyed.set fields "density" (.str "comfortable")) = .ok (.given "comfortable") := by
    rw [optionalText, optional_word (Keyed.get?_set_self ..)]
    rfl
  exact ⟨extra,
    { density := hdensity
      sectionGap := (optional_set_of_ne (by decide) (by decide) ..).trans h.sectionGap
      itemGap := (optional_set_of_ne (by decide) (by decide) ..).trans h.itemGap
      contentPadding := (optional_set_of_ne (by decide) (by decide) ..).trans h.contentPadding
      extra := hextra }⟩

theorem Tokens.ReadFrom.setSpacing {t : Tokens} {fields inner : Fields} {s : Spacing}
    (h : t.ReadFrom fields) (hs : s.ReadFrom inner) :
    ∃ extra, ({ t with spacing := some s, extra := extra } : Tokens).ReadFrom
      (Keyed.set fields "spacing" (.object inner)) := by
  obtain ⟨extra, hextra⟩ := unknownFields_of_named Tokens.names
    ((named_of_unknownFields h.extra).set "spacing" (.object inner))
  have hread : Spacing.read (.object inner) = .ok s := Spacing.ofFields_eq_ok.mpr hs
  have hspacing : optionalPart (word "spacing") (Keyed.set fields "spacing" (.object inner))
      Spacing.read = .ok (some s) := by
    rw [optionalPart, optional_word (Keyed.get?_set_self ..), hread]
    rfl
  exact ⟨extra,
    { typography := (optional_set_of_ne (by decide) (by decide) ..).trans h.typography
      colors := (optional_set_of_ne (by decide) (by decide) ..).trans h.colors
      spacing := hspacing
      extra := hextra }⟩

/-- A text that is read is the text that was there. -/
theorem Reading.text_eq_given {v : Value} {name : String} :
    text v = .ok (.given name) ↔ v = .str name := by
  cases v <;> simp [text]

theorem Reading.eq_given_iff {fields : Fields} {e : Entry String} {name given : String}
    (h : optionalText (word name) fields = .ok e) :
    e = .given given ↔ Keyed.get? fields name = some (.str given) := by
  constructor
  · intro he
    rw [he] at h
    rcases optional_word_eq_ok.mp h with ⟨_, habsent⟩ | ⟨v, hv, htext⟩
    · cases habsent
    · rw [hv, text_eq_given.mp htext]
  · intro hv
    rw [optionalText, optional_word hv] at h
    exact (Checked.ok.inj h).symm

/-- The density that is renamed is the one that was read. -/
theorem Tokens.ReadFrom.presentDensity_of_spacing {t : Tokens} {fields inner : Fields}
    {s : Spacing} (h : t.ReadFrom fields) (hinner : Keyed.get? fields "spacing" = some (.object inner))
    (hs : s.ReadFrom inner) (hsome : t.spacing = some s) :
    ∃ present : Tokens, present.ReadFrom (Migration.presentDensity fields) ∧
      present.resolve = t.present.resolve := by
  have hnormal : s.density = .given "normal" ↔
      Keyed.get? inner "density" = some (.str "normal") := eq_given_iff hs.density
  by_cases hdensity : s.density = .given "normal"
  · have hset : Migration.presentDensity fields = Keyed.set fields "spacing"
        (.object (Keyed.set inner "density" (.str "comfortable"))) := by
      simp [Migration.presentDensity, hinner, hnormal.mp hdensity]
    obtain ⟨innerExtra, hspacing⟩ := hs.setDensity
    obtain ⟨extra, hfields⟩ := h.setSpacing hspacing
    refine ⟨_, hset ▸ hfields, ?_⟩
    simp [Tokens.present, hsome, Spacing.present, hdensity, Tokens.resolve, Tokens.palette,
      Spacing.resolve]
  · have hother := hnormal.not.mp hdensity
    have hsame : Migration.presentDensity fields = fields := by
      simp only [Migration.presentDensity, hinner]
    refine ⟨t, hsame.symm ▸ h, ?_⟩
    simp [Tokens.present, hsome, Spacing.present, hdensity, Tokens.resolve, Tokens.palette]

theorem Tokens.ReadFrom.presentDensity {t : Tokens} {fields : Fields} (h : t.ReadFrom fields) :
    ∃ present : Tokens, present.ReadFrom (Migration.presentDensity fields) ∧
      present.resolve = t.present.resolve := by
  rcases optional_word_eq_ok.mp h.spacing with ⟨hnone, hspacing⟩ | ⟨v, hv, hread⟩
  · refine ⟨t, ?_, ?_⟩
    · simpa [Migration.presentDensity, hnone] using h
    · simp [Tokens.present, hspacing, Tokens.resolve, Tokens.palette]
  · obtain ⟨s, hs, hsome⟩ := Checked.both_ok_eq_ok.mp hread
    obtain ⟨inner, rfl, hs⟩ := part_eq_ok.mp hs
    exact h.presentDensity_of_spacing hv (Spacing.ofFields_eq_ok.mp hs) hsome.symm

/-! ### Layouts -/

namespace FieldName

/-- What a field has once it was filled in: its value under the first name, or the default. -/
def kept {α : Type} (n : FieldName) (fields : Fields) (e fallback : Entry α) : Entry α :=
  if Keyed.has fields n.camel then e else fallback

theorem optional_filled {α : Type} {n : FieldName} {fields others : Fields} {x fallback absent : α}
    {read : Value → Checked α} {v : Value} (hfallback : read v = .ok fallback)
    (h : n.optional fields absent read = .ok x)
    (hothers : Keyed.get? others n.camel = some ((Keyed.get? fields n.camel).getD v)) :
    n.optional others absent read = .ok (if Keyed.has fields n.camel then x else fallback) := by
  rw [optional_of_camel hothers, Checked.under_eq_ok]
  unfold Keyed.has
  cases hfound : Keyed.get? fields n.camel with
  | none => exact hfallback
  | some found =>
    rw [optional_of_camel hfound, Checked.under_eq_ok] at h
    exact h

end FieldName

/-- A layout that was filled in, as it is read. -/
def Layout.filled (l : Layout) (fields : Fields) : Layout :=
  { l with
    columnDistribution := FieldName.kept ⟨"columnDistribution", "column_distribution"⟩ fields
      l.columnDistribution (.given "70-30")
    showPageNumbers := FieldName.kept ⟨"showPageNumbers", "show_page_numbers"⟩ fields
      l.showPageNumbers (.given false)
    pageNumberPosition := FieldName.kept ⟨"pageNumberPosition", "page_number_position"⟩ fields
      l.pageNumberPosition (.given "bottom-center") }

/-- The fields that a layout is filled in with. -/
def filledNames : List String := ["columnDistribution", "showPageNumbers", "pageNumberPosition"]

theorem withDefaults_eq (fields : Fields) :
    Migration.withDefaults fields =
      Keyed.setDefault (Keyed.setDefault (Keyed.setDefault fields
        "columnDistribution" (.str "70-30")) "showPageNumbers" (.bool false))
        "pageNumberPosition" (.str "bottom-center") := rfl

theorem optional_withDefaults_of_ne {α : Type} {n : FieldName} {fields : Fields}
    (h : ∀ name ∈ filledNames, name ≠ n.camel ∧ name ≠ n.snake) (absent : α)
    (read : Value → Checked α) :
    n.optional (Migration.withDefaults fields) absent read = n.optional fields absent read := by
  simp only [filledNames, List.forall_mem_cons] at h
  obtain ⟨⟨hcamel₁, hsnake₁⟩, ⟨hcamel₂, hsnake₂⟩, ⟨hcamel₃, hsnake₃⟩, _⟩ := h
  rw [withDefaults_eq, optional_setDefault_of_ne hcamel₃ hsnake₃,
    optional_setDefault_of_ne hcamel₂ hsnake₂, optional_setDefault_of_ne hcamel₁ hsnake₁]

theorem named_withDefaults {fields : Fields} (h : fields.Named) :
    (Migration.withDefaults fields).Named := by
  rw [withDefaults_eq]
  apply Fields.Named.setDefault
  apply Fields.Named.setDefault
  apply Fields.Named.setDefault
  exact h

/-- Each field of the layout but the paper size is what one reading of these fields gives. -/
structure Layout.ReadButSize (l : Layout) (fields : Fields) : Prop where
  type : optionalText (word "type") fields = .ok l.type
  margins : optionalText (word "margins") fields = .ok l.margins
  columnDistribution :
    optionalText ⟨"columnDistribution", "column_distribution"⟩ fields = .ok l.columnDistribution
  pageBreakBehavior :
    optionalText ⟨"pageBreakBehavior", "page_break_behavior"⟩ fields = .ok l.pageBreakBehavior
  showPageNumbers :
    optional ⟨"showPageNumbers", "show_page_numbers"⟩ fields .absent flag = .ok l.showPageNumbers
  pageNumberPosition :
    optionalText ⟨"pageNumberPosition", "page_number_position"⟩ fields = .ok l.pageNumberPosition
  extra : unknownFields Layout.names fields = .ok l.extra

theorem Layout.readFrom_iff_butSize {l : Layout} {fields : Fields} :
    l.ReadFrom fields ↔ l.ReadButSize fields ∧
      optionalText ⟨"paperSize", "paper_size"⟩ fields = .ok l.paperSize := by
  constructor
  · intro h
    exact ⟨⟨h.type, h.margins, h.columnDistribution, h.pageBreakBehavior, h.showPageNumbers,
      h.pageNumberPosition, h.extra⟩, h.paperSize⟩
  · intro h
    obtain ⟨h, hsize⟩ := h
    exact ⟨h.type, hsize, h.margins, h.columnDistribution, h.pageBreakBehavior, h.showPageNumbers,
      h.pageNumberPosition, h.extra⟩

/-- Only the paper size can be at fault then. -/
theorem Layout.ReadButSize.faults {l : Layout} {fields : Fields} (h : l.ReadButSize fields) :
    (Layout.ofFields fields).faults =
      (optionalText ⟨"paperSize", "paper_size"⟩ fields).faults := by
  simp [Layout.ofFields, h.type, h.margins, h.columnDistribution, h.pageBreakBehavior,
    h.showPageNumbers, h.pageNumberPosition, h.extra]

theorem Layout.ReadButSize.withDefaults {l : Layout} {fields : Fields} (h : l.ReadButSize fields) :
    ∃ extra, ({ l.filled fields with extra := extra } : Layout).ReadButSize
      (Migration.withDefaults fields) := by
  obtain ⟨extra, hextra⟩ := unknownFields_of_named Layout.names
    (named_withDefaults (named_of_unknownFields h.extra))
  exact ⟨extra,
    { type := (optional_withDefaults_of_ne (by decide) ..).trans h.type
      margins := (optional_withDefaults_of_ne (by decide) ..).trans h.margins
      columnDistribution := optional_filled (v := .str "70-30") rfl h.columnDistribution
        (by simp [withDefaults_eq, Fields.get?_setDefault])
      pageBreakBehavior := (optional_withDefaults_of_ne (by decide) ..).trans h.pageBreakBehavior
      showPageNumbers := optional_filled (v := .bool false) rfl h.showPageNumbers
        (by simp [withDefaults_eq, Fields.get?_setDefault])
      pageNumberPosition := optional_filled (v := .str "bottom-center") rfl h.pageNumberPosition
        (by simp [withDefaults_eq, Fields.get?_setDefault])
      extra := hextra }⟩

theorem Layout.ReadFrom.withDefaults {l : Layout} {fields : Fields} (h : l.ReadFrom fields) :
    ∃ extra, ({ l.filled fields with extra := extra } : Layout).ReadFrom
      (Migration.withDefaults fields) := by
  obtain ⟨hbut, hsize⟩ := readFrom_iff_butSize.mp h
  obtain ⟨extra, hfilled⟩ := hbut.withDefaults
  exact ⟨extra, readFrom_iff_butSize.mpr
    ⟨hfilled, (optional_withDefaults_of_ne (by decide) ..).trans hsize⟩⟩

/-! ### Documents of the first version -/

namespace Migration

/-- The fields of a document of the first version after the last step, for its layout and
its tokens. -/
def renewed (fields layout tokens : Fields) : Fields :=
  stamped "1.1.0" (Keyed.setDefault (Keyed.set (Keyed.set (stamped "1.0.0" fields)
    "tokens" (.object (presentDensity tokens))) "layout" (.object (withDefaults layout)))
    "itemOverrides" (.object []))

variable {fields layout tokens : Fields}

theorem fromFirst_eq (hlayout : Keyed.get? fields "layout" = some (.object layout))
    (htokens : Keyed.get? fields "tokens" = some (.object tokens)) :
    fromFirst fields = .ok (renewed fields layout tokens) := by
  have hstamped : Value.field (stamped "1.0.0" fields) "tokens" = .object tokens := by
    simp [Value.field, stamped, Fields.get?_set, htokens]
  have hkept : Keyed.get? (Keyed.set (stamped "1.0.0" fields) "tokens"
      (.object (presentDensity tokens))) "layout" = some (.object layout) := by
    simp [stamped, Fields.get?_set, hlayout]
  have hcurrent : toCurrent (stamped "1.0.0" fields) = .ok (Keyed.setDefault (Keyed.set
      (Keyed.set (stamped "1.0.0" fields) "tokens" (.object (presentDensity tokens)))
      "layout" (.object (withDefaults layout))) "itemOverrides" (.object [])) := by
    refine Except.bind_eq_ok.mpr ⟨_, by rw [renameDensity, hstamped], ?_⟩
    rw [addLayoutDefaults, hkept]
  rw [fromFirst, hcurrent]
  rfl

theorem get?_renewed (name : String) :
    Keyed.get? (renewed fields layout tokens) name =
      if "version" = name then some (.str "1.1.0")
      else if "itemOverrides" = name then
        some ((Keyed.get? fields "itemOverrides").getD (.object []))
      else if "layout" = name then some (.object (withDefaults layout))
      else if "tokens" = name then some (.object (presentDensity tokens))
      else Keyed.get? fields name := by
  simp only [renewed, stamped, Fields.get?_set, Fields.get?_setDefault]
  split
  · rfl
  · simp

theorem named_renewed (h : fields.Named) : (renewed fields layout tokens).Named := by
  unfold renewed stamped
  apply Fields.Named.set
  apply Fields.Named.setDefault
  apply Fields.Named.set
  apply Fields.Named.set
  apply Fields.Named.set
  exact h

end Migration

namespace Document

/-- How a document is read once the last step was taken, when `l` is read from its layout. -/
structure Renewed (fields layout : Fields) (l : Layout) (d renewed : Document) : Prop where
  version : renewed.version = "1.1.0"
  layout : ∃ extra, renewed.layout = { l.filled layout with extra := extra }
  tokens : renewed.tokens.resolve = d.tokens.present.resolve
  sections : renewed.sections = d.sections
  overrides : renewed.itemOverrides.getD [] =
    if Keyed.has fields "itemOverrides" then d.itemOverrides.getD [] else []

/-- Each field of the document but its layout is what one reading of these fields gives. -/
structure ReadButLayout (d : Document) (fields : Fields) : Prop where
  version : required (word "version") fields readVersion = .ok d.version
  tokens : required (word "tokens") fields Tokens.read = .ok d.tokens
  sections : required (word "sections") fields (readList Section.read) = .ok d.sections
  itemOverrides :
    optional ⟨"itemOverrides", "item_overrides"⟩ fields none readOverrides = .ok d.itemOverrides
  extra : unknownFields names fields = .ok d.extra

theorem readFrom_iff_butLayout {d : Document} {fields : Fields} :
    d.ReadFrom fields ↔ d.ReadButLayout fields ∧
      required (word "layout") fields Layout.read = .ok d.layout := by
  constructor
  · intro h
    exact ⟨⟨h.version, h.tokens, h.sections, h.itemOverrides, h.extra⟩, h.layout⟩
  · intro h
    obtain ⟨h, hlayout⟩ := h
    exact ⟨h.version, hlayout, h.tokens, h.sections, h.itemOverrides, h.extra⟩

/-- Only the layout can be at fault then. -/
theorem ReadButLayout.faults {d : Document} {fields : Fields} (h : d.ReadButLayout fields) :
    (ofFields fields).faults = (required (word "layout") fields Layout.read).faults := by
  simp [ofFields, h.version, h.tokens, h.sections, h.itemOverrides, h.extra]

theorem ReadButLayout.renewed {d : Document} {fields : Fields} (h : d.ReadButLayout fields)
    (layout : Fields) (l : Layout) :
    ∃ tokens present extra, Keyed.get? fields "tokens" = some (.object tokens) ∧
      present.resolve = d.tokens.present.resolve ∧
      (⟨"1.1.0", l, present, d.sections,
        if Keyed.has fields "itemOverrides" then d.itemOverrides else some [], extra⟩ :
        Document).ReadButLayout (Migration.renewed fields layout tokens) := by
  obtain ⟨_, htokens, ht⟩ := required_word_eq_ok.mp h.tokens
  obtain ⟨tokens, rfl, ht⟩ := part_eq_ok.mp ht
  obtain ⟨present, hpresent, hresolve⟩ := (Tokens.ofFields_eq_ok.mp ht).presentDensity
  obtain ⟨extra, hextra⟩ := unknownFields_of_named Document.names
    (Migration.named_renewed (named_of_unknownFields h.extra))
  exact ⟨tokens, present, extra, htokens, hresolve,
    { version := required_word_eq_ok.mpr ⟨_, Migration.get?_renewed _, rfl⟩
      tokens := required_word_eq_ok.mpr
        ⟨_, Migration.get?_renewed _, Tokens.ofFields_eq_ok.mpr hpresent⟩
      sections := (required_congr (Migration.get?_renewed _) (Migration.get?_renewed _) _).trans
        h.sections
      itemOverrides := optional_filled (v := .object []) rfl h.itemOverrides
        (Migration.get?_renewed _)
      extra := hextra }⟩

theorem ReadFrom.renewed {d : Document} {fields layout : Fields} (h : d.ReadFrom fields)
    (hlayout : Keyed.get? fields "layout" = some (.object layout)) :
    ∃ current renewed, Migration.fromFirst fields = .ok current ∧ ReadFrom renewed current ∧
      Renewed fields layout d.layout d renewed := by
  obtain ⟨_, hfound, hl⟩ := required_word_eq_ok.mp h.layout
  cases hlayout.symm.trans hfound
  obtain ⟨layoutExtra, hfilled⟩ := (Layout.ofFields_eq_ok.mp hl).withDefaults
  obtain ⟨tokens, present, extra, htokens, hresolve, hbut⟩ :=
    (readFrom_iff_butLayout.mp h).1.renewed layout
      { d.layout.filled layout with extra := layoutExtra }
  have hkept : required (word "layout") (Migration.renewed fields layout tokens) Layout.read =
      .ok { d.layout.filled layout with extra := layoutExtra } :=
    required_word_eq_ok.mpr ⟨_, Migration.get?_renewed _, Layout.ofFields_eq_ok.mpr hfilled⟩
  refine ⟨_, _, Migration.fromFirst_eq hlayout htokens,
    readFrom_iff_butLayout.mpr ⟨hbut, hkept⟩, ?_⟩
  exact
    { version := rfl
      layout := ⟨layoutExtra, rfl⟩
      tokens := hresolve
      sections := rfl
      overrides := by dsimp only; split <;> rfl }

end Document

/-! ### Layouts of the oldest version -/

namespace Migration

/-- The paper that takes the place of the paper size. -/
def movedPaper? (layout : Fields) : Option Value :=
  if Keyed.has layout "paperSize" then none else Keyed.get? layout "paper"

theorem movePaper_eq (layout : Fields) :
    movePaper layout =
      (movedPaper? layout).elim layout fun paper =>
        Keyed.set (Keyed.erase layout "paper") "paperSize" paper := by
  unfold movePaper movedPaper?
  cases Keyed.get? layout "paper" <;> cases Keyed.has layout "paperSize" <;> rfl

end Migration

/-- The name of a layout type at present. -/
def Layout.presentType : Entry String → Entry String
  | .given name => .given ((Keyed.get? Migration.renamedLayouts name).getD name)
  | e => e

/-- What the first step makes of a layout that was read as `l`. -/
structure Layout.Moved (l : Layout) (old new : Fields) : Prop where
  named : new.Named
  type : optionalText (word "type") new = .ok (presentType l.type)
  paperSize : optionalText ⟨"paperSize", "paper_size"⟩ new =
    (Migration.movedPaper? old).elim (.ok l.paperSize) fun paper => (text paper).under "paperSize"
  others : ∀ name, name ∉ ["type", "paper", "paperSize"] →
    Keyed.get? new name = Keyed.get? old name

/-- Only a type that was renamed is replaced. -/
theorem renameLayout_of_type {layout : Fields} {e : Entry String}
    (h : optionalText (word "type") layout = .ok e) :
    ∃ new, Migration.renameLayout layout = .ok new ∧
      optionalText (word "type") new = .ok (Layout.presentType e) ∧
      (∀ name, name ≠ "type" → Keyed.get? new name = Keyed.get? layout name) ∧
      (layout.Named → new.Named) := by
  have hsame (hpresent : Layout.presentType e = e) (hok : Migration.renameLayout layout = .ok layout) :
      ∃ new, Migration.renameLayout layout = .ok new ∧
        optionalText (word "type") new = .ok (Layout.presentType e) ∧
        (∀ name, name ≠ "type" → Keyed.get? new name = Keyed.get? layout name) ∧
        (layout.Named → new.Named) := ⟨layout, hok, hpresent.symm ▸ h, fun _ _ => rfl, id⟩
  rcases optional_word_eq_ok.mp h with ⟨hnone, rfl⟩ | ⟨v, hv, htext⟩
  · exact hsame rfl (by simp [Migration.renameLayout, Value.field, hnone, Value.isKey, Value.key?])
  · cases v <;> simp only [text, Checked.ok.injEq, Checked.fault_ne_ok] at htext
    case null =>
      subst htext
      exact hsame rfl (by simp [Migration.renameLayout, Value.field, hv, Value.isKey, Value.key?])
    case str name =>
      subst htext
      cases hrenamed : Keyed.get? Migration.renamedLayouts name with
      | none =>
        exact hsame (by simp [Layout.presentType, hrenamed])
          (by simp [Migration.renameLayout, Value.field, hv, hrenamed])
      | some present =>
        refine ⟨Keyed.set layout "type" (.str present), ?_, ?_, fun other hother => ?_,
          fun hnamed => Fields.Named.set hnamed "type" _⟩
        · simp [Migration.renameLayout, Value.field, hv, hrenamed]
        · rw [optionalText, optional_word (Keyed.get?_set_self ..)]
          simp [Layout.presentType, hrenamed, text, Checked.under]
        · rw [Fields.get?_set, if_neg (Ne.symm hother)]

theorem Layout.ReadFrom.moved {l : Layout} {old : Fields} (h : l.ReadFrom old) :
    ∃ new, Migration.renameLayout (Migration.movePaper old) = .ok new ∧ l.Moved old new := by
  have hnamed : old.Named := named_of_unknownFields h.extra
  rw [Migration.movePaper_eq]
  cases hpaper : Migration.movedPaper? old with
  | none =>
    obtain ⟨new, hnew, htype, hothers, hkeeps⟩ := renameLayout_of_type h.type
    refine ⟨new, hnew, hkeeps hnamed, htype, ?_, fun name hname => hothers name (by simp_all)⟩
    rw [hpaper]
    exact (optional_congr (hothers _ (by decide)) (hothers _ (by decide)) _ _).trans h.paperSize
  | some paper =>
    have htype : optionalText (word "type")
        (Keyed.set (Keyed.erase old "paper") "paperSize" paper) = .ok l.type :=
      (optional_set_of_ne (by decide) (by decide) ..).trans
        ((optional_erase_of_ne (by decide) (by decide) ..).trans h.type)
    obtain ⟨new, hnew, htype, hothers, hkeeps⟩ := renameLayout_of_type htype
    have hsize : Keyed.get? new "paperSize" = some paper :=
      (hothers _ (by decide)).trans (Keyed.get?_set_self ..)
    refine ⟨new, hnew, hkeeps ?_, htype, ?_, fun name hname => ?_⟩
    · exact Fields.Named.set (Fields.Named.erase hnamed "paper") "paperSize" paper
    · rw [hpaper, optionalText, optional_of_camel hsize]
      rfl
    · simp only [List.mem_cons, List.not_mem_nil, or_false, not_or] at hname
      rw [hothers name hname.1, Fields.get?_set, if_neg (Ne.symm hname.2.2), Fields.get?_erase,
        if_neg (Ne.symm hname.2.1)]

/-- Another field of a moved layout is read as before. -/
theorem Layout.Moved.optional_eq {α : Type} {l : Layout} {old new : Fields} (h : l.Moved old new)
    {n : FieldName} (hcamel : n.camel ∉ ["type", "paper", "paperSize"])
    (hsnake : n.snake ∉ ["type", "paper", "paperSize"]) (absent : α) (read : Value → Checked α) :
    n.optional new absent read = n.optional old absent read :=
  optional_congr (h.others _ hcamel) (h.others _ hsnake) absent read

theorem Layout.Moved.readButSize {l : Layout} {old new : Fields} (h : l.Moved old new)
    (hl : l.ReadFrom old) (size : Entry String) :
    ∃ extra, ({ l with type := presentType l.type, paperSize := size, extra := extra } :
      Layout).ReadButSize new := by
  obtain ⟨extra, hextra⟩ := unknownFields_of_named Layout.names h.named
  exact ⟨extra,
    { type := h.type
      margins := (h.optional_eq (by decide) (by decide) ..).trans hl.margins
      columnDistribution := (h.optional_eq (by decide) (by decide) ..).trans hl.columnDistribution
      pageBreakBehavior := (h.optional_eq (by decide) (by decide) ..).trans hl.pageBreakBehavior
      showPageNumbers := (h.optional_eq (by decide) (by decide) ..).trans hl.showPageNumbers
      pageNumberPosition := (h.optional_eq (by decide) (by decide) ..).trans hl.pageNumberPosition
      extra := hextra }⟩

/-- A paper that is no text is the one fault of a layout once it was moved. -/
theorem Layout.Moved.faults_withDefaults {l : Layout} {old new : Fields} {paper : Value}
    (h : l.Moved old new) (hl : l.ReadFrom old) (hpaper : Migration.movedPaper? old = some paper)
    (htext : text paper = .fault .notText) :
    (Layout.ofFields (Migration.withDefaults new)).faults = [⟨["paperSize"], .notText⟩] := by
  have hsize : optionalText ⟨"paperSize", "paper_size"⟩ (Migration.withDefaults new) =
      (Checked.fault .notText).under "paperSize" := by
    refine (optional_withDefaults_of_ne (by decide) ..).trans (h.paperSize.trans ?_)
    rw [hpaper, Option.elim_some, htext]
  obtain ⟨_, hbut⟩ := h.readButSize hl .absent
  obtain ⟨_, hfilled⟩ := hbut.withDefaults
  rw [hfilled.faults, hsize]
  rfl

theorem Layout.Moved.filled_eq {l m : Layout} {old new : Fields} (h : l.Moved old new) :
    m.filled new = m.filled old := by
  unfold Layout.filled FieldName.kept Keyed.has
  rw [h.others "columnDistribution" (by decide), h.others "showPageNumbers" (by decide),
    h.others "pageNumberPosition" (by decide)]

/-! ### Documents of the oldest version -/

namespace Document

/-- What a document of the oldest version is after the first step, for its new layout. -/
def firstOf (fields new : Fields) : Fields :=
  Keyed.set (Migration.stamped "0.9.0" fields) "layout" (.object new)

/-- The paper size after the first step. -/
def movedSize (l : Layout) (old : Fields) : Checked (Entry String) :=
  (Migration.movedPaper? old).elim (.ok l.paperSize) text

variable {d : Document} {fields old new : Fields} {size : Entry String}

theorem get?_firstOf (name : String) :
    Keyed.get? (firstOf fields new) name =
      if "layout" = name then some (.object new)
      else if "version" = name then some (.str "0.9.0") else Keyed.get? fields name := by
  simp only [firstOf, Migration.stamped, Fields.get?_set]

theorem fromOldest_eq (hold : Keyed.get? fields "layout" = some (.object old))
    (hnew : Migration.renameLayout (Migration.movePaper old) = .ok new) :
    Migration.fromOldest fields = Migration.fromFirst (firstOf fields new) := by
  have hkept : Keyed.get? (Migration.stamped "0.9.0" fields) "layout" = some (.object old) := by
    simp [Migration.stamped, Fields.get?_set, hold]
  have hfirst : Migration.toFirst (Migration.stamped "0.9.0" fields) = .ok (firstOf fields new) := by
    rw [Migration.toFirst, hkept]
    exact Except.bind_eq_ok.mpr ⟨new, hnew, rfl⟩
  rw [Migration.fromOldest, hfirst]
  rfl

/-- A paper size that cannot be read is a paper that is no text. -/
theorem exists_paper {l : Layout} (h : ∀ size, movedSize l old ≠ .ok size) :
    ∃ paper, Migration.movedPaper? old = some paper ∧ text paper = .fault .notText := by
  unfold movedSize at h
  cases hpaper : Migration.movedPaper? old with
  | none =>
    rw [hpaper] at h
    exact absurd rfl (h l.paperSize)
  | some paper =>
    rw [hpaper, Option.elim_some] at h
    refine ⟨paper, rfl, ?_⟩
    cases paper <;> simp_all [text]

theorem movedSize_eq_ok {l : Layout} (h : l.Moved old new) :
    movedSize l old = .ok size ↔
      optionalText ⟨"paperSize", "paper_size"⟩ new = .ok size := by
  rw [h.paperSize, movedSize]
  cases Migration.movedPaper? old <;> simp

/-- The first step leaves a document readable but for its layout. -/
theorem ReadFrom.first (h : d.ReadFrom fields) (new : Fields) (l : Layout) :
    ∃ extra, ({ d with version := "0.9.0", layout := l, extra := extra } :
      Document).ReadButLayout (firstOf fields new) := by
  have hnamed : (firstOf fields new).Named := by
    apply Fields.Named.set
    apply Fields.Named.set
    exact named_of_unknownFields h.extra
  obtain ⟨extra, hextra⟩ := unknownFields_of_named Document.names hnamed
  exact ⟨extra,
    { version := required_word_eq_ok.mpr ⟨_, get?_firstOf _, rfl⟩
      tokens := (required_congr (get?_firstOf _) (get?_firstOf _) _).trans h.tokens
      sections := (required_congr (get?_firstOf _) (get?_firstOf _) _).trans h.sections
      itemOverrides := (optional_congr (get?_firstOf _) (get?_firstOf _) _ _).trans h.itemOverrides
      extra := hextra }⟩

/-- The layout of a document that was read. -/
theorem ReadFrom.exists_layout (h : d.ReadFrom fields) :
    ∃ layout, Keyed.get? fields "layout" = some (.object layout) ∧ d.layout.ReadFrom layout := by
  obtain ⟨_, hlayout, hl⟩ := required_word_eq_ok.mp h.layout
  obtain ⟨layout, rfl, hl⟩ := part_eq_ok.mp hl
  exact ⟨layout, hlayout, Layout.ofFields_eq_ok.mp hl⟩

theorem ReadFrom.renewedOldest (h : d.ReadFrom fields)
    (hold : Keyed.get? fields "layout" = some (.object old))
    (hsize : movedSize d.layout old = .ok size) :
    ∃ current renewed, Migration.fromOldest fields = .ok current ∧ ReadFrom renewed current ∧
      Renewed fields old
        { d.layout with type := Layout.presentType d.layout.type, paperSize := size } d renewed := by
  obtain ⟨layout, hlayout, hl⟩ := h.exists_layout
  cases hold.symm.trans hlayout
  obtain ⟨new, hnew, hmoved⟩ := hl.moved
  obtain ⟨layoutExtra, hbut⟩ := hmoved.readButSize hl size
  have hlayout' := Layout.readFrom_iff_butSize.mpr ⟨hbut, (movedSize_eq_ok hmoved).mp hsize⟩
  obtain ⟨extra, hfirst⟩ := h.first new
    { d.layout with
      type := Layout.presentType d.layout.type
      paperSize := size
      extra := layoutExtra }
  have hread := readFrom_iff_butLayout.mpr ⟨hfirst, required_word_eq_ok.mpr
    ⟨_, get?_firstOf "layout", Layout.ofFields_eq_ok.mpr hlayout'⟩⟩
  obtain ⟨current, renewed, hcurrent, hread, hrenewed⟩ := hread.renewed (get?_firstOf "layout")
  refine ⟨current, renewed, (fromOldest_eq hold hnew).trans hcurrent, hread, ?_⟩
  obtain ⟨lastExtra, hrenewedLayout⟩ := hrenewed.layout
  rw [hmoved.filled_eq] at hrenewedLayout
  exact
    { version := hrenewed.version
      layout := ⟨lastExtra, hrenewedLayout⟩
      tokens := hrenewed.tokens
      sections := hrenewed.sections
      overrides := by
        rw [hrenewed.overrides, Keyed.has, Keyed.has, get?_firstOf]
        rfl }

/-- A paper that is no text takes the place of the paper size all the same, and then it is what is
wrong with the document. -/
theorem ReadFrom.faults_oldest (h : d.ReadFrom fields)
    (hold : Keyed.get? fields "layout" = some (.object old))
    (hsize : ∀ size, movedSize d.layout old ≠ .ok size) :
    ∃ current, Migration.fromOldest fields = .ok current ∧
      (ofFields current).faults = [⟨["layout", "paperSize"], .notText⟩] ∧
      Keyed.get? current "sections" = Keyed.get? fields "sections" := by
  obtain ⟨layout, hlayout, hl⟩ := h.exists_layout
  cases hold.symm.trans hlayout
  obtain ⟨paper, hpaper, htext⟩ := exists_paper hsize
  obtain ⟨new, hnew, hmoved⟩ := hl.moved
  obtain ⟨_, hfirst⟩ := h.first new d.layout
  obtain ⟨tokens, _, _, htokens, _, hrenewed⟩ := hfirst.renewed new d.layout
  have hlast : required (word "layout") (Migration.renewed (firstOf fields new) new tokens)
      Layout.read = (Layout.ofFields (Migration.withDefaults new)).under "layout" :=
    required_of_camel (n := word "layout") (Migration.get?_renewed "layout") Layout.read
  refine ⟨_, (fromOldest_eq hold hnew).trans
    (Migration.fromFirst_eq (get?_firstOf "layout") htokens), ?_, ?_⟩
  · rw [hrenewed.faults, hlast, Checked.faults_under, hmoved.faults_withDefaults hl hpaper htext]
    rfl
  · exact (Migration.get?_renewed "sections").trans (get?_firstOf "sections")

theorem ReadFrom.not_renewed (h : d.ReadFrom fields)
    (hold : Keyed.get? fields "layout" = some (.object old))
    (hsize : ∀ size, movedSize d.layout old ≠ .ok size) :
    ∃ current, Migration.fromOldest fields = .ok current ∧
      ∀ renewed : Document, ¬ renewed.ReadFrom current := by
  obtain ⟨current, hcurrent, hfaults, _⟩ := h.faults_oldest hold hsize
  refine ⟨current, hcurrent, fun renewed hread => ?_⟩
  rw [ofFields_eq_ok.mpr hread] at hfaults
  cases hfaults

end Document

end Vitae
