import Vitae.Proofs.Agreement
import Vitae.Proofs.Carried
import Vitae.Proofs.Grammar
import Vitae.Proofs.Thinning

/-! What a page is made without.

A section that is hidden, and overrides that are for no visible section, can be left out of a
document before it is read (`Fields.Trimmed`). Migration has no eyes for them
(`Migration.carried_trimmed`) and reading passes from one element to the next
(`Fields.Trimmed.exists_readFrom`), so what is left is accepted, and compiled to the same page
(`Compile.compileDraft_trimmed`). -/

namespace Vitae

/-! ### Fields -/

/-- A section that is hidden, before it is read. -/
def Value.Hidden (v : Value) : Prop := Value.field v.entries "visible" = .bool false

/-- A visible section has this identifier. -/
def Fields.Shows (fields : Fields) (id : String) : Prop :=
  ∃ v ∈ Document.listedSections (.object fields),
    Value.field v.entries "visible" = .bool true ∧ Value.field v.entries "id" = .str id

/-- Overrides for no visible section of these fields. -/
def Fields.Spares (fields : Fields) (entry : Key × Value) : Prop :=
  ∀ id, fields.Shows id → entry.1 ≠ .str id

/-- Overrides without some that can be spared. Values of other kinds are as they were. -/
inductive Value.Trimmed (spare : Key × Value → Prop) : Value → Value → Prop
  | same (v : Value) : Trimmed spare v v
  | object {all left : Fields} (h : Thinned spare all left) :
      Trimmed spare (.object all) (.object left)

/-- A document without some of its hidden sections and some of the overrides that are for no
visible section, before it is read. -/
structure Fields.Trimmed (a b : Fields) : Prop where
  agree : AgreeBeside ["sections", "itemOverrides", "item_overrides"] a b
  sections : ∃ all left, Keyed.get? a "sections" = some (.list all) ∧
    Keyed.get? b "sections" = some (.list left) ∧ Thinned Value.Hidden all left
  overrides : ∀ name ∈ ["itemOverrides", "item_overrides"],
    Option.Rel (Value.Trimmed a.Spares) (Keyed.get? a name) (Keyed.get? b name)

theorem Value.Trimmed.exists_fields {spare : Key × Value → Prop} {all : Fields} {v : Value}
    (h : Value.Trimmed spare (.object all) v) :
    ∃ left, v = .object left ∧ Thinned spare all left := by
  cases h with
  | same => exact ⟨all, rfl, .refl all⟩
  | object h => exact ⟨_, rfl, h⟩

theorem Fields.spares_congr {a b : Fields}
    (h : Keyed.get? a "sections" = Keyed.get? b "sections") : a.Spares = b.Spares := by
  have hfield : Value.field a "sections" = Value.field b "sections" := by
    rw [Value.field, Value.field, h]
  have hlisted : Document.listedSections (.object a) = Document.listedSections (.object b) := by
    simp only [Document.listedSections, Value.entries, Value.fields?, Option.getD_some, hfield]
  unfold Spares Shows
  rw [hlisted]

/-- Migration has no eyes for sections, and looks at overrides only where there are none. -/
theorem Migration.carried_trimmed : Carried Fields.Trimmed where
  agree h name hname := by
    refine h.agree.get?_eq ?_
    revert name
    decide
  set {a b} h name hname v := by
    have hother (fields : Fields) {other : String}
        (hmem : other ∈ ["sections", "itemOverrides", "item_overrides"]) :
        Keyed.get? (Keyed.set fields (.str name) v) other = Keyed.get? fields other := by
      rw [Fields.get?_set, if_neg]
      revert other
      revert name
      decide
    refine ⟨h.agree.set name v, ?_, fun other hmem => ?_⟩
    · rw [hother a (by decide), hother b (by decide)]
      exact h.sections
    · rw [Fields.spares_congr (hother a (by decide)), hother a (List.mem_cons_of_mem _ hmem),
        hother b (List.mem_cons_of_mem _ hmem)]
      exact h.overrides other hmem
  fill {a b} h := by
    have hother (fields : Fields) {other : String} (hne : "itemOverrides" ≠ other) :
        Keyed.get? (Keyed.setDefault fields "itemOverrides" (.object [])) other =
          Keyed.get? fields other := by
      rw [Fields.get?_setDefault, if_neg hne]
    refine ⟨h.agree.setDefault (by decide) _, ?_, ?_⟩
    · rw [hother a (by decide), hother b (by decide)]
      exact h.sections
    · rw [Fields.spares_congr (hother a (by decide))]
      simp only [List.forall_mem_cons, List.not_mem_nil, false_implies, implies_true, and_true]
      constructor
      · rw [Fields.get?_setDefault, Fields.get?_setDefault, if_pos rfl, if_pos rfl]
        exact .some (Option.Rel.getD (h.overrides "itemOverrides" (by decide)) (.same _))
      · rw [hother a (by decide), hother b (by decide)]
        exact h.overrides "item_overrides" (by decide)

/-! ### Reading -/

open FieldName Reading Document

theorem Section.field_visible {v : Value} {s : Section} (h : Section.read v = .ok s) :
    Value.field v.entries "visible" = .bool s.visible := by
  obtain ⟨fields, rfl, hfields⟩ := part_eq_ok.mp h
  obtain ⟨given, hgiven, hread⟩ :=
    required_word_eq_ok.mp (Section.ofFields_eq_ok.mp hfields).visible
  show (Keyed.get? fields "visible").getD .null = .bool s.visible
  rw [hgiven, Section.readVisible_eq_ok.mp hread]
  rfl

/-- What a document shows, its fields show. -/
theorem Document.ReadFrom.shows {d : Document} {fields : Fields} (hd : d.ReadFrom fields)
    {id : String} (h : d.Shows id) : Fields.Shows fields id := by
  obtain ⟨s, hs, hvisible, rfl⟩ := h
  have hread : Document.read (.object fields) = .ok d := read_eq_ok.mpr ⟨fields, rfl, hd⟩
  obtain ⟨item, hitem, hitems⟩ := Checked.exists_of_mem (forall₂_listedSections hread) hs
  exact ⟨item, hitem, hvisible ▸ Section.field_visible hitems, Section.field_id hitems⟩

namespace Fields.Trimmed

variable {a b : Fields} {d : Document}

theorem exists_sections (h : a.Trimmed b) (hd : d.ReadFrom a) :
    ∃ kept, (word "sections").required b (readList Section.read) = .ok kept ∧
      Thinned (fun s => s.visible = false) d.sections kept := by
  obtain ⟨all, left, hall, hleft, hthin⟩ := h.sections
  obtain ⟨v, hv, hread⟩ := required_word_eq_ok.mp hd.sections
  rw [hall] at hv
  cases hv
  obtain ⟨_, hlist, hitems⟩ := readList_eq_ok.mp hread
  cases hlist
  obtain ⟨kept, hkept, hthinned⟩ := hthin.exists_forall₂ hitems fun item s hitem hhidden =>
    Value.bool.inj ((Section.field_visible hitem).symm.trans hhidden)
  exact ⟨kept, required_word_eq_ok.mpr ⟨_, hleft, readList_eq_ok.mpr ⟨_, rfl, hkept⟩⟩, hthinned⟩

theorem given?_overrides (h : a.Trimmed b) :
    Option.Rel (Value.Trimmed a.Spares)
      (FieldName.given? ⟨"itemOverrides", "item_overrides"⟩ a)
      (FieldName.given? ⟨"itemOverrides", "item_overrides"⟩ b) :=
  Option.Rel.or (h.overrides "itemOverrides" (by decide)) (h.overrides "item_overrides" (by decide))

/-- Overrides for what is shown are read as before. -/
theorem exists_overrides (h : a.Trimmed b) (hd : d.ReadFrom a) :
    ∃ kept, optional ⟨"itemOverrides", "item_overrides"⟩ b none readOverrides = .ok kept ∧
      Option.Rel (Thinned fun entry => ¬ d.Shows entry.1) d.itemOverrides kept := by
  have hrel := h.given?_overrides
  generalize hgiven : FieldName.given? ⟨"itemOverrides", "item_overrides"⟩ b = left at hrel
  rcases optional_eq_ok_iff.mp hd.itemOverrides with ⟨hnone, habsent⟩ | ⟨v, hv, hread⟩
  · rw [hnone] at hrel
    cases hrel
    refine ⟨none, optional_eq_ok_iff.mpr (.inl ⟨hgiven, rfl⟩), ?_⟩
    rw [habsent]
    exact .none
  · rw [hv] at hrel
    obtain ⟨fields, overrides, rfl, hsome, hentries⟩ := readOverrides_eq_ok.mp hread
    cases hrel with
    | some htrimmed =>
      obtain ⟨rest, rfl, hthin⟩ := htrimmed.exists_fields
      obtain ⟨kept, hkept, hthinned⟩ := hthin.exists_forall₂ hentries fun f e hentry hspare hshown =>
        hspare e.1 (hd.shows hshown) (readEntry_eq_ok.mp hentry).1
      have hread : readOverrides (.object rest) = .ok (some kept) :=
        readOverrides_eq_ok.mpr ⟨rest, kept, rfl, rfl, hkept⟩
      refine ⟨some kept, optional_eq_ok_iff.mpr (.inr ⟨_, hgiven, hread⟩), ?_⟩
      rw [hsome]
      exact .some hthinned

/-- What is left of a document is read as what is left of the one that was read. -/
theorem exists_readFrom (h : a.Trimmed b) (hd : d.ReadFrom a) :
    ∃ e : Document, e.ReadFrom b ∧ d.Trimmed e := by
  obtain ⟨kept, hsections, hthinned⟩ := h.exists_sections hd
  obtain ⟨overrides, hoverrides, hrel⟩ := h.exists_overrides hd
  obtain ⟨extra, hextra⟩ :=
    unknownFields_of_named Document.names (h.agree.named (named_of_unknownFields hd.extra))
  refine ⟨{ d with sections := kept, itemOverrides := overrides, extra := extra }, ?_, ?_⟩
  · exact
      { version := (h.agree.required_eq (by decide) _).symm.trans hd.version
        layout := (h.agree.required_eq (by decide) _).symm.trans hd.layout
        tokens := (h.agree.required_eq (by decide) _).symm.trans hd.tokens
        sections := hsections
        itemOverrides := hoverrides
        extra := hextra }
  · exact ⟨rfl, rfl, rfl, hthinned, hrel⟩

end Fields.Trimmed

/-- What is left of an accepted document is accepted. -/
theorem Compile.Accepts.trimmed {a b : Fields} {d : Document} (h : a.Trimmed b)
    (hd : Accepts Migration.builtin (.object a) d) :
    ∃ e, Accepts Migration.builtin (.object b) e ∧ d.Trimmed e := by
  obtain ⟨current, hcurrent, hvalid⟩ := hd
  obtain ⟨u, w, rfl, hw, htrimmed⟩ := Migration.carried_trimmed.exists_upToDate h hcurrent
  obtain ⟨hread, herrors⟩ := Validation.validate_eq_ok.mp hvalid
  obtain ⟨_, hobject, hd⟩ := read_eq_ok.mp hread
  cases hobject
  obtain ⟨e, he, hde⟩ := htrimmed.exists_readFrom hd
  have hvalid : Validation.validate (.object w) = .ok e :=
    Validation.validate_eq_ok.mpr ⟨read_eq_ok.mpr ⟨w, rfl, he⟩, hde.sectionErrors herrors⟩
  exact ⟨e, ⟨_, hw, hvalid⟩, hde⟩

/-! ### Documents that are written back -/

namespace Document

variable {d e : Document}

theorem get?_given_overrides (d : Document) :
    Keyed.get? d.given "itemOverrides" =
      (d.itemOverrides.map overridesValue).or (Keyed.get? d.extra "itemOverrides") := by
  obtain ⟨version, layout, tokens, sections, overrides, extra⟩ := d
  cases overrides <;> rfl

/-- Overrides are written under their first name. -/
theorem get?_given_snake (d : Document) :
    Keyed.get? d.given "item_overrides" = Keyed.get? d.extra "item_overrides" := by
  obtain ⟨version, layout, tokens, sections, overrides, extra⟩ := d
  cases overrides <;> rfl

theorem get?_given_of_ne (d : Document) {key : Key} (hsections : key ≠ .str "sections")
    (hoverrides : key ≠ .str "itemOverrides") :
    Keyed.get? d.given key =
      Keyed.get? ((Key.str "version", .str d.version) ::
        (Key.str "layout", .object (d.layout.write .given)) ::
        (Key.str "tokens", .object (d.tokens.write .given)) :: d.extra) key := by
  have hne {name : String} (hname : key ≠ .str name) : (Key.str name == key) = false := by
    rw [BEq.comm]
    exact Key.beq_str_eq_false hname
  cases hgiven : d.itemOverrides <;>
    simp [given, write, Keyed.get?, hgiven, hne hsections, hne hoverrides]

theorem shows_of_given {id : String} (h : d.given.Shows id) : d.Shows id := by
  obtain ⟨v, hv, hvisible, hid⟩ := h
  have hv : v ∈ d.sections.map fun s => .object s.write := hv
  obtain ⟨s, hs, rfl⟩ := List.mem_map.mp hv
  exact ⟨s, hs, Value.bool.inj hvisible, Value.str.inj hid⟩

theorem overridesValue_trimmed {all left : Keyed String (List Fields)}
    (h : Thinned (fun entry => ¬ d.Shows entry.1) all left) :
    Value.Trimmed d.given.Spares (overridesValue all) (overridesValue left) := by
  refine .object (h.map fun entry hspare id hshown heq => hspare ?_)
  cases heq
  exact shows_of_given hshown

theorem Trimmed.given (h : d.Trimmed e) (hextra : e.extra = d.extra) :
    Fields.Trimmed d.given e.given where
  agree key hkey := by
    have hsections := hkey "sections" (by decide)
    have hoverrides := hkey "itemOverrides" (by decide)
    rw [d.get?_given_of_ne hsections hoverrides, e.get?_given_of_ne hsections hoverrides,
      h.version, h.layout, h.tokens, hextra]
  sections := ⟨_, _, rfl, rfl, h.sections.map fun _ hhidden => congrArg Value.bool hhidden⟩
  overrides := by
    have hsame (given : Option Value) : Option.Rel (Value.Trimmed d.given.Spares) given given := by
      cases given with
      | none => exact .none
      | some v => exact .some (.same v)
    simp only [List.forall_mem_cons, List.not_mem_nil, false_implies, implies_true, and_true]
    constructor
    · rw [get?_given_overrides, get?_given_overrides, hextra]
      exact Option.Rel.or (Option.Rel.map h.overrides fun _ _ => overridesValue_trimmed) (hsame _)
    · rw [get?_given_snake, get?_given_snake, hextra]
      exact hsame _

end Document

/-- A draft without some hidden sections, and without some overrides that are for no visible
section. -/
inductive Draft.Trimmed : Draft → Draft → Prop
  | raw {a b : Fields} (h : Fields.Trimmed a b) : Trimmed (.raw (.object a)) (.raw (.object b))
  | typed {d e : Document} (h : d.Trimmed e) (hextra : e.extra = d.extra) :
      Trimmed (.typed d) (.typed e)

theorem Draft.Trimmed.exists_fields {draft other : Draft} (h : draft.Trimmed other) :
    ∃ a b, draft.value = .object a ∧ other.value = .object b ∧ Fields.Trimmed a b := by
  cases h with
  | raw h => exact ⟨_, _, rfl, rfl, h⟩
  | typed h hextra => exact ⟨_, _, rfl, rfl, h.given hextra⟩

namespace Compile

variable {stamp stamp' : Stamp} {draft other : Draft} {target resume : Value}
  {sections : SectionRegistry} {ast : Ast}

theorem timeless_assembled_trimmed {d e : Document} (h : d.Trimmed e) (known : Target)
    (placed : List PlacedSection) :
    (assembled stamp known d placed).timeless = (assembled stamp' known e placed).timeless := by
  simp only [assembled, Ast.timeless, h.version, h.layout, h.tokens]

/-- **Hidden sections do not show**: a document that is compiled is compiled to the same page
without any of its hidden sections and of the overrides that are for no visible section. -/
theorem compileDraft_trimmed (stamp' : Stamp)
    (h : (compileDraft stamp draft target resume Migration.builtin sections).result = .ok ast)
    (htrimmed : draft.Trimmed other) :
    ∃ left, (compileDraft stamp' other target resume Migration.builtin sections).result = .ok left ∧
      left.timeless = ast.timeless := by
  obtain ⟨a, b, ha, hb, hfields⟩ := htrimmed.exists_fields
  obtain ⟨known, d, placed, htarget, hd, hplaced, rfl⟩ := compile_eq_ok.mp h
  obtain ⟨e, he, hde⟩ := Accepts.trimmed hfields (ha ▸ hd)
  rw [← hde.tokens] at hplaced
  have hplace := (hde.place e.tokens.resolve resume sections).trans hplaced
  exact ⟨_, compile_eq_ok.mpr ⟨known, e, placed, htarget, hb ▸ he, hplace, rfl⟩,
    (timeless_assembled_trimmed hde known placed).symm⟩

/-- Two visible sections among hidden ones, all of one order, and overrides for sections that
are shown, hidden and not there. -/
def curtained : Document where
  version := "1.0"
  layout := { type := .given "two-column" }
  tokens := {}
  sections :=
    [⟨"awards", false, .int 1, .main, []⟩, ⟨"skills", true, .int 1, .sidebar, []⟩,
     ⟨"interests", false, .int 1, .main, []⟩, ⟨"summary", true, .int 1, .main, []⟩]
  itemOverrides := some
    [("awards", [[("index", .int 0), ("visible", .bool false)]]),
     ("skills", [[("itemId", .str "lean"), ("order", .int (-1))]]),
     ("hobbies", [])]

/-- Without one of the hidden sections, and with the overrides that count alone. -/
def uncurtained : Document :=
  { curtained with
    sections :=
      [⟨"skills", true, .int 1, .sidebar, []⟩, ⟨"interests", false, .int 1, .main, []⟩,
       ⟨"summary", true, .int 1, .main, []⟩]
    itemOverrides := some [("skills", [[("itemId", .str "lean"), ("order", .int (-1))]])] }

theorem curtained_trimmed : curtained.Trimmed uncurtained where
  version := rfl
  layout := rfl
  tokens := rfl
  sections := .drop rfl (.keep _ (.keep _ (.keep _ .nil)))
  overrides := by
    have hhidden (id : String) (hid : id ≠ "skills" ∧ id ≠ "summary") : ¬ curtained.Shows id := by
      intro h
      obtain ⟨s, hs, hvisible, rfl⟩ := h
      revert s
      simp [curtained]
    exact .some (.drop (hhidden _ (by decide)) (.keep _ (.drop (hhidden _ (by decide)) .nil)))

theorem compileDraft_trimmed_curtained :
    ∃ ast left, (compileDraft ⟨"", ""⟩ (.typed curtained) (.str "html") (.object Placement.skilled)
        Migration.builtin .builtin).result = .ok ast ∧
      (Draft.typed curtained).Trimmed (.typed uncurtained) ∧
      (compileDraft ⟨"", ""⟩ (.typed uncurtained) (.str "html") (.object Placement.skilled)
        Migration.builtin .builtin).result = .ok left ∧ left.timeless = ast.timeless := by
  obtain ⟨d, hd, hsections⟩ : ∃ d, Accepts Migration.builtin (.object curtained.given) d ∧
      d.sections = curtained.sections :=
    ⟨_, ⟨_, upToDate_of_fromFirst rfl (by decide) (by rfl), by rfl⟩, by rfl⟩
  have hvisible : ∀ s ∈ d.sections, s.visible = true → s.id = "skills" ∨ s.id = "summary" := by
    rw [hsections]
    simp [curtained]
  obtain ⟨placed, hplaced⟩ := Placement.exists_place_skilled hvisible d.tokens.resolve
  have hast : (compileDraft ⟨"", ""⟩ (.typed curtained) (.str "html") (.object Placement.skilled)
      Migration.builtin .builtin).result = .ok _ :=
    compile_eq_ok.mpr ⟨.html, d, placed, rfl, hd, hplaced, rfl⟩
  have htrimmed : (Draft.typed curtained).Trimmed (.typed uncurtained) :=
    .typed curtained_trimmed rfl
  obtain ⟨left, hleft, hsame⟩ := compileDraft_trimmed ⟨"", ""⟩ hast htrimmed
  exact ⟨_, left, hast, htrimmed, hleft, hsame⟩

end Compile

end Vitae
