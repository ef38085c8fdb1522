import Vitae.Proofs.Grammar
import Vitae.Proofs.Renewal

/-! What a document keeps of the value that it was read from.

A document gives back every field of its value, at every depth, up to the order of fields
(`Value.Same`). Two things change: a known field that is given under its second name alone comes
back under the first one (`Fields.rename`), and what names a truth value comes back as that truth
value (`Value.asTruth`). `Document.normal` makes these changes to a value, and
`Document.read_lossless` says that there are no others. -/

namespace Vitae

/-! ### The same value -/

/-- Equality up to the order of the fields of objects. Objects have the same fields when every key
has the same value in both, or none. -/
inductive Value.Same : Value → Value → Prop
  | refl (v : Value) : Same v v
  | list {xs ys : List Value} (h : List.Forall₂ Same xs ys) : Same (.list xs) (.list ys)
  | object {xs ys : Fields}
      (h : ∀ key, Option.Rel Same (Keyed.get? xs key) (Keyed.get? ys key)) :
      Same (.object xs) (.object ys)

theorem Value.rel_same_refl (o : Option Value) : Option.Rel Value.Same o o := by
  cases o with
  | none => exact .none
  | some v => exact .some (.refl v)

theorem Fields.Named.get?_eq_none {fields : Fields} (h : fields.Named) {key : Key}
    (hkey : ∀ name, key ≠ .str name) : Keyed.get? fields key = none := by
  refine Keyed.get?_eq_none fun f hf => Bool.eq_false_iff.mpr fun heq => ?_
  obtain ⟨name, hname⟩ := h f hf
  rw [hname] at heq
  exact hkey name (Key.eq_str_of_beq heq)

/-- Objects whose keys are texts are compared at the texts. -/
theorem Value.Same.of_names {xs ys : Fields} (hxs : xs.Named) (hys : ys.Named)
    (h : ∀ name : String, Option.Rel Value.Same (Keyed.get? xs name) (Keyed.get? ys name)) :
    Value.Same (.object xs) (.object ys) := by
  refine .object fun key => ?_
  by_cases hkey : ∃ name, key = .str name
  · obtain ⟨name, rfl⟩ := hkey
    exact h name
  · have hnone : ∀ name, key ≠ .str name := fun name heq => hkey ⟨name, heq⟩
    rw [hxs.get?_eq_none hnone, hys.get?_eq_none hnone]
    exact .none

/-! ### Known fields under their first names -/

namespace Fields

/-- The fields with a known one under its first name, and its value changed. -/
def rename (n : FieldName) (change : Value → Value) (fields : Fields) : Fields :=
  match n.used? fields with
  | none => fields
  | some name => Keyed.set (Keyed.erase fields name) n.camel (change (Value.field fields name))

/-- The fields with all known ones under their first names. The values of those that `changes`
mentions are changed as it says. -/
def normal (names : List FieldName) (changes : Keyed String (Value → Value)) (fields : Fields) :
    Fields :=
  names.foldr (fun n => rename n ((Keyed.get? changes n.camel).getD id)) fields

variable {n : FieldName} {change : Value → Value} {fields : Fields} {name : String}

theorem get?_rename :
    Keyed.get? (rename n change fields) name =
      if n.camel = name then (n.given? fields).map change
      else if n.used? fields = some name then none
      else Keyed.get? fields name := by
  unfold rename
  rw [FieldName.given?_eq_map]
  cases hused : n.used? fields with
  | none =>
    have hcamel : Keyed.get? fields n.camel = none := by
      simpa [Keyed.has] using (FieldName.used?_eq_none.mp hused).1
    by_cases h : n.camel = name
    · simp [← h, hcamel]
    · simp [h]
  | some used => simp [get?_set, get?_erase]

theorem get?_rename_of_ne (hcamel : n.camel ≠ name) (hsnake : n.snake ≠ name) :
    Keyed.get? (rename n change fields) name = Keyed.get? fields name := by
  rw [get?_rename, if_neg hcamel, if_neg]
  intro hused
  rcases FieldName.used?_eq_some hused with h | h
  · exact hcamel h.symm
  · exact hsnake h.symm

theorem Named.rename (h : fields.Named) : Named (Fields.rename n change fields) := by
  unfold Fields.rename
  split
  · exact h
  · exact Named.set (Named.erase h _) _ _

/-- Nothing is known under two of the four names. -/
def Clear (n m : FieldName) : Prop := Slots.Apart n m ∧ n.snake ≠ m.snake

instance (n m : FieldName) : Decidable (Clear n m) := by unfold Clear; infer_instance

variable {names : List FieldName} {changes : Keyed String (Value → Value)}

theorem Named.normal (h : fields.Named) : Named (Fields.normal names changes fields) := by
  induction names with
  | nil => exact h
  | cons m rest ih => exact ih.rename

theorem get?_normal_of_clear (h : ∀ m ∈ names, m.camel ≠ name ∧ m.snake ≠ name) :
    Keyed.get? (normal names changes fields) name = Keyed.get? fields name := by
  induction names with
  | nil => rfl
  | cons m rest ih =>
    obtain ⟨⟨hcamel, hsnake⟩, hrest⟩ := List.forall_mem_cons.mp h
    exact (get?_rename_of_ne hcamel hsnake).trans (ih hrest)

/-- Other fields are given as before. -/
theorem get?_names_normal (changes : Keyed String (Value → Value)) (fields : Fields)
    (h : ∀ m ∈ names, Clear n m) :
    Keyed.get? (normal names changes fields) n.camel = Keyed.get? fields n.camel ∧
      Keyed.get? (normal names changes fields) n.snake = Keyed.get? fields n.snake :=
  ⟨get?_normal_of_clear fun m hm => ⟨(h m hm).1.1.symm, (h m hm).1.2.2.symm⟩,
    get?_normal_of_clear fun m hm => ⟨(h m hm).1.2.1.symm, (h m hm).2.symm⟩⟩

theorem get?_normal_camel (hclear : names.Pairwise Clear) (hn : n ∈ names) :
    Keyed.get? (normal names changes fields) n.camel =
      (n.given? fields).map ((Keyed.get? changes n.camel).getD id) := by
  induction names with
  | nil => cases hn
  | cons m rest ih =>
    obtain ⟨hm, hrest⟩ := List.pairwise_cons.mp hclear
    -- The first name is renamed last, when the others have left both its names alone.
    show Keyed.get? (rename m _ (normal rest changes fields)) _ = _
    rcases List.mem_cons.mp hn with rfl | hn
    · obtain ⟨hcamel, hsnake⟩ := get?_names_normal changes fields hm
      rw [get?_rename, if_pos rfl, FieldName.given?, hcamel, hsnake, FieldName.given?]
    · rw [get?_rename_of_ne (hm n hn).1.1 (hm n hn).1.2.1, ih hrest hn]

theorem isKnown_cons {m : FieldName} {rest : List FieldName} :
    isKnown (m :: rest) fields (.str name) = true ↔
      m.used? fields = some name ∨ isKnown rest fields (.str name) = true := by
  simp [isKnown_eq_true]

/-- Under a name that is no first name, there is what was there and did not count. -/
theorem get?_normal_of_not_camel (hclear : names.Pairwise Clear)
    (hname : ∀ n ∈ names, name ≠ n.camel) :
    Keyed.get? (normal names changes fields) name =
      if isKnown names fields (.str name) then none else Keyed.get? fields name := by
  induction names with
  | nil => rfl
  | cons m rest ih =>
    obtain ⟨hm, hrest⟩ := List.pairwise_cons.mp hclear
    obtain ⟨hcamel, hothers⟩ := List.forall_mem_cons.mp hname
    obtain ⟨hcamels, hsnakes⟩ := get?_names_normal changes fields hm
    show Keyed.get? (rename m _ (normal rest changes fields)) _ = _
    rw [get?_rename, if_neg hcamel.symm, FieldName.used?_congr hcamels hsnakes, ih hrest hothers]
    by_cases hused : m.used? fields = some name
    · simp only [isKnown_cons, hused, true_or, if_true]
    · simp only [isKnown_cons, hused, false_or, if_false]

end Fields

/-! ### What is written -/

/-- What is written for a field is what it was given as, changed by `change`. -/
def FieldName.Written (n : FieldName) (source : Fields) (change : Value → Value)
    (value : Option Value) : Prop :=
  Option.Rel Value.Same value ((n.given? source).map change)

namespace Slots.Fit

variable {slots : List Slot} {source extra : Fields}

/-- Fields that are written are the same as others that have each slot under its first name, and
under every other name what did not count. -/
theorem same_of_get? (h : Fit slots source extra) {target : Fields} (htarget : target.Named)
    (hcamel : ∀ s ∈ slots, Option.Rel Value.Same s.2 (Keyed.get? target s.1.camel))
    (hother : ∀ name : String, (∀ n ∈ slots.map Prod.fst, name ≠ n.camel) →
      Keyed.get? target name =
        if isKnown (slots.map Prod.fst) source (.str name) then none
        else Keyed.get? source name) :
    Value.Same (.object (fields slots ++ extra)) (.object target) := by
  refine .of_names (named_of_unknownFields h.unknownFields_eq) htarget fun name => ?_
  by_cases hname : ∃ s ∈ slots, s.1.camel = name
  · obtain ⟨s, hs, rfl⟩ := hname
    rw [h.get?_camel hs]
    exact hcamel s hs
  · have hnot : ∀ n ∈ slots.map Prod.fst, name ≠ n.camel := by
      intro n hn heq
      obtain ⟨s, hs, rfl⟩ := List.mem_map.mp hn
      exact hname ⟨s, hs, heq.symm⟩
    rw [h.get?_of_not_camel hnot, hother name hnot]
    exact Value.rel_same_refl _

theorem same_normal {changes : Keyed String (Value → Value)} (h : Fit slots source extra)
    (hclear : (slots.map Prod.fst).Pairwise Fields.Clear)
    (hwritten : ∀ s ∈ slots,
      s.1.Written source ((Keyed.get? changes s.1.camel).getD id) s.2) :
    Value.Same (.object (fields slots ++ extra))
      (.object (Fields.normal (slots.map Prod.fst) changes source)) := by
  refine h.same_of_get? (named_of_unknownFields h.extra).normal (fun s hs => ?_)
    fun name => Fields.get?_normal_of_not_camel hclear
  rw [Fields.get?_normal_camel hclear (List.mem_map_of_mem hs)]
  exact hwritten s hs

/-- Names of one word stay as they are. -/
theorem same_of_words (h : Fit slots source extra)
    (hwords : ∀ s ∈ slots, s.1 = FieldName.word s.1.camel)
    (hwritten : ∀ s ∈ slots, s.1.Written source id s.2) :
    Value.Same (.object (fields slots ++ extra)) (.object source) := by
  refine h.same_of_get? (named_of_unknownFields h.extra) (fun s hs => ?_) fun name hname => ?_
  · have hgiven := hwritten s hs
    rwa [FieldName.Written, Option.map_id, hwords s hs, FieldName.given?_word] at hgiven
  · rw [if_neg]
    intro hknown
    obtain ⟨n, hn, used, hused, hkey⟩ := isKnown_eq_true.mp hknown
    obtain ⟨s, hs, rfl⟩ := List.mem_map.mp hn
    cases hkey
    rcases FieldName.used?_eq_some hused with hcamel | hsnake
    · exact hname _ hn hcamel
    · rw [hwords s hs] at hsnake
      exact hname _ hn hsnake

end Slots.Fit

/-- The truth value that a value names, as a value; other values stay as they are. -/
def Value.asTruth (v : Value) : Value := (v.truth?.map Value.bool).getD v

open FieldName Reading

section Fields

variable {α : Type} {n : FieldName} {source : Fields} {read : Value → Checked α}
  {change : Value → Value}

/-- What was read of a field is written when every value that it can be read from is. -/
theorem written_of_required {x : α} {written : Value} (h : n.required source read = .ok x)
    (hwritten : ∀ v, read v = .ok x → Value.Same written (change v)) :
    n.Written source change (some written) := by
  obtain ⟨v, hv, hread⟩ := required_eq_ok_iff.mp h
  rw [Written, hv]
  exact .some (hwritten v hread)

theorem written_of_optional {absent x : α} {written : Option Value}
    (h : n.optional source absent read = .ok x) (habsent : x = absent → written = none)
    (hwritten : ∀ v, read v = .ok x → ∃ w, written = some w ∧ Value.Same w (change v)) :
    n.Written source change written := by
  rw [Written]
  rcases optional_eq_ok_iff.mp h with ⟨hnone, hx⟩ | ⟨v, hv, hread⟩
  · rw [hnone, habsent hx]
    exact .none
  · obtain ⟨w, hw, hsame⟩ := hwritten v hread
    rw [hv, hw]
    exact .some hsame

theorem written_of_text {e : Entry String} (h : optionalText n source = .ok e) :
    n.Written source id (e.value? .str) := by
  refine written_of_optional h (fun he => by rw [he]; rfl) fun v htext => ?_
  cases v <;> cases htext <;> exact ⟨_, rfl, .refl _⟩

theorem written_of_flag {e : Entry Bool} (h : n.optional source .absent flag = .ok e) :
    n.Written source Value.asTruth (e.value? .bool) := by
  refine written_of_optional h (fun he => by rw [he]; rfl) fun v hflag => ?_
  cases e with
  | absent => exact absurd hflag flag_ne_absent
  | null =>
    rw [flag_eq_null.mp hflag]
    exact ⟨_, rfl, .refl _⟩
  | given b =>
    have htruth : v.asTruth = .bool b := by simp [Value.asTruth, flag_eq_given.mp hflag]
    rw [htruth]
    exact ⟨_, rfl, .refl _⟩

/-- A part is written as its fields are. -/
theorem written_of_part {name : String} {ofFields : Fields → Checked α} {write : α → Fields}
    {o : Option α} (h : optionalPart n source (part name ofFields) = .ok o)
    (hwrite : ∀ x inner, ofFields inner = .ok x →
      Value.Same (.object (write x)) (change (.object inner))) :
    n.Written source change (o.map fun x => .object (write x)) := by
  refine written_of_optional h (fun ho => by rw [ho]; rfl) fun v hread => ?_
  obtain ⟨x, hx, rfl⟩ := Checked.both_ok_eq_ok.mp hread
  obtain ⟨inner, rfl, hinner⟩ := part_eq_ok.mp hx
  exact ⟨_, rfl, hwrite x inner hinner⟩

end Fields

/-! ### Parts whose names are all of one word -/

theorem FontFamily.ReadFrom.same {f : FontFamily} {source : Fields} (h : f.ReadFrom source) :
    Value.Same (.object (f.write .given)) (.object source) := by
  rw [FontFamily.write_eq]
  refine h.fit.same_of_words (by simp [slots, word]) ?_
  simp only [slots, List.forall_mem_cons, List.not_mem_nil, false_implies, implies_true, and_true]
  exact ⟨written_of_text h.heading, written_of_text h.body⟩

theorem TextColors.ReadFrom.same {c : TextColors} {source : Fields} (h : c.ReadFrom source) :
    Value.Same (.object (c.write .given)) (.object source) := by
  rw [TextColors.write_eq]
  refine h.fit.same_of_words (by simp [slots, word]) ?_
  simp only [slots, List.forall_mem_cons, List.not_mem_nil, false_implies, implies_true, and_true]
  exact ⟨written_of_text h.primary, written_of_text h.secondary, written_of_text h.accent⟩

theorem Palette.ReadFrom.same {p : Palette} {source : Fields} (h : p.ReadFrom source) :
    Value.Same (.object (p.write .given)) (.object source) := by
  rw [Palette.write_eq]
  refine h.fit.same_of_words (by simp [slots, word]) ?_
  simp only [slots, List.forall_mem_cons, List.not_mem_nil, false_implies, implies_true, and_true]
  exact ⟨written_of_text h.primary, written_of_text h.secondary, written_of_text h.background,
    written_of_text h.surface,
    written_of_part h.text fun _ _ hx => (TextColors.ofFields_eq_ok.mp hx).same,
    written_of_text h.border, written_of_text h.divider⟩

theorem Section.ReadFrom.same {s : Section} {source : Fields} (h : s.ReadFrom source) :
    Value.Same (.object s.write) (.object source) := by
  have hkept {v w : Value} (heq : v = w) : Value.Same w v := heq ▸ .refl _
  rw [Section.write_eq]
  refine h.fit.same_of_words (by simp [slots, word]) ?_
  simp only [slots, List.forall_mem_cons, List.not_mem_nil, false_implies, implies_true, and_true]
  exact ⟨written_of_required h.id fun _ hv => hkept (readId_eq_ok.mp hv).1,
    written_of_required h.visible fun _ hv => hkept (readVisible_eq_ok.mp hv),
    written_of_required h.order fun _ hv => hkept (readOrder_eq_ok.mp hv).1,
    written_of_required h.column fun _ hv => hkept (readColumn_eq_ok.mp hv)⟩

/-! ### Parts whose known fields come back under their first names -/

/-- A value with known fields under their first names, where it is an object. -/
def Value.normal (names : List FieldName) (changes : Keyed String (Value → Value)) :
    Value → Value
  | .object fields => .object (Fields.normal names changes fields)
  | v => v

def Layout.normal : Value → Value := Value.normal names [("showPageNumbers", Value.asTruth)]

/-- Of a field under both names, the one under the second name is an unknown field. -/
example :
    Layout.normal (.object
      [("paper_size", .str "a4"), ("show_page_numbers", .int 1),
       ("columnDistribution", .str "60-40"), ("column_distribution", .int 3)]) =
    .object
      [("column_distribution", .int 3), ("showPageNumbers", .bool true),
       ("columnDistribution", .str "60-40"), ("paperSize", .str "a4")] := by rfl

theorem Layout.ReadFrom.same {l : Layout} {source : Fields} (h : l.ReadFrom source) :
    Value.Same (.object (l.write .given)) (Layout.normal (.object source)) := by
  rw [Layout.write_eq]
  refine h.fit.same_normal (by decide : Layout.names.Pairwise Fields.Clear) ?_
  simp only [slots, List.forall_mem_cons, List.not_mem_nil, false_implies, implies_true, and_true]
  exact ⟨written_of_text h.type, written_of_text h.paperSize, written_of_text h.margins,
    written_of_text h.columnDistribution, written_of_text h.pageBreakBehavior,
    written_of_flag h.showPageNumbers, written_of_text h.pageNumberPosition⟩

def Typography.normal : Value → Value := Value.normal names []

theorem Typography.ReadFrom.same {t : Typography} {source : Fields} (h : t.ReadFrom source) :
    Value.Same (.object (t.write .given)) (Typography.normal (.object source)) := by
  rw [Typography.write_eq]
  refine h.fit.same_normal (by decide : Typography.names.Pairwise Fields.Clear) ?_
  simp only [slots, List.forall_mem_cons, List.not_mem_nil, false_implies, implies_true, and_true]
  exact ⟨written_of_part h.fontFamily fun _ _ hx => (FontFamily.ofFields_eq_ok.mp hx).same,
    written_of_text h.fontSize, written_of_text h.headingStyle⟩

def Colors.normal : Value → Value := Value.normal names []

theorem Colors.ReadFrom.same {c : Colors} {source : Fields} (h : c.ReadFrom source) :
    Value.Same (.object (c.write .given)) (Colors.normal (.object source)) := by
  rw [Colors.write_eq]
  refine h.fit.same_normal (by decide : Colors.names.Pairwise Fields.Clear) ?_
  simp only [slots, List.forall_mem_cons, List.not_mem_nil, false_implies, implies_true, and_true]
  exact ⟨written_of_part h.colors fun _ _ hx => (Palette.ofFields_eq_ok.mp hx).same,
    written_of_text h.borderRadius, written_of_text h.shadows⟩

def Spacing.normal : Value → Value := Value.normal names []

theorem Spacing.ReadFrom.same {s : Spacing} {source : Fields} (h : s.ReadFrom source) :
    Value.Same (.object (s.write .given)) (Spacing.normal (.object source)) := by
  rw [Spacing.write_eq]
  refine h.fit.same_normal (by decide : Spacing.names.Pairwise Fields.Clear) ?_
  simp only [slots, List.forall_mem_cons, List.not_mem_nil, false_implies, implies_true, and_true]
  exact ⟨written_of_text h.density, written_of_text h.sectionGap, written_of_text h.itemGap,
    written_of_text h.contentPadding⟩

def Tokens.normal : Value → Value :=
  Value.normal names
    [("typography", Typography.normal), ("colors", Colors.normal), ("spacing", Spacing.normal)]

theorem Tokens.ReadFrom.same {t : Tokens} {source : Fields} (h : t.ReadFrom source) :
    Value.Same (.object (t.write .given)) (Tokens.normal (.object source)) := by
  rw [Tokens.write_eq]
  refine h.fit.same_normal (by decide : Tokens.names.Pairwise Fields.Clear) ?_
  simp only [slots, List.forall_mem_cons, List.not_mem_nil, false_implies, implies_true, and_true]
  exact ⟨written_of_part h.typography fun _ _ hx => (Typography.ofFields_eq_ok.mp hx).same,
    written_of_part h.colors fun _ _ hx => (Colors.ofFields_eq_ok.mp hx).same,
    written_of_part h.spacing fun _ _ hx => (Spacing.ofFields_eq_ok.mp hx).same⟩

/-! ### Documents -/

namespace Document

/-- A document with all known fields under their first names, and with the truth value itself
where one is named. -/
def normal : Value → Value :=
  Value.normal names [("layout", Layout.normal), ("tokens", Tokens.normal)]

theorem same_of_readList {v : Value} {sections : List Section}
    (h : readList Section.read v = .ok sections) :
    Value.Same (.list (sections.map fun s => .object s.write)) v := by
  obtain ⟨items, rfl, hall⟩ := readList_eq_ok.mp h
  refine .list ?_
  rw [List.forall₂_map_left_iff]
  refine hall.flip.imp fun s item hread => ?_
  obtain ⟨fields, rfl, hfields⟩ := part_eq_ok.mp hread
  exact (Section.ofFields_eq_ok.mp hfields).same

theorem ReadFrom.same {d : Document} {source : Fields} (h : d.ReadFrom source) :
    Value.Same (.object d.given) (normal (.object source)) := by
  rw [given_eq]
  refine h.fit.same_normal (by decide : Document.names.Pairwise Fields.Clear) ?_
  simp only [slots, List.forall_mem_cons, List.not_mem_nil, false_implies, implies_true, and_true]
  refine ⟨written_of_required h.version fun v hv => ?_,
    written_of_required h.layout fun v hv => ?_, written_of_required h.tokens fun v hv => ?_,
    written_of_required h.sections fun v hv => same_of_readList hv,
    written_of_optional h.itemOverrides (fun ho => by rw [ho]; rfl) fun v hv => ?_⟩
  · rw [(readVersion_eq_ok.mp hv).1]
    exact .refl _
  · obtain ⟨inner, rfl, hinner⟩ := part_eq_ok.mp hv
    exact (Layout.ofFields_eq_ok.mp hinner).same
  · obtain ⟨inner, rfl, hinner⟩ := part_eq_ok.mp hv
    exact (Tokens.ofFields_eq_ok.mp hinner).same
  · cases ho : d.itemOverrides with
    | none =>
      rw [ho] at hv
      exact absurd hv readOverrides_ne_none
    | some overrides =>
      rw [ho] at hv
      exact ⟨_, rfl, overridesValue_eq hv ▸ .refl _⟩

/-- **A document gives back the value that it was read from**, with known fields under their
first names and truth values as such, and is read from that again. -/
theorem read_lossless {v : Value} {d : Document} (h : Document.read v = .ok d) :
    Value.Same (.object d.given) (normal v) ∧ Document.read (.object d.given) = .ok d := by
  obtain ⟨fields, rfl, hd⟩ := read_eq_ok.mp h
  exact ⟨hd.same, read_eq_ok.mpr ⟨_, rfl, hd.reread⟩⟩

/-- A document with fields under either name and under both, with unknown fields, a number for a
truth value, an explicit null, a part without fields, and a fraction for an order. -/
def mixedSpellings : Value :=
  .object
    [("version", .str "1.1"), ("author", .list [.null]),
     ("layout", .object
       [("paper_size", .str "a4"), ("margins", .null), ("show_page_numbers", .int 1),
        ("columnDistribution", .str "60-40"), ("column_distribution", .int 3)]),
     ("tokens", .object [("typography", .object []), ("colors", .object [("tint", .int 1)])]),
     ("sections", .list [.object
       [("column", .str "main"), ("visible", .bool true), ("id", .str "skills"),
        ("order", .float (Binary64.ofRatio false 3 2)), ("icon", .str "star")]]),
     ("item_overrides", .object [("skills", .list [.object [("title", .null)]])])]

theorem read_lossless_mixedSpellings :
    ∃ d, Document.read mixedSpellings = .ok d ∧
      Value.Same (.object d.given) (normal mixedSpellings) ∧
        Document.read (.object d.given) = .ok d := by
  obtain ⟨d, hread⟩ : ∃ d, Document.read mixedSpellings = .ok d := ⟨_, by rfl⟩
  exact ⟨d, hread, read_lossless hread⟩

end Document

end Vitae
