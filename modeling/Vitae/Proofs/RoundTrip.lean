import Vitae.Proofs.Slots

/-! Reading back what was written.

For each part: the slots that it is written as, that they fit what it was read from, and
that reading gives the part again. Together they make `Document.ReadFrom.reread`: a document
that was read is the document that is read from the fields it gives. -/

namespace Vitae

/-! ### Parts -/

open FieldName Reading Slots

namespace Slots

theorem fields_cons_cons (s t : Slot) (rest : List Slot) :
    fields (s :: t :: rest) = fields [s] ++ fields (t :: rest) :=
  fields_cons s (t :: rest)

theorem fields_entry {α : Type} (n : FieldName) (write : α → Value) (e : Entry α) :
    fields [(n, e.value? write)] = Writing.entry .given n.camel write e := by
  cases e <;> rfl

theorem fields_part {α : Type} (n : FieldName) (write : α → Fields) (empty : α) (o : Option α) :
    fields [(n, o.map fun x => .object (write x))] =
      Writing.part .given n.camel write empty o := by
  cases o <;> rfl

end Slots

def Layout.slots (l : Layout) : List Slot :=
  [(word "type", l.type.value? .str),
   (⟨"paperSize", "paper_size"⟩, l.paperSize.value? .str),
   (word "margins", l.margins.value? .str),
   (⟨"columnDistribution", "column_distribution"⟩, l.columnDistribution.value? .str),
   (⟨"pageBreakBehavior", "page_break_behavior"⟩, l.pageBreakBehavior.value? .str),
   (⟨"showPageNumbers", "show_page_numbers"⟩, l.showPageNumbers.value? .bool),
   (⟨"pageNumberPosition", "page_number_position"⟩, l.pageNumberPosition.value? .str)]

theorem Layout.write_eq (l : Layout) : l.write .given = Slots.fields l.slots ++ l.extra := by
  simp only [Layout.write, Layout.slots, Writing.leaf, word, fields_cons_cons, fields_entry,
    List.append_assoc]

theorem Layout.ReadFrom.fit {l : Layout} {source : Fields} (h : l.ReadFrom source) :
    Fit l.slots source l.extra where
  apart := (by decide : Layout.names.Pairwise Apart)
  extra := h.extra
  absent := by
    simp only [slots, List.forall_mem_cons, List.not_mem_nil, false_implies, implies_true, and_true]
    exact ⟨used?_of_text h.type, used?_of_text h.paperSize, used?_of_text h.margins,
      used?_of_text h.columnDistribution, used?_of_text h.pageBreakBehavior,
      used?_of_flag h.showPageNumbers, used?_of_text h.pageNumberPosition⟩

theorem Layout.ReadFrom.reread {l : Layout} {source : Fields} (h : l.ReadFrom source) :
    l.ReadFrom (l.write .given) := by
  have hfit := h.fit
  rw [Layout.write_eq]
  exact
    { type := hfit.text_eq_ok (by simp [slots])
      paperSize := hfit.text_eq_ok (by simp [slots])
      margins := hfit.text_eq_ok (by simp [slots])
      columnDistribution := hfit.text_eq_ok (by simp [slots])
      pageBreakBehavior := hfit.text_eq_ok (by simp [slots])
      showPageNumbers := hfit.flag_eq_ok (by simp [slots])
      pageNumberPosition := hfit.text_eq_ok (by simp [slots])
      extra := hfit.unknownFields_eq }

def FontFamily.slots (f : FontFamily) : List Slot :=
  [(word "heading", f.heading.value? .str),
   (word "body", f.body.value? .str)]

theorem FontFamily.write_eq (f : FontFamily) : f.write .given = Slots.fields f.slots ++ f.extra := by
  simp only [FontFamily.write, FontFamily.slots, Writing.leaf, word, fields_cons_cons, fields_entry,
    List.append_assoc]

theorem FontFamily.ReadFrom.fit {f : FontFamily} {source : Fields} (h : f.ReadFrom source) :
    Fit f.slots source f.extra where
  apart := (by decide : FontFamily.names.Pairwise Apart)
  extra := h.extra
  absent := by
    simp only [slots, List.forall_mem_cons, List.not_mem_nil, false_implies, implies_true, and_true]
    exact ⟨used?_of_text h.heading, used?_of_text h.body⟩

theorem FontFamily.ReadFrom.reread {f : FontFamily} {source : Fields} (h : f.ReadFrom source) :
    f.ReadFrom (f.write .given) := by
  have hfit := h.fit
  rw [FontFamily.write_eq]
  exact
    { heading := hfit.text_eq_ok (by simp [slots])
      body := hfit.text_eq_ok (by simp [slots])
      extra := hfit.unknownFields_eq }

def Typography.slots (t : Typography) : List Slot :=
  [(⟨"fontFamily", "font_family"⟩, t.fontFamily.map fun x => .object (x.write .given)),
   (⟨"fontSize", "font_size"⟩, t.fontSize.value? .str),
   (⟨"headingStyle", "heading_style"⟩, t.headingStyle.value? .str)]

theorem Typography.write_eq (t : Typography) : t.write .given = Slots.fields t.slots ++ t.extra := by
  simp only [Typography.write, Typography.slots, Writing.leaf, fields_cons_cons, fields_entry,
    fields_part _ (FontFamily.write .given) {},
    List.append_assoc]

theorem Typography.ReadFrom.fit {t : Typography} {source : Fields} (h : t.ReadFrom source) :
    Fit t.slots source t.extra where
  apart := (by decide : Typography.names.Pairwise Apart)
  extra := h.extra
  absent := by
    simp only [slots, List.forall_mem_cons, List.not_mem_nil, false_implies, implies_true, and_true]
    exact ⟨used?_of_part h.fontFamily, used?_of_text h.fontSize, used?_of_text h.headingStyle⟩

theorem Typography.ReadFrom.reread {t : Typography} {source : Fields} (h : t.ReadFrom source) :
    t.ReadFrom (t.write .given) := by
  have hfit := h.fit
  rw [Typography.write_eq]
  exact
    { fontFamily := hfit.part_eq_ok (by simp [slots]) h.fontFamily fun _ _ hx =>
        FontFamily.ofFields_eq_ok.mpr (FontFamily.ofFields_eq_ok.mp hx).reread
      fontSize := hfit.text_eq_ok (by simp [slots])
      headingStyle := hfit.text_eq_ok (by simp [slots])
      extra := hfit.unknownFields_eq }

def TextColors.slots (c : TextColors) : List Slot :=
  [(word "primary", c.primary.value? .str),
   (word "secondary", c.secondary.value? .str),
   (word "accent", c.accent.value? .str)]

theorem TextColors.write_eq (c : TextColors) : c.write .given = Slots.fields c.slots ++ c.extra := by
  simp only [TextColors.write, TextColors.slots, Writing.leaf, word, fields_cons_cons, fields_entry,
    List.append_assoc]

theorem TextColors.ReadFrom.fit {c : TextColors} {source : Fields} (h : c.ReadFrom source) :
    Fit c.slots source c.extra where
  apart := (by decide : TextColors.names.Pairwise Apart)
  extra := h.extra
  absent := by
    simp only [slots, List.forall_mem_cons, List.not_mem_nil, false_implies, implies_true, and_true]
    exact ⟨used?_of_text h.primary, used?_of_text h.secondary, used?_of_text h.accent⟩

theorem TextColors.ReadFrom.reread {c : TextColors} {source : Fields} (h : c.ReadFrom source) :
    c.ReadFrom (c.write .given) := by
  have hfit := h.fit
  rw [TextColors.write_eq]
  exact
    { primary := hfit.text_eq_ok (by simp [slots])
      secondary := hfit.text_eq_ok (by simp [slots])
      accent := hfit.text_eq_ok (by simp [slots])
      extra := hfit.unknownFields_eq }

def Palette.slots (p : Palette) : List Slot :=
  [(word "primary", p.primary.value? .str),
   (word "secondary", p.secondary.value? .str),
   (word "background", p.background.value? .str),
   (word "surface", p.surface.value? .str),
   (word "text", p.text.map fun x => .object (x.write .given)),
   (word "border", p.border.value? .str),
   (word "divider", p.divider.value? .str)]

theorem Palette.write_eq (p : Palette) : p.write .given = Slots.fields p.slots ++ p.extra := by
  simp only [Palette.write, Palette.slots, Writing.leaf, word, fields_cons_cons, fields_entry,
    fields_part _ (TextColors.write .given) {},
    List.append_assoc]

theorem Palette.ReadFrom.fit {p : Palette} {source : Fields} (h : p.ReadFrom source) :
    Fit p.slots source p.extra where
  apart := (by decide : Palette.names.Pairwise Apart)
  extra := h.extra
  absent := by
    simp only [slots, List.forall_mem_cons, List.not_mem_nil, false_implies, implies_true, and_true]
    exact ⟨used?_of_text h.primary, used?_of_text h.secondary, used?_of_text h.background,
      used?_of_text h.surface, used?_of_part h.text, used?_of_text h.border,
      used?_of_text h.divider⟩

theorem Palette.ReadFrom.reread {p : Palette} {source : Fields} (h : p.ReadFrom source) :
    p.ReadFrom (p.write .given) := by
  have hfit := h.fit
  rw [Palette.write_eq]
  exact
    { primary := hfit.text_eq_ok (by simp [slots])
      secondary := hfit.text_eq_ok (by simp [slots])
      background := hfit.text_eq_ok (by simp [slots])
      surface := hfit.text_eq_ok (by simp [slots])
      text := hfit.part_eq_ok (by simp [slots]) h.text fun _ _ hx =>
        TextColors.ofFields_eq_ok.mpr (TextColors.ofFields_eq_ok.mp hx).reread
      border := hfit.text_eq_ok (by simp [slots])
      divider := hfit.text_eq_ok (by simp [slots])
      extra := hfit.unknownFields_eq }

def Colors.slots (c : Colors) : List Slot :=
  [(word "colors", c.colors.map fun x => .object (x.write .given)),
   (⟨"borderRadius", "border_radius"⟩, c.borderRadius.value? .str),
   (word "shadows", c.shadows.value? .str)]

theorem Colors.write_eq (c : Colors) : c.write .given = Slots.fields c.slots ++ c.extra := by
  simp only [Colors.write, Colors.slots, Writing.leaf, word, fields_cons_cons, fields_entry,
    fields_part _ (Palette.write .given) {},
    List.append_assoc]

theorem Colors.ReadFrom.fit {c : Colors} {source : Fields} (h : c.ReadFrom source) :
    Fit c.slots source c.extra where
  apart := (by decide : Colors.names.Pairwise Apart)
  extra := h.extra
  absent := by
    simp only [slots, List.forall_mem_cons, List.not_mem_nil, false_implies, implies_true, and_true]
    exact ⟨used?_of_part h.colors, used?_of_text h.borderRadius, used?_of_text h.shadows⟩

theorem Colors.ReadFrom.reread {c : Colors} {source : Fields} (h : c.ReadFrom source) :
    c.ReadFrom (c.write .given) := by
  have hfit := h.fit
  rw [Colors.write_eq]
  exact
    { colors := hfit.part_eq_ok (by simp [slots]) h.colors fun _ _ hx =>
        Palette.ofFields_eq_ok.mpr (Palette.ofFields_eq_ok.mp hx).reread
      borderRadius := hfit.text_eq_ok (by simp [slots])
      shadows := hfit.text_eq_ok (by simp [slots])
      extra := hfit.unknownFields_eq }

def Spacing.slots (s : Spacing) : List Slot :=
  [(word "density", s.density.value? .str),
   (⟨"sectionGap", "section_gap"⟩, s.sectionGap.value? .str),
   (⟨"itemGap", "item_gap"⟩, s.itemGap.value? .str),
   (⟨"contentPadding", "content_padding"⟩, s.contentPadding.value? .str)]

theorem Spacing.write_eq (s : Spacing) : s.write .given = Slots.fields s.slots ++ s.extra := by
  simp only [Spacing.write, Spacing.slots, Writing.leaf, word, fields_cons_cons, fields_entry,
    List.append_assoc]

theorem Spacing.ReadFrom.fit {s : Spacing} {source : Fields} (h : s.ReadFrom source) :
    Fit s.slots source s.extra where
  apart := (by decide : Spacing.names.Pairwise Apart)
  extra := h.extra
  absent := by
    simp only [slots, List.forall_mem_cons, List.not_mem_nil, false_implies, implies_true, and_true]
    exact ⟨used?_of_text h.density, used?_of_text h.sectionGap, used?_of_text h.itemGap,
      used?_of_text h.contentPadding⟩

theorem Spacing.ReadFrom.reread {s : Spacing} {source : Fields} (h : s.ReadFrom source) :
    s.ReadFrom (s.write .given) := by
  have hfit := h.fit
  rw [Spacing.write_eq]
  exact
    { density := hfit.text_eq_ok (by simp [slots])
      sectionGap := hfit.text_eq_ok (by simp [slots])
      itemGap := hfit.text_eq_ok (by simp [slots])
      contentPadding := hfit.text_eq_ok (by simp [slots])
      extra := hfit.unknownFields_eq }

def Tokens.slots (t : Tokens) : List Slot :=
  [(word "typography", t.typography.map fun x => .object (x.write .given)),
   (word "colors", t.colors.map fun x => .object (x.write .given)),
   (word "spacing", t.spacing.map fun x => .object (x.write .given))]

theorem Tokens.write_eq (t : Tokens) : t.write .given = Slots.fields t.slots ++ t.extra := by
  simp only [Tokens.write, Tokens.slots, word, fields_cons_cons,
    fields_part _ (Typography.write .given) {},
    fields_part _ (Colors.write .given) {},
    fields_part _ (Spacing.write .given) {},
    List.append_assoc]

theorem Tokens.ReadFrom.fit {t : Tokens} {source : Fields} (h : t.ReadFrom source) :
    Fit t.slots source t.extra where
  apart := (by decide : Tokens.names.Pairwise Apart)
  extra := h.extra
  absent := by
    simp only [slots, List.forall_mem_cons, List.not_mem_nil, false_implies, implies_true, and_true]
    exact ⟨used?_of_part h.typography, used?_of_part h.colors, used?_of_part h.spacing⟩

theorem Tokens.ReadFrom.reread {t : Tokens} {source : Fields} (h : t.ReadFrom source) :
    t.ReadFrom (t.write .given) := by
  have hfit := h.fit
  rw [Tokens.write_eq]
  exact
    { typography := hfit.part_eq_ok (by simp [slots]) h.typography fun _ _ hx =>
        Typography.ofFields_eq_ok.mpr (Typography.ofFields_eq_ok.mp hx).reread
      colors := hfit.part_eq_ok (by simp [slots]) h.colors fun _ _ hx =>
        Colors.ofFields_eq_ok.mpr (Colors.ofFields_eq_ok.mp hx).reread
      spacing := hfit.part_eq_ok (by simp [slots]) h.spacing fun _ _ hx =>
        Spacing.ofFields_eq_ok.mpr (Spacing.ofFields_eq_ok.mp hx).reread
      extra := hfit.unknownFields_eq }

/-! ### Sections -/

theorem Column.ofName?_eq_some {name : String} {c : Column} :
    Column.ofName? name = some c ↔ name = c.name := by
  constructor
  · intro h
    have hname := List.find?_some h
    exact (beq_iff_eq.mp hname).symm
  · intro h
    subst h
    cases c <;> rfl

namespace Section

def slots (s : Section) : List Slot :=
  [(word "id", some (.str s.id)), (word "visible", some (.bool s.visible)),
   (word "order", some (.ofNumber s.order)), (word "column", some (.str s.column.name))]

theorem write_eq (s : Section) : s.write = Slots.fields s.slots ++ s.extra := rfl

theorem readVisible_eq_ok {v : Value} {b : Bool} : readVisible v = .ok b ↔ v = .bool b := by
  cases v <;> simp [readVisible]

theorem readOrder_eq_ok {v : Value} {n : Number} :
    readOrder v = .ok n ↔ v = .ofNumber n ∧ n.isFinite = true := by
  have hnumber : v.number? = some n ↔ v = .ofNumber n := by
    cases v <;> cases n <;> simp [Value.number?, Value.ofNumber]
  rw [← hnumber, readOrder]
  cases v.number? with
  | none => simp
  | some found =>
    simp only [Option.some.injEq]
    split
    · rename_i hfinite
      simp only [Checked.ok.injEq]
      exact ⟨fun h => ⟨h, h ▸ hfinite⟩, And.left⟩
    · rename_i hnot
      simp only [Checked.fault_ne_ok, false_iff, not_and]
      exact fun h hfinite => hnot (h ▸ hfinite)

theorem readColumn_eq_ok {v : Value} {c : Column} : readColumn v = .ok c ↔ v = .str c.name := by
  cases v <;> simp only [readColumn, Checked.fault_ne_ok, reduceCtorEq]
  case str s =>
    rw [Value.str.injEq, ← Column.ofName?_eq_some]
    cases Column.ofName? s <;> simp

theorem readId_eq_ok {v : Value} {id : String} :
    readId v = .ok id ↔ v = .str id ∧ id ≠ "" := by
  cases v <;> simp only [readId, Checked.fault_ne_ok, reduceCtorEq, false_and]
  case str s =>
    split
    · rename_i hempty
      simp only [Checked.fault_ne_ok, Value.str.injEq, false_iff, not_and, not_not]
      exact fun h => h ▸ hempty
    · rename_i hne
      simp only [Checked.ok.injEq, Value.str.injEq]
      exact ⟨fun h => ⟨h, h ▸ hne⟩, And.left⟩

theorem ReadFrom.fit {s : Section} {source : Fields} (h : s.ReadFrom source) :
    Fit s.slots source s.extra where
  apart := (by decide : Section.names.Pairwise Apart)
  extra := h.extra
  absent := by simp [slots]

theorem ReadFrom.reread {s : Section} {source : Fields} (h : s.ReadFrom source) :
    s.ReadFrom s.write := by
  have hfit := h.fit
  obtain ⟨_, _, hid⟩ := required_eq_ok.mp h.id
  rw [write_eq]
  exact
    { id := hfit.required_eq_ok (by simp [slots]) (readId_eq_ok.mpr ⟨rfl, (readId_eq_ok.mp hid).2⟩)
      visible := hfit.required_eq_ok (v := .bool s.visible) (by simp [slots]) rfl
      order := hfit.required_eq_ok (by simp [slots]) (readOrder_eq_ok.mpr ⟨rfl, h.finite⟩)
      column := hfit.required_eq_ok (by simp [slots]) (readColumn_eq_ok.mpr rfl)
      extra := hfit.unknownFields_eq }

end Section

/-! ### The whole -/

namespace Document

theorem readSections_write {source : Value} {sections : List Section}
    (h : readList Section.read source = .ok sections) :
    readList Section.read (.list (sections.map fun s => .object s.write)) = .ok sections := by
  obtain ⟨items, _, hall⟩ := readList_eq_ok.mp h
  refine readList_eq_ok.mpr ⟨_, rfl, ?_⟩
  rw [List.forall₂_map_left_iff, List.forall₂_same]
  intro s hs
  obtain ⟨_, _, hread⟩ := Checked.exists_of_mem hall hs
  obtain ⟨_, _, hread⟩ := part_eq_ok.mp hread
  exact Section.ofFields_eq_ok.mpr (Section.ofFields_eq_ok.mp hread).reread

theorem readName_eq_ok {key : Key} {name : String} : readName key = .ok name ↔ key = .str name := by
  cases key <;> simp [readName]

theorem readEntry_eq_ok {α : Type} {read : Value → Checked α} {entry : Key × Value}
    {found : String × α} :
    readEntry read entry = .ok found ↔ entry.1 = .str found.1 ∧ read entry.2 = .ok found.2 := by
  obtain ⟨name, x⟩ := found
  simp only [readEntry, Checked.both_eq_ok, readName_eq_ok, Checked.under_eq_ok]
  constructor
  · intro h
    obtain ⟨_, _, ⟨_, _, hmk, hname, rfl⟩, hread, hfound⟩ := h
    cases hmk
    cases hfound
    exact ⟨hname, hread⟩
  · intro h
    obtain ⟨hname, hread⟩ := h
    exact ⟨_, _, ⟨_, _, rfl, hname, rfl⟩, hread, rfl⟩

/-- Entries with names of their own, as fields. -/
theorem forall₂_entries_iff {fields : Fields} {entries : Keyed String Value} :
    List.Forall₂ (fun f e => f.1 = Key.str e.1 ∧ f.2 = e.2) fields entries ↔
      fields = entries.map fun e => (.str e.1, e.2) := by
  constructor
  · intro h
    induction h with
    | nil => rfl
    | cons hf _ ih =>
      obtain ⟨hname, hvalue⟩ := hf
      rw [List.map_cons, ← ih, ← hname, ← hvalue]
  · intro heq
    subst heq
    rw [List.forall₂_map_left_iff, List.forall₂_same]
    exact fun _ _ => ⟨rfl, rfl⟩

theorem named_iff {fields : Fields} :
    fields.Named ↔ ∃ entries : Keyed String Value, fields = entries.map fun e => (.str e.1, e.2) := by
  constructor
  · intro h
    induction fields with
    | nil => exact ⟨[], rfl⟩
    | cons f rest ih =>
      obtain ⟨name, hname⟩ := h f (List.mem_cons_self ..)
      obtain ⟨entries, hentries⟩ := ih fun g hg => h g (List.mem_cons_of_mem _ hg)
      exact ⟨(name, f.2) :: entries, by rw [List.map_cons, ← hentries, ← hname]⟩
  · intro hparts f hf
    obtain ⟨entries, rfl⟩ := hparts
    obtain ⟨e, _, rfl⟩ := List.mem_map.mp hf
    exact ⟨e.1, rfl⟩

/-- An object is read as it is when its keys are texts. -/
theorem readObject_eq_ok {v : Value} {found : Fields} :
    readObject v = .ok found ↔ v = .object found ∧ found.Named := by
  cases v <;> simp only [readObject, Checked.fault_ne_ok, reduceCtorEq, false_and]
  case object fields =>
    simp only [Checked.both_ok_eq_ok, Checked.each_eq_ok, readEntry_eq_ok, Checked.ok.injEq,
      forall₂_entries_iff, Value.object.injEq, named_iff]
    constructor
    · intro h
      obtain ⟨entries, rfl, rfl⟩ := h
      exact ⟨rfl, entries, rfl⟩
    · intro h
      obtain ⟨rfl, entries, hentries⟩ := h
      exact ⟨entries, hentries, hentries.symm⟩

theorem readOverrides_eq_ok {v : Value} {found : Option (Keyed String (List Fields))} :
    readOverrides v = .ok found ↔
      ∃ fields overrides, v = .object fields ∧ found = some overrides ∧
        List.Forall₂ (fun f e => readEntry (readList readObject) f = .ok e) fields overrides := by
  cases v <;> simp only [readOverrides, Checked.fault_ne_ok, reduceCtorEq, false_and, exists_false]
  case object fields =>
    simp only [Checked.both_ok_eq_ok, Checked.each_eq_ok, Value.object.injEq]
    constructor
    · intro h
      obtain ⟨overrides, hentries, rfl⟩ := h
      exact ⟨fields, overrides, rfl, rfl, hentries⟩
    · intro h
      obtain ⟨_, overrides, rfl, rfl, hentries⟩ := h
      exact ⟨overrides, hentries, rfl⟩

/-- Overrides are written as they were read. -/
theorem overridesValue_eq {v : Value} {overrides : Keyed String (List Fields)}
    (h : readOverrides v = .ok (some overrides)) : overridesValue overrides = v := by
  obtain ⟨_, _, rfl, hsome, hentries⟩ := readOverrides_eq_ok.mp h
  cases hsome
  rw [overridesValue, Value.object.injEq, ← List.forall₂_eq_eq_eq, List.forall₂_map_left_iff]
  refine hentries.flip.imp fun e f hentry => ?_
  obtain ⟨hname, hlist⟩ := readEntry_eq_ok.mp hentry
  obtain ⟨items, hitems, hall⟩ := readList_eq_ok.mp hlist
  have hobjects : e.2.map Value.object = items := by
    rw [← List.forall₂_eq_eq_eq, List.forall₂_map_left_iff]
    exact hall.flip.imp fun _ _ hread => (readObject_eq_ok.mp hread).1.symm
  rw [hobjects, ← hname, ← hitems]

theorem readOverrides_ne_none {v : Value} : readOverrides v ≠ .ok none := by
  simp [readOverrides_eq_ok]

def slots (d : Document) : List Slot :=
  [(word "version", some (.str d.version)), (word "layout", some (.object (d.layout.write .given))),
   (word "tokens", some (.object (d.tokens.write .given))),
   (word "sections", some (.list (d.sections.map fun s => .object s.write))),
   (⟨"itemOverrides", "item_overrides"⟩, d.itemOverrides.map overridesValue)]

theorem given_eq (d : Document) : d.given = Slots.fields d.slots ++ d.extra := by
  obtain ⟨version, layout, tokens, sections, overrides, extra⟩ := d
  cases overrides <;> rfl

theorem ReadFrom.fit {d : Document} {source : Fields} (h : d.ReadFrom source) :
    Fit d.slots source d.extra where
  apart := (by decide : Document.names.Pairwise Apart)
  extra := h.extra
  absent := by
    simp only [slots, List.forall_mem_cons, List.not_mem_nil, reduceCtorEq, false_implies,
      implies_true, and_true, true_and]
    intro hnone
    rcases optional_eq_ok.mp h.itemOverrides with ⟨hunused, _⟩ | ⟨_, _, hread⟩
    · exact hunused
    · rw [Option.map_eq_none_iff.mp hnone] at hread
      exact absurd hread readOverrides_ne_none

theorem readVersion_eq_ok {v : Value} {version : String} :
    readVersion v = .ok version ↔ v = .str version ∧ Version.isAdmitted version = true := by
  cases v <;> simp only [readVersion, Checked.fault_ne_ok, reduceCtorEq, false_and]
  case str s =>
    split
    · rename_i hadmitted
      simp only [Checked.ok.injEq, Value.str.injEq]
      exact ⟨fun h => ⟨h, h ▸ hadmitted⟩, And.left⟩
    · rename_i hadmitted
      simp only [Checked.fault_ne_ok, Value.str.injEq, false_iff]
      intro hparts
      obtain ⟨rfl, h⟩ := hparts
      exact hadmitted h

theorem ReadFrom.overrides {d : Document} {source : Fields} (h : d.ReadFrom source) :
    optional ⟨"itemOverrides", "item_overrides"⟩ (Slots.fields d.slots ++ d.extra) none readOverrides =
      .ok d.itemOverrides := by
  have hslot : (⟨"itemOverrides", "item_overrides"⟩, d.itemOverrides.map overridesValue) ∈
      d.slots := by simp [slots]
  rw [h.fit.optional_eq none hslot]
  cases hoverrides : d.itemOverrides with
  | none => rfl
  | some overrides =>
    rcases optional_eq_ok.mp h.itemOverrides with ⟨_, hnone⟩ | ⟨_, _, hread⟩
    · rw [hoverrides] at hnone
      cases hnone
    · rw [hoverrides] at hread
      rw [Option.map_some, Option.elim_some, overridesValue_eq hread]
      exact Checked.under_eq_ok.mpr hread

/-- **A document that was read is read back as it was** from the fields that it gives. -/
theorem ReadFrom.reread {d : Document} {source : Fields} (h : d.ReadFrom source) :
    d.ReadFrom d.given := by
  have hfit := h.fit
  obtain ⟨_, _, hversion⟩ := required_eq_ok.mp h.version
  obtain ⟨_, _, hlayout⟩ := required_eq_ok.mp h.layout
  obtain ⟨_, _, hlayout⟩ := part_eq_ok.mp hlayout
  obtain ⟨_, _, htokens⟩ := required_eq_ok.mp h.tokens
  obtain ⟨_, _, htokens⟩ := part_eq_ok.mp htokens
  obtain ⟨_, _, hsections⟩ := required_eq_ok.mp h.sections
  rw [given_eq]
  exact
    { version := hfit.required_eq_ok (by simp [slots])
        (readVersion_eq_ok.mpr ⟨rfl, (readVersion_eq_ok.mp hversion).2⟩)
      layout := hfit.required_eq_ok (v := .object (d.layout.write .given)) (by simp [slots])
        (Layout.ofFields_eq_ok.mpr (Layout.ofFields_eq_ok.mp hlayout).reread)
      tokens := hfit.required_eq_ok (v := .object (d.tokens.write .given)) (by simp [slots])
        (Tokens.ofFields_eq_ok.mpr (Tokens.ofFields_eq_ok.mp htokens).reread)
      sections := hfit.required_eq_ok (by simp [slots]) (readSections_write hsections)
      itemOverrides := h.overrides
      extra := hfit.unknownFields_eq }

end Document

end Vitae
