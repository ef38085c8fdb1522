import Mathlib.Data.List.Pairwise
import Vitae.Proofs.Entries
import Vitae.Proofs.Reading

/-! Fields that are written from what was read.

A part is written as slots: its known fields under their first names, those that are given.
The fields that it does not know stand behind them. `Slots.Fit` says when slots and unknown
fields come from one reading; then no unknown field takes a name that counts, each slot is
found under its first name and nowhere else (`Slots.Fit.used?_eq`), and the unknown fields are
again the unknown ones (`Slots.Fit.unknownFields_eq`). -/

namespace Vitae

/-! ### Look-up in fields -/

/-- A key is alike to a text only when it is that text. -/
theorem Key.beq_str_iff {key : Key} {name : String} :
    (key == Key.str name) = true ↔ key = .str name := by
  constructor
  · exact fun h => Key.eq_str_of_beq (BEq.symm h)
  · intro heq
    subst heq
    exact BEq.rfl

theorem Key.beq_str_eq_false {key : Key} {name : String} (h : key ≠ .str name) :
    (key == Key.str name) = false :=
  Bool.eq_false_iff.mpr (Key.beq_str_iff.not.mpr h)

theorem FieldName.used?_eq_none {n : FieldName} {fields : Fields} :
    n.used? fields = none ↔
      Keyed.has fields n.camel = false ∧ Keyed.has fields n.snake = false := by
  unfold used?
  cases Keyed.has fields n.camel <;> cases Keyed.has fields n.snake <;> simp

theorem FieldName.used?_eq_some {n : FieldName} {fields : Fields} {name : String}
    (h : n.used? fields = some name) : name = n.camel ∨ name = n.snake := by
  unfold used? at h
  split at h
  · exact .inl (Option.some.inj h).symm
  · split at h
    · exact .inr (Option.some.inj h).symm
    · cases h

namespace FieldName
variable {α : Type} {n : FieldName} {fields : Fields} {read : Value → Checked α} {x : α}

/-- What a field is given as: under its first name, or under the second one where the first is
absent. -/
def given? (n : FieldName) (fields : Fields) : Option Value :=
  (Keyed.get? fields n.camel).or (Keyed.get? fields n.snake)

theorem given?_eq_map (n : FieldName) (fields : Fields) :
    n.given? fields = (n.used? fields).map (Value.field fields) := by
  unfold given? used? Keyed.has
  cases hcamel : Keyed.get? fields n.camel with
  | some v => simp [Value.field, hcamel]
  | none => cases hsnake : Keyed.get? fields n.snake <;> simp [Value.field, hsnake]

theorem given?_word (name : String) (fields : Fields) :
    (word name).given? fields = Keyed.get? fields name :=
  Option.or_self

theorem used?_congr {others : Fields} (hcamel : Keyed.get? fields n.camel = Keyed.get? others n.camel)
    (hsnake : Keyed.get? fields n.snake = Keyed.get? others n.snake) :
    n.used? fields = n.used? others := by
  unfold used? Keyed.has
  rw [hcamel, hsnake]

theorem required_eq_ok_iff :
    n.required fields read = .ok x ↔ ∃ v, n.given? fields = some v ∧ read v = .ok x := by
  rw [required_eq_ok, given?_eq_map]
  cases n.used? fields <;> simp

theorem optional_eq_ok_iff {absent : α} :
    n.optional fields absent read = .ok x ↔
      (n.given? fields = none ∧ x = absent) ∨
        ∃ v, n.given? fields = some v ∧ read v = .ok x := by
  rw [optional_eq_ok, given?_eq_map]
  cases n.used? fields <;> simp

end FieldName

/-- What is read of a part that is there was read from its fields. -/
theorem Reading.exists_of_part {α : Type} {n : FieldName} {fields : Fields} {name : String}
    {ofFields : Fields → Checked α} {x : α}
    (h : optionalPart n fields (part name ofFields) = .ok (some x)) :
    ∃ source, ofFields source = .ok x := by
  rcases FieldName.optional_eq_ok.mp h with ⟨_, hnone⟩ | ⟨_, _, hread⟩
  · cases hnone
  · obtain ⟨y, hy, hsome⟩ := Checked.both_ok_eq_ok.mp hread
    cases hsome
    obtain ⟨source, _, hsource⟩ := part_eq_ok.mp hy
    exact ⟨source, hsource⟩

/-! ### Slots -/

/-- The value of a field, where it is given. -/
def Entry.value? {α : Type} (write : α → Value) : Entry α → Option Value
  | .absent => none
  | .null => some .null
  | .given x => some (write x)

@[simp] theorem Entry.value?_eq_none {α : Type} {write : α → Value} {e : Entry α} :
    e.value? write = none ↔ e = .absent := by
  cases e <;> simp [Entry.value?]

/-- A field that is written: its names, and its value where it is given. -/
abbrev Slot := FieldName × Option Value

namespace Slots

/-- The fields of slots, under their first names. -/
def fields (slots : List Slot) : Fields :=
  slots.filterMap fun s => s.2.map fun v => (.str s.1.camel, v)

theorem fields_append (a b : List Slot) : fields (a ++ b) = fields a ++ fields b :=
  List.filterMap_append

theorem fields_cons (s : Slot) (rest : List Slot) : fields (s :: rest) = fields [s] ++ fields rest :=
  fields_append [s] rest

theorem mem_fields {slots : List Slot} {f : Key × Value} (h : f ∈ fields slots) :
    ∃ s ∈ slots, s.2 = some f.2 ∧ f.1 = .str s.1.camel := by
  obtain ⟨s, hs, hf⟩ := List.mem_filterMap.mp h
  obtain ⟨v, hv, rfl⟩ := Option.map_eq_some_iff.mp hf
  exact ⟨s, hs, hv, rfl⟩

theorem get?_fields_eq_none {slots : List Slot} {name : String}
    (h : ∀ s ∈ slots, s.2 ≠ none → s.1.camel ≠ name) :
    Keyed.get? (fields slots) (.str name) = none := by
  refine Keyed.get?_eq_none fun f hf => ?_
  obtain ⟨s, hs, hvalue, hname⟩ := mem_fields hf
  rw [hname]
  simpa using h s hs (by simp [hvalue])

/-- No name counts for two fields. -/
def Apart (n m : FieldName) : Prop := n.camel ≠ m.camel ∧ n.snake ≠ m.camel ∧ n.camel ≠ m.snake

instance (n m : FieldName) : Decidable (Apart n m) := by unfold Apart; infer_instance

theorem Apart.symm {n m : FieldName} (h : Apart n m) : Apart m n :=
  ⟨h.1.symm, h.2.2.symm, h.2.1.symm⟩

/-- A slot is found under its first name, whichever slots are beside it. -/
theorem get?_fields_of_mem {slots : List Slot} (hapart : (slots.map Prod.fst).Pairwise Apart)
    {n : FieldName} {value : Option Value} (h : (n, value) ∈ slots) :
    Keyed.get? (fields slots) (.str n.camel) = value := by
  induction slots with
  | nil => cases h
  | cons first rest ih =>
    rw [List.map_cons, List.pairwise_cons] at hapart
    obtain ⟨hfirst, hrest⟩ := hapart
    rw [fields_cons, Keyed.get?_append]
    rcases List.mem_cons.mp h with rfl | h
    · have hlater : Keyed.get? (fields rest) (.str n.camel) = none :=
        get?_fields_eq_none fun s hs _ => (hfirst s.1 (List.mem_map_of_mem hs)).1.symm
      cases value with
      | none => simpa [fields] using hlater
      | some v => simp [fields, Keyed.get?]
    · have hother : Keyed.get? (fields [first]) (.str n.camel) = none := by
        refine get?_fields_eq_none fun s hs _ => ?_
        rw [List.mem_singleton.mp hs]
        exact (hfirst n (List.mem_map_of_mem (f := Prod.fst) h)).1
      rw [hother, ih hrest h]
      rfl

/-- Slots that hold what was read from some fields, and the fields that were unknown there. -/
structure Fit (slots : List Slot) (source extra : Fields) : Prop where
  apart : (slots.map Prod.fst).Pairwise Apart
  extra : unknownFields (slots.map Prod.fst) source = .ok extra
  absent : ∀ s ∈ slots, s.2 = none → s.1.used? source = none

namespace Fit

variable {slots : List Slot} {source extra : Fields} {n : FieldName} {value : Option Value}

/-- No unknown field has a name that counts. -/
theorem unknown (h : Fit slots source extra) {f : Key × Value} (hf : f ∈ extra)
    (hn : (n, value) ∈ slots) : f.1 ≠ .str n.camel ∧ (value = none → f.1 ≠ .str n.snake) := by
  have hmem : n ∈ slots.map Prod.fst := List.mem_map_of_mem (f := Prod.fst) hn
  obtain ⟨hextra, _⟩ := unknownFields_eq_ok.mp h.extra
  rw [hextra] at hf
  obtain ⟨hsource, hknown⟩ := List.mem_filter.mp hf
  constructor
  · intro hname
    have hhas : Keyed.has source n.camel = true :=
      Keyed.has_of_mem hsource (by rw [hname]; exact beq_self_eq_true _)
    have hused : n.used? source = some n.camel := by simp [FieldName.used?, hhas]
    rw [isKnown_eq_true.mpr ⟨n, hmem, n.camel, hused, hname⟩] at hknown
    cases hknown
  · intro hvalue hname
    have hhas : Keyed.has source n.snake = true :=
      Keyed.has_of_mem hsource (by rw [hname]; exact beq_self_eq_true _)
    have hnone := FieldName.used?_eq_none.mp (h.absent _ hn hvalue)
    rw [hnone.2] at hhas
    cases hhas

theorem get?_camel (h : Fit slots source extra) (hn : (n, value) ∈ slots) :
    Keyed.get? (fields slots ++ extra) (.str n.camel) = value := by
  have hextra : Keyed.get? extra (.str n.camel) = none :=
    Keyed.get?_eq_none fun f hf => Key.beq_str_eq_false (h.unknown hf hn).1
  rw [Keyed.get?_append, get?_fields_of_mem h.apart hn, hextra]
  cases value <;> rfl

/-- A field that is not given is not there under its second name either. -/
theorem get?_snake (h : Fit slots source extra) (hn : (n, none) ∈ slots) :
    Keyed.get? (fields slots ++ extra) (.str n.snake) = none := by
  have hslots : Keyed.get? (fields slots) (.str n.snake) = none := by
    refine get?_fields_eq_none fun s hs hgiven => ?_
    have hne : s ≠ (n, none) := by
      intro heq
      subst heq
      exact hgiven rfl
    have : Std.Symm fun a b : Slot => Apart a.1 b.1 := ⟨fun _ _ => Apart.symm⟩
    have hapart : Apart s.1 n := (List.pairwise_map.mp h.apart).forall hs hn hne
    exact hapart.2.2
  have hextra : Keyed.get? extra (.str n.snake) = none :=
    Keyed.get?_eq_none fun f hf => Key.beq_str_eq_false ((h.unknown hf hn).2 rfl)
  rw [Keyed.get?_append, hslots, hextra]
  rfl

/-- Under a name that is no first name, there is what was there and did not count. -/
theorem get?_of_not_camel (h : Fit slots source extra) {name : String}
    (hname : ∀ n ∈ slots.map Prod.fst, name ≠ n.camel) :
    Keyed.get? (fields slots ++ extra) (.str name) =
      if isKnown (slots.map Prod.fst) source (.str name) then none
      else Keyed.get? source (.str name) := by
  have hslots : Keyed.get? (fields slots) (.str name) = none :=
    get?_fields_eq_none fun s hs _ => (hname s.1 (List.mem_map_of_mem hs)).symm
  rw [Keyed.get?_append, hslots, (unknownFields_eq_ok.mp h.extra).1, Option.none_or]
  split
  · rename_i hknown
    refine Keyed.get?_eq_none fun f hf => Key.beq_str_eq_false fun heq => ?_
    rw [← heq] at hknown
    simp [hknown] at hf
  · rename_i hunknown
    refine Keyed.get?_filter fun f _ hf => ?_
    rw [Key.beq_str_iff.mp hf]
    simpa using hunknown

/-- The fields that are given are those that were written. -/
theorem used?_eq (h : Fit slots source extra) (hn : (n, value) ∈ slots) :
    n.used? (fields slots ++ extra) = value.map fun _ => n.camel := by
  have hcamel := h.get?_camel hn
  cases value with
  | none =>
    exact FieldName.used?_eq_none.mpr
      ⟨by rw [Keyed.has, hcamel]; rfl, by rw [Keyed.has, h.get?_snake hn]; rfl⟩
  | some v => simp [FieldName.used?, Keyed.has, hcamel]

theorem unknownFields_eq (h : Fit slots source extra) :
    unknownFields (slots.map Prod.fst) (fields slots ++ extra) = .ok extra := by
  have hnamed := (unknownFields_eq_ok.mp h.extra).2
  refine unknownFields_eq_ok.mpr ⟨?_, hnamed⟩
  have hslots : (fields slots).filter (fun f =>
      !isKnown (slots.map Prod.fst) (fields slots ++ extra) f.1) = [] := by
    refine List.filter_eq_nil_iff.mpr fun f hf => ?_
    obtain ⟨⟨n, value⟩, hs, hvalue, hname⟩ := mem_fields hf
    have hused := h.used?_eq hs
    rw [show value = some f.2 from hvalue] at hused
    rw [isKnown_eq_true.mpr ⟨n, List.mem_map_of_mem (f := Prod.fst) hs, n.camel, hused, hname⟩]
    simp
  have hextra : extra.filter (fun f =>
      !isKnown (slots.map Prod.fst) (fields slots ++ extra) f.1) = extra := by
    refine List.filter_eq_self.mpr fun f hf => ?_
    have hunknown : ¬ isKnown (slots.map Prod.fst) (fields slots ++ extra) f.1 = true := by
      intro hknown
      obtain ⟨n, hn, name, hused, hname⟩ := isKnown_eq_true.mp hknown
      obtain ⟨⟨_, value⟩, hs, rfl⟩ := List.mem_map.mp hn
      rw [h.used?_eq hs] at hused
      obtain ⟨_, _, rfl⟩ := Option.map_eq_some_iff.mp hused
      exact (h.unknown hf hs).1 hname
    simp [hunknown]
  rw [List.filter_append, hslots, hextra]
  rfl

/-! What is read from the fields that are written. -/

variable {α : Type} {read : Value → Checked α}

theorem optional_eq (h : Fit slots source extra) (absent : α) (hn : (n, value) ∈ slots) :
    n.optional (fields slots ++ extra) absent read =
      value.elim (.ok absent) fun v => (read v).under n.camel := by
  have hcamel := h.get?_camel hn
  rw [FieldName.optional, h.used?_eq hn]
  cases value with
  | none => rfl
  | some v => simp [Value.field, hcamel]

theorem required_eq_ok {v : Value} {x : α} (h : Fit slots source extra)
    (hn : (n, some v) ∈ slots) (hread : read v = .ok x) :
    n.required (fields slots ++ extra) read = .ok x := by
  have hcamel := h.get?_camel hn
  refine FieldName.required_eq_ok.mpr ⟨n.camel, h.used?_eq hn, ?_⟩
  rw [Value.field, hcamel]
  exact hread

theorem text_eq_ok {e : Entry String} (h : Fit slots source extra)
    (hn : (n, e.value? .str) ∈ slots) :
    Reading.optionalText n (fields slots ++ extra) = .ok e := by
  rw [Reading.optionalText, h.optional_eq _ hn]
  cases e <;> rfl

theorem flag_eq_ok {e : Entry Bool} (h : Fit slots source extra)
    (hn : (n, e.value? .bool) ∈ slots) :
    n.optional (fields slots ++ extra) .absent Reading.flag = .ok e := by
  rw [h.optional_eq _ hn]
  cases e <;> rfl

/-- A part that can be read back is read back where it is written. -/
theorem part_eq_ok {name : String} {ofFields : Fields → Checked α} {write : α → Fields}
    {o : Option α} (h : Fit slots source extra) (hn : (n, o.map fun x => .object (write x)) ∈ slots)
    (hread : Reading.optionalPart n source (Reading.part name ofFields) = .ok o)
    (hback : ∀ x inner, ofFields inner = .ok x → ofFields (write x) = .ok x) :
    Reading.optionalPart n (fields slots ++ extra) (Reading.part name ofFields) = .ok o := by
  rw [Reading.optionalPart, h.optional_eq _ hn]
  cases o with
  | none => rfl
  | some x =>
    obtain ⟨inner, hinner⟩ := Reading.exists_of_part hread
    show (Checked.both _ (ofFields (write x))).under n.camel = _
    rw [hback x inner hinner]
    rfl

end Fit

end Slots

/-! ### Fields that are absent -/

namespace Reading

theorem text_ne_absent {v : Value} : text v ≠ .ok .absent := by
  cases v <;> simp [text]

theorem flagOfInt_ne_absent {n : Int} : flagOfInt n ≠ .ok .absent := by
  unfold flagOfInt
  repeat' split
  all_goals simp

theorem flag_ne_absent {v : Value} : flag v ≠ .ok .absent := by
  cases v <;> simp only [flag]
  case int n => exact flagOfInt_ne_absent
  case float x =>
    unfold flagOfFloat
    split
    · split
      · simp
      · exact flagOfInt_ne_absent
    · simp
  case str s => split <;> simp
  all_goals simp

variable {n : FieldName} {fields : Fields}

theorem used?_of_optional_absent {α : Type} {read : Value → Checked (Entry α)}
    (hread : ∀ v, read v ≠ .ok .absent) (h : n.optional fields .absent read = .ok .absent) :
    n.used? fields = none := by
  rcases FieldName.optional_eq_ok.mp h with ⟨hnone, _⟩ | ⟨_, _, habsent⟩
  · exact hnone
  · exact absurd habsent (hread _)

theorem used?_of_text {e : Entry String} (h : optionalText n fields = .ok e)
    (he : e.value? .str = none) : n.used? fields = none := by
  rw [Entry.value?_eq_none] at he
  subst he
  exact used?_of_optional_absent (fun _ => text_ne_absent) h

theorem used?_of_flag {e : Entry Bool} (h : n.optional fields .absent flag = .ok e)
    (he : e.value? .bool = none) : n.used? fields = none := by
  rw [Entry.value?_eq_none] at he
  subst he
  exact used?_of_optional_absent (fun _ => flag_ne_absent) h

theorem used?_of_part {α : Type} {read : Value → Checked α} {write : α → Value} {o : Option α}
    (h : optionalPart n fields read = .ok o) (ho : o.map write = none) :
    n.used? fields = none := by
  rcases FieldName.optional_eq_ok.mp h with ⟨hnone, _⟩ | ⟨_, _, hread⟩
  · exact hnone
  · obtain ⟨x, _, rfl⟩ := Checked.both_ok_eq_ok.mp hread
    cases ho

end Reading

end Vitae
