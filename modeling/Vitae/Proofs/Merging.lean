import Vitae.Proofs.Parts
import Vitae.Theme.Merge

/-! Merging, key by key.

The fields of an override are merged one after the other, but no key comes twice among them, so
each of them decides about its own key and about no other (`Value.get?_mergeFields`). An object that
meets none is merged as into an object without fields (`Value.mergedOver_object`), so there is one
rule for what replaces and for what is merged. It follows that overrides have their say once:
merging them again changes nothing (`Value.merge_idempotent`). -/

namespace Vitae

namespace Value

/-! ### What overrides say -/

/-- The fields that say something. -/
def said (fields : Fields) : Fields := fields.filter fun e => !e.2.isUnset

variable {base overrides fields : Fields} {v : Value} {key : Key}

theorem isUnset_iff : v.isUnset = true ↔ v = .unset := by cases v <;> simp [isUnset]

theorem once_said (h : Keyed.Once fields) : Keyed.Once (said fields) := h.filter _

theorem mem_said {e : Key × Value} : e ∈ said fields ↔ e ∈ fields ∧ e.2 ≠ .unset := by
  simp [said, ← isUnset_iff]

theorem get?_said (h : Keyed.Once fields) :
    Keyed.get? (said fields) key = some v ↔ Keyed.get? fields key = some v ∧ v ≠ .unset := by
  rw [Keyed.get?_eq_some_iff (once_said h), Keyed.get?_eq_some_iff h]
  constructor
  · rintro ⟨e, he, hkey, rfl⟩
    obtain ⟨hmem, hsays⟩ := mem_said.mp he
    exact ⟨⟨e, hmem, hkey, rfl⟩, hsays⟩
  · rintro ⟨⟨e, he, hkey, rfl⟩, hsays⟩
    exact ⟨e, mem_said.mpr ⟨he, hsays⟩, hkey, rfl⟩

theorem get?_said_eq_none (h : Keyed.Once fields) :
    Keyed.get? (said fields) key = none ↔ ∀ v, Keyed.get? fields key = some v → v = .unset := by
  rw [Option.eq_none_iff_forall_ne_some]
  simp only [ne_eq, get?_said h, not_and, Classical.not_not]

theorem stripped_plain (h : v.isKey = true) : stripped v = v := by
  cases v <;> first | rfl | cases h

theorem strippedItems_eq (items : List Value) :
    strippedItems items = (items.filter fun v => !v.isUnset).map stripped := by
  induction items with
  | nil => rfl
  | cons v rest ih => cases v <;> simp [strippedItems, isUnset, ih]

theorem strippedFields_eq (fields : Fields) :
    strippedFields fields = (said fields).map fun e => (e.1, stripped e.2) := by
  induction fields with
  | nil => rfl
  | cons e rest ih =>
    obtain ⟨name, v⟩ := e
    cases v <;> simp [strippedFields, said, isUnset, ih]

/-- Sets a field to what an override makes of it. -/
def settle (entries : Fields) (e : Key × Value) : Fields :=
  Keyed.set entries e.1 (mergedOver (Keyed.get? entries e.1) e.2)

theorem mergeFields_eq (base overrides : Fields) :
    mergeFields base overrides = (said overrides).foldl settle base := by
  induction overrides generalizing base with
  | nil => rfl
  | cons e rest ih =>
    obtain ⟨name, v⟩ := e
    cases v <;> simp [mergeFields, said, isUnset, ih, settle]

theorem get?_foldl_settle {fields : Fields} (h : Keyed.Once fields) (base : Fields) (key : Key) :
    Keyed.get? (fields.foldl settle base) key =
      ((Keyed.get? fields key).map (mergedOver (Keyed.get? base key))).or
        (Keyed.get? base key) := by
  induction fields generalizing base with
  | nil => rfl
  | cons e rest ih =>
    rw [List.foldl_cons, ih (List.pairwise_cons.mp h).2, Keyed.get?]
    by_cases hkey : (e.1 == key) = true
    · rw [if_pos hkey, ← Keyed.get?_congr rest hkey, Keyed.get?_of_once_cons h,
        ← Keyed.get?_congr _ hkey, ← Keyed.get?_congr _ hkey, settle, Keyed.get?_set_self]
      rfl
    · have hother : (key == e.1) = false := BEq.comm.trans (Bool.not_eq_true _ ▸ hkey)
      rw [if_neg hkey, settle, Keyed.get?_set_of_ne _ _ hother]

/-- What merging finds under a key: what the override that says something makes of what the base
has, else what the base has. -/
theorem get?_mergeFields (h : Keyed.Once overrides) (base : Fields) (key : Key) :
    Keyed.get? (mergeFields base overrides) key =
      ((Keyed.get? (said overrides) key).map (mergedOver (Keyed.get? base key))).or
        (Keyed.get? base key) := by
  rw [mergeFields_eq]
  exact get?_foldl_settle (once_said h) base key

/-! ### Merging into nothing -/

theorem mergedOver_plain (h : v.isKey = true) (old : Option Value) : mergedOver old v = v := by
  cases v <;> first | rfl | cases h

theorem mergedOver_none (v : Value) : mergedOver none v = stripped v := by
  cases v <;> rfl

theorem foldl_settle_of_fresh {fields : Fields} (h : Keyed.Once fields)
    (hfresh : ∀ e ∈ fields, Keyed.get? base e.1 = none) :
    fields.foldl settle base = base ++ fields.map fun e => (e.1, stripped e.2) := by
  induction fields generalizing base with
  | nil => simp
  | cons e rest ih =>
    obtain ⟨he, hrest⟩ := List.forall_mem_cons.mp hfresh
    have hset : settle base e = base ++ [(e.1, stripped e.2)] := by
      rw [settle, he, mergedOver_none, Keyed.set_of_absent he]
    have hbehind : ∀ f ∈ rest, Keyed.get? (settle base e) f.1 = none := by
      intro f hf
      have hne := (List.pairwise_cons.mp h).1 _ (List.mem_map_of_mem hf)
      rw [settle, Keyed.get?_set_of_ne _ _ (BEq.comm.trans hne)]
      exact hrest f hf
    rw [List.foldl_cons, ih (List.pairwise_cons.mp h).2 hbehind, hset]
    simp

/-- Merged into nothing, overrides are left without what is unset in them. -/
theorem mergeFields_nil (h : Keyed.Once overrides) :
    mergeFields [] overrides = strippedFields overrides := by
  rw [mergeFields_eq, strippedFields_eq,
    foldl_settle_of_fresh (once_said h) fun _ _ => Keyed.get?_nil _]
  rfl

/-- The fields of what an override meets; none where it meets no object. -/
def fieldsMet (old : Option Value) : Fields := (old.bind Value.fields?).getD []

theorem fieldsMet_cases (old : Option Value) :
    (∃ base, old = some (.object base)) ∨
      (∀ w ∈ old, w.fields? = none) ∧ fieldsMet old = [] := by
  cases old with
  | none => exact .inr ⟨nofun, rfl⟩
  | some w =>
    cases w with
    | object base => exact .inl ⟨base, rfl⟩
    | _ => exact .inr ⟨by rintro _ ⟨⟩; rfl, rfl⟩

theorem mergedOver_of_no_fields {old : Option Value} (h : ∀ w ∈ old, w.fields? = none) :
    mergedOver old (.object fields) = .object (strippedFields fields) := by
  cases old with
  | none => rfl
  | some w =>
    have hw := h w rfl
    cases w <;> first | rfl | cases hw

/-- An object is merged into the fields of what it meets. -/
theorem mergedOver_object (h : Keyed.Once fields) (old : Option Value) :
    mergedOver old (.object fields) = .object (mergeFields (fieldsMet old) fields) := by
  rcases fieldsMet_cases old with ⟨base, rfl⟩ | ⟨hplain, hnil⟩
  · rfl
  · rw [mergedOver_of_no_fields hplain, hnil, mergeFields_nil h]

/-! ### Merging twice -/

/-- Overrides that find what they would set change nothing. -/
theorem foldl_settle_of_settled {fields : Fields}
    (h : ∀ e ∈ fields, ∃ v, Keyed.get? base e.1 = some v ∧ mergedOver (some v) e.2 = v) :
    fields.foldl settle base = base := by
  induction fields with
  | nil => rfl
  | cons e rest ih =>
    obtain ⟨⟨v, hfound, hsame⟩, hrest⟩ := List.forall_mem_cons.mp h
    have he : settle base e = base := by
      rw [settle, hfound, hsame]
      exact Keyed.set_of_get? hfound
    rw [List.foldl_cons, he]
    exact ih hrest

theorem mergedOver_mergedOver (v : Value) (h : OnceThroughout v) (old : Option Value) :
    mergedOver (some (mergedOver old v)) v = mergedOver old v := by
  induction v using byParts generalizing old with
  | plain v hplain => rw [mergedOver_plain hplain, mergedOver_plain hplain]
  | list items => rfl
  | object fields ih =>
    obtain ⟨honce, hparts⟩ := onceThroughout_object.mp h
    rw [mergedOver_object honce old, mergedOver_object honce]
    refine congrArg Value.object ?_
    generalize fieldsMet old = base
    show mergeFields (mergeFields base fields) fields = _
    rw [mergeFields_eq (mergeFields base fields)]
    refine foldl_settle_of_settled fun e he => ⟨mergedOver (Keyed.get? base e.1) e.2, ?_, ?_⟩
    · rw [get?_mergeFields honce, Keyed.get?_of_mem (once_said honce) he]
      rfl
    · have hmem := (mem_said.mp he).1
      exact ih e hmem (hparts e hmem) _

/-- **Merging overrides a second time changes nothing, and neither does merging none.** The order
of the fields is kept as well. -/
theorem merge_idempotent (base : Fields) {overrides : Fields}
    (h : OnceThroughout (.object overrides)) :
    ∃ merged, merge (.object base) (.object overrides) = .ok merged ∧
      merge (.object merged) (.object overrides) = .ok merged ∧
      merge (.object base) (.object []) = .ok base := by
  have htwice := mergedOver_mergedOver (.object overrides) h (some (.object base))
  exact ⟨_, rfl, congrArg Except.ok (Value.object.inj htwice), rfl⟩

/-- A theme whose layout is a text. -/
def compactTheme : Fields :=
  [("version", .str "1.1.0"), ("layout", .str "compact"),
   ("tokens", .object [("colors", .object [("primary", .str "#3B82F6"),
     ("text", .object [("primary", .str "#111111"), ("accent", .null)])])]),
   ("sections", .list [.object [("id", .str "experience")]])]

/-- Overrides that leave something unset at every depth, and give the layout fields. -/
def patchyOverrides : Fields :=
  [("layout", .object [("type", .str "magazine"), ("paperSize", .unset)]),
   ("tokens", .object [("colors", .object [("primary", .unset), ("text", .null)]),
     ("spacing", .object [("density", .unset)])]),
   ("sections", .list [.object [("id", .str "skills"), ("column", .unset)], .unset]),
   ("itemOverrides", .unset)]

theorem merge_idempotent_patchy :
    OnceThroughout (.object patchyOverrides) ∧
      ∃ merged, merge (.object compactTheme) (.object patchyOverrides) = .ok merged ∧
        merge (.object merged) (.object patchyOverrides) = .ok merged ∧
        merge (.object compactTheme) (.object []) = .ok compactTheme :=
  ⟨by decide, merge_idempotent compactTheme (by decide)⟩

end Value

end Vitae
