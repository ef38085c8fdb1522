import Mathlib.Data.List.Forall2
import Vitae.Proofs.Merging

/-! What is unset says nothing.

A value is stripped of what is unset in it, at every depth (`Value.Stripped`): which fields and
items stay is said here apart from how they are found. Overrides can be stripped before they are
merged without a difference, merged into nothing they come out stripped, and nothing unset comes
out of merging that the base did not hold (`Value.merge_unset`). -/

namespace Vitae

namespace Value

/-- The second value is the first without the fields and items that are unset. -/
inductive Stripped : Value → Value → Prop
  | plain {v : Value} (h : v.isKey = true) : Stripped v v
  | list {items kept : List Value}
      (h : List.Forall₂ Stripped (items.filter fun v => !v.isUnset) kept) :
      Stripped (.list items) (.list kept)
  | object {fields kept : Fields} (hkeys : Keyed.keys kept = Keyed.keys (said fields))
      (hvalues : List.Forall₂ Stripped ((said fields).map Prod.snd) (kept.map Prod.snd)) :
      Stripped (.object fields) (.object kept)

variable {v w : Value} {base overrides fields : Fields}

/-! ### Stripping -/

theorem stripped_list (items : List Value) :
    stripped (.list items) = .list ((items.filter fun v => !v.isUnset).map stripped) :=
  congrArg Value.list (strippedItems_eq items)

theorem stripped_object (fields : Fields) :
    stripped (.object fields) = .object ((said fields).map fun e => (e.1, stripped e.2)) :=
  congrArg Value.object (strippedFields_eq fields)

theorem forall₂_iff_eq_map {α β : Type} {R : α → β → Prop} {f : α → β} {xs : List α}
    {ys : List β} (h : ∀ a ∈ xs, ∀ b, R a b ↔ b = f a) :
    List.Forall₂ R xs ys ↔ ys = xs.map f := by
  induction xs generalizing ys with
  | nil => simp
  | cons a rest ih =>
    obtain ⟨ha, hrest⟩ := List.forall_mem_cons.mp h
    rw [List.forall₂_cons_left_iff, List.map_cons]
    constructor
    · rintro ⟨b, bs, hb, hbs, rfl⟩
      rw [(ha b).mp hb, (ih hrest).mp hbs]
    · rintro rfl
      exact ⟨_, _, (ha _).mpr rfl, (ih hrest).mpr rfl, rfl⟩

/-- There is one way to strip a value. -/
theorem stripped_iff : Stripped v w ↔ w = stripped v := by
  induction v using byParts generalizing w with
  | plain v hplain =>
    rw [stripped_plain hplain]
    constructor
    · intro h
      cases h with
      | plain => rfl
      | list | object => cases hplain
    · rintro rfl
      exact .plain hplain
  | list items ih =>
    have hitems (kept : List Value) :
        List.Forall₂ Stripped (items.filter fun v => !v.isUnset) kept ↔
          kept = (items.filter fun v => !v.isUnset).map stripped :=
      forall₂_iff_eq_map fun v hv _ => ih v (List.mem_filter.mp hv).1
    rw [stripped_list]
    constructor
    · intro h
      cases h with
      | plain h => cases h
      | list h => rw [(hitems _).mp h]
    · rintro rfl
      exact .list ((hitems _).mpr rfl)
  | object fields ih =>
    have hvalues (kept : List Value) : List.Forall₂ Stripped ((said fields).map Prod.snd) kept ↔
        kept = ((said fields).map Prod.snd).map stripped := by
      refine forall₂_iff_eq_map fun v hv _ => ?_
      obtain ⟨e, he, rfl⟩ := List.mem_map.mp hv
      exact ih e (mem_said.mp he).1
    rw [stripped_object]
    constructor
    · intro h
      cases h with
      | plain h => cases h
      | object hkeys h =>
        rw [List.zip_of_prod hkeys ((hvalues _).mp h)]
        simp [Keyed.keys, List.zip_map']
    · rintro rfl
      exact .object (by simp [Keyed.keys]) ((hvalues _).mpr (by simp))

/-- Stripping does not make a value say nothing, nor something. -/
theorem isUnset_stripped (v : Value) : (stripped v).isUnset = v.isUnset := by
  cases v <;> rfl

/-- What was found by a test and then changed passes it still, if the change does not tell. -/
theorem filter_map_filter {α β : Type} {p : α → Bool} {q : β → Bool} {f : α → β}
    (h : ∀ a, q (f a) = p a) (l : List α) :
    ((l.filter p).map f).filter q = (l.filter p).map f := by
  have hq : q ∘ f = p := funext h
  rw [List.filter_map, hq, List.filter_filter]
  simp

theorem said_strippedFields (fields : Fields) :
    said (strippedFields fields) = strippedFields fields := by
  rw [strippedFields_eq]
  refine filter_map_filter (fun e => ?_) fields
  exact congrArg not (isUnset_stripped e.2)

theorem once_strippedFields (h : Keyed.Once fields) : Keyed.Once (strippedFields fields) := by
  have hkeys : Keyed.keys (strippedFields fields) = Keyed.keys (said fields) := by
    simp [Keyed.keys, strippedFields_eq]
  unfold Keyed.Once
  rw [hkeys]
  exact once_said h

/-- Overrides make the same of what they meet when they are stripped first. -/
theorem mergedOver_stripped (v : Value) (h : OnceThroughout v) (old : Option Value) :
    mergedOver old (stripped v) = mergedOver old v := by
  induction v using byParts generalizing old with
  | plain v hplain => rw [stripped_plain hplain]
  | list items ih =>
    have hagain : ∀ v ∈ items, stripped (stripped v) = stripped v := by
      intro v hv
      simpa only [mergedOver_none] using ih v hv (onceThroughout_list.mp h v hv) none
    have hsaid : (((items.filter fun v => !v.isUnset).map stripped).filter fun v => !v.isUnset) =
        (items.filter fun v => !v.isUnset).map stripped := by
      refine filter_map_filter (fun v => ?_) items
      exact congrArg not (isUnset_stripped v)
    show stripped (stripped (.list items)) = stripped (.list items)
    rw [stripped_list, stripped_list, hsaid, List.map_map]
    refine congrArg Value.list (List.map_congr_left fun v hv => ?_)
    exact hagain v (List.mem_filter.mp hv).1
  | object fields ih =>
    obtain ⟨honce, hparts⟩ := onceThroughout_object.mp h
    show mergedOver old (.object (strippedFields fields)) = _
    rw [mergedOver_object (once_strippedFields honce), mergedOver_object honce, mergeFields_eq,
      mergeFields_eq, said_strippedFields, strippedFields_eq, List.foldl_map]
    refine congrArg Value.object (List.foldl_ext _ _ _ fun entries e he => ?_)
    have hmem := (mem_said.mp he).1
    exact congrArg (Keyed.set entries e.1) (ih e hmem (hparts e hmem) _)

/-! ### Nothing unset comes out -/

/-- Nothing in a value is unset, at whatever depth. -/
def Complete (v : Value) : Prop := ¬ Within .unset v

theorem complete_plain (h : v.isKey = true) (hset : v ≠ .unset) : Complete v := by
  intro hwithin
  cases hwithin with
  | self => exact hset rfl
  | item | field => cases h

theorem complete_list {items : List Value} : Complete (.list items) ↔ ∀ v ∈ items, Complete v := by
  constructor
  · exact fun h v hv hwithin => h (.item hv hwithin)
  · intro h hwithin
    cases hwithin with
    | item hv hwithin => exact h _ hv hwithin

theorem complete_object : Complete (.object fields) ↔ ∀ e ∈ fields, Complete e.2 := by
  constructor
  · exact fun h e he hwithin => h (.field he hwithin)
  · intro h hwithin
    cases hwithin with
    | field he hwithin => exact h _ he hwithin

theorem Complete.set {entries : Fields} (h : Complete (.object entries)) (hv : Complete v)
    (key : Key) : Complete (.object (Keyed.set entries key v)) := by
  rw [complete_object] at h ⊢
  intro e he
  rcases Keyed.mem_set he with hvalue | hmem
  · exact hvalue ▸ hv
  · exact h e hmem

theorem complete_fieldsMet {old : Option Value} (h : ∀ w ∈ old, Complete w) :
    Complete (.object (fieldsMet old)) := by
  rcases fieldsMet_cases old with ⟨base, rfl⟩ | ⟨_, hnil⟩
  · exact h _ rfl
  · rw [hnil]
    exact complete_object.mpr nofun

theorem complete_foldl_settle {fields : Fields}
    (h : ∀ e ∈ fields, ∀ old : Option Value, (∀ w ∈ old, Complete w) →
      Complete (mergedOver old e.2))
    (hbase : Complete (.object base)) : Complete (.object (fields.foldl settle base)) := by
  induction fields generalizing base with
  | nil => exact hbase
  | cons e rest ih =>
    obtain ⟨he, hrest⟩ := List.forall_mem_cons.mp h
    refine ih hrest (hbase.set (he _ fun w hw => ?_) e.1)
    obtain ⟨name, hmem, _⟩ := Keyed.mem_of_get? hw
    exact complete_object.mp hbase _ hmem

theorem complete_mergedOver (v : Value) (honce : OnceThroughout v) (hset : v ≠ .unset)
    {old : Option Value} (hold : ∀ w ∈ old, Complete w) : Complete (mergedOver old v) := by
  induction v using byParts generalizing old with
  | plain v hplain =>
    rw [mergedOver_plain hplain]
    exact complete_plain hplain hset
  | list items ih =>
    show Complete (stripped (.list items))
    rw [stripped_list, complete_list]
    intro w hw
    obtain ⟨v, hv, rfl⟩ := List.mem_map.mp hw
    obtain ⟨hmem, hsays⟩ := List.mem_filter.mp hv
    have hsays : v ≠ .unset := by simpa [← isUnset_iff] using hsays
    rw [← mergedOver_none]
    exact ih v hmem (onceThroughout_list.mp honce v hmem) hsays nofun
  | object fields ih =>
    obtain ⟨honce, hparts⟩ := onceThroughout_object.mp honce
    rw [mergedOver_object honce, mergeFields_eq]
    refine complete_foldl_settle (fun e he old hold => ?_) (complete_fieldsMet hold)
    obtain ⟨hmem, hsays⟩ := mem_said.mp he
    exact ih e hmem (hparts e hmem) hsays hold

/-- **Unset means not given.** Overrides can be stripped of what is unset before they are merged,
merged into nothing they come out stripped, and what was complete stays complete. -/
theorem merge_unset (base : Fields) {overrides : Fields} (h : OnceThroughout (.object overrides)) :
    ∃ merged kept, merge (.object base) (.object overrides) = .ok merged ∧
      (∀ w, Stripped (.object overrides) w ↔ w = .object kept) ∧
      merge (.object base) (.object kept) = .ok merged ∧
      merge (.object []) (.object overrides) = .ok kept ∧
      (Complete (.object base) → Complete (.object merged)) := by
  refine ⟨_, strippedFields overrides, rfl, fun w => stripped_iff, ?_, ?_, ?_⟩
  · have hsame := mergedOver_stripped (.object overrides) h (some (.object base))
    exact congrArg Except.ok (Value.object.inj hsame)
  · exact congrArg Except.ok (mergeFields_nil (onceThroughout_object.mp h).1)
  · intro hbase
    have hold : ∀ w ∈ some (Value.object base), Complete w := by
      rintro _ ⟨⟩
      exact hbase
    exact complete_mergedOver (.object overrides) h nofun hold

theorem merge_unset_patchy :
    OnceThroughout (.object patchyOverrides) ∧
      ∃ merged kept, merge (.object compactTheme) (.object patchyOverrides) = .ok merged ∧
        (∀ w, Stripped (.object patchyOverrides) w ↔ w = .object kept) ∧
        merge (.object compactTheme) (.object kept) = .ok merged ∧
        merge (.object []) (.object patchyOverrides) = .ok kept ∧
        (Complete (.object compactTheme) → Complete (.object merged)) :=
  ⟨by decide, merge_unset compactTheme (by decide)⟩

end Value

end Vitae
