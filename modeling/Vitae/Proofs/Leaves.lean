import Vitae.Proofs.Unset

/-! Merging, leaf by leaf.

A leaf is a value that is no object, and a path of keys leads to it. Every leaf of a merged document
comes from one side: it is what the overrides say at its path, stripped of what is unset, or it
is the leaf of the base where the path leads past the overrides (`Value.merge_leaves`). -/

namespace Vitae

namespace Value

/-! ### Paths -/

/-- What a path of keys leads to. -/
def at? : Value → List Key → Option Value
  | v, [] => some v
  | v, key :: rest => (v.fields?.bind (Keyed.get? · key)).bind (at? · rest)

/-- A path leads to a value that is no object. -/
def LeafAt (v : Value) (path : List Key) (leaf : Value) : Prop :=
  v.at? path = some leaf ∧ ∀ fields, leaf ≠ .object fields

/-- On its way a path meets an object that says nothing under the next key: the key is absent, or
unset. -/
def Passes (v : Value) (path : List Key) : Prop :=
  ∃ front key back fields, path = front ++ key :: back ∧ v.at? front = some (.object fields) ∧
    ∀ found, Keyed.get? fields key = some found → found = .unset

variable {v w leaf : Value} {base overrides fields : Fields} {key : Key} {path : List Key}

theorem at?_object (fields : Fields) (key : Key) (path : List Key) :
    (Value.object fields).at? (key :: path) = (Keyed.get? fields key).bind (at? · path) := rfl

theorem at?_cons_of_no_fields (h : v.fields? = none) : v.at? (key :: path) = none := by
  rw [at?, h]
  rfl

theorem not_passes_nil : ¬ Passes v [] := by
  rintro ⟨front, key, back, fields, hpath, _⟩
  cases front <;> cases hpath

theorem not_passes_of_no_fields (h : v.fields? = none) : ¬ Passes v path := by
  rintro ⟨front, key, back, fields, _, hfront, _⟩
  cases front with
  | nil =>
    cases hfront
    cases h
  | cons first rest =>
    rw [at?_cons_of_no_fields h] at hfront
    cases hfront

theorem passes_object : Passes (.object fields) (key :: path) ↔
    (∀ found, Keyed.get? fields key = some found → found = .unset ∨ Passes found path) := by
  constructor
  · rintro ⟨front, first, back, inner, hpath, hfront, hsilent⟩ found hfound
    cases front with
    | nil =>
      cases hpath
      cases hfront
      exact .inl (hsilent found hfound)
    | cons first rest =>
      cases hpath
      rw [at?_object, hfound] at hfront
      exact .inr ⟨rest, _, back, inner, rfl, hfront, hsilent⟩
  · intro h
    by_cases hsilent : ∀ found, Keyed.get? fields key = some found → found = .unset
    · exact ⟨[], key, path, fields, rfl, rfl, hsilent⟩
    · push Not at hsilent
      obtain ⟨found, hfound, hset⟩ := hsilent
      obtain ⟨front, next, back, inner, rfl, hfront, hnext⟩ := (h found hfound).resolve_left hset
      exact ⟨key :: front, next, back, inner, rfl, by rw [at?_object, hfound]; exact hfront, hnext⟩

/-! ### Leaves -/

theorem leafAt_nil : LeafAt v [] leaf ↔ v = leaf ∧ ∀ fields, leaf ≠ .object fields := by
  simp [LeafAt, at?]

theorem leafAt_object :
    LeafAt (.object fields) (key :: path) leaf ↔
      ∃ found, Keyed.get? fields key = some found ∧ LeafAt found path leaf := by
  simp only [LeafAt, at?_object, Option.bind_eq_some_iff]
  constructor
  · rintro ⟨⟨found, hfound, hleaf⟩, hplain⟩
    exact ⟨found, hfound, hleaf, hplain⟩
  · rintro ⟨found, hfound, hleaf, hplain⟩
    exact ⟨⟨found, hfound, hleaf⟩, hplain⟩

theorem not_leafAt_object : ¬ LeafAt (.object fields) [] leaf := by
  rintro ⟨hfound, hplain⟩
  cases hfound
  exact hplain fields rfl

theorem not_leafAt_of_no_fields (h : v.fields? = none) : ¬ LeafAt v (key :: path) leaf := by
  rintro ⟨hfound, _⟩
  rw [at?_cons_of_no_fields h] at hfound
  cases hfound

theorem mergedOver_of_plain (h : v.fields? = none) (old : Option Value) :
    mergedOver old v = stripped v := by
  cases v <;> first | rfl | cases h

theorem fields?_stripped (h : v.fields? = none) : (stripped v).fields? = none := by
  cases v <;> first | rfl | cases h

theorem fields?_eq_some (h : v.fields? = some fields) : v = .object fields := by
  cases v <;> first | rw [Option.some.inj h] | cases h

/-- What an override without fields makes of the value that it meets has one leaf, or none. -/
theorem leafAt_mergedOver_of_no_fields (h : v.fields? = none) (hset : v ≠ .unset)
    (old : Option Value) :
    LeafAt (mergedOver old v) path leaf ↔ ∃ u, LeafAt v path u ∧ u ≠ .unset ∧ Stripped u leaf := by
  rw [mergedOver_of_plain h]
  cases path with
  | nil =>
    have hleaf (fields : Fields) : stripped v ≠ .object fields := by
      intro heq
      have hnone := fields?_stripped h
      rw [heq] at hnone
      cases hnone
    have hplain (fields : Fields) : v ≠ .object fields := by
      rintro rfl
      cases h
    simp only [leafAt_nil, stripped_iff]
    constructor
    · rintro ⟨rfl, _⟩
      exact ⟨v, ⟨rfl, hplain⟩, hset, rfl⟩
    · rintro ⟨_, ⟨rfl, _⟩, _, rfl⟩
      exact ⟨rfl, hleaf⟩
  | cons key rest =>
    constructor
    · exact fun hleaf => absurd hleaf (not_leafAt_of_no_fields (fields?_stripped h))
    · rintro ⟨u, hu, _⟩
      exact absurd hu (not_leafAt_of_no_fields h)

/-- Under a key of which overrides say something a merged object has what that makes of what the
base has there. -/
theorem leafAt_mergeFields_of_said (honce : Keyed.Once overrides)
    (hv : Keyed.get? overrides key = some v) (hset : v ≠ .unset) :
    LeafAt (.object (mergeFields base overrides)) (key :: path) leaf ↔
      LeafAt (mergedOver (Keyed.get? base key) v) path leaf := by
  have hsaid := (get?_said honce).mpr ⟨hv, hset⟩
  simp [leafAt_object, get?_mergeFields honce, hsaid]

/-- Under any other key it has what the base has. -/
theorem leafAt_mergeFields_of_silent (honce : Keyed.Once overrides)
    (hsilent : ∀ v, Keyed.get? overrides key = some v → v = .unset) :
    LeafAt (.object (mergeFields base overrides)) (key :: path) leaf ↔
      LeafAt (.object base) (key :: path) leaf := by
  have hsaid := (get?_said_eq_none honce).mpr hsilent
  simp [leafAt_object, get?_mergeFields honce, hsaid]

theorem exists_leafAt_iff {old : Option Value} :
    (∃ w ∈ old, LeafAt w (key :: path) leaf) ↔
      LeafAt (.object (fieldsMet old)) (key :: path) leaf := by
  rcases fieldsMet_cases old with ⟨base, rfl⟩ | ⟨hplain, hnil⟩
  · show _ ↔ LeafAt (.object base) (key :: path) leaf
    simp
  · rw [hnil]
    refine ⟨?_, fun h => ?_⟩
    · rintro ⟨w, hw, hleaf⟩
      exact absurd hleaf (not_leafAt_of_no_fields (hplain w hw))
    · obtain ⟨found, hfound, _⟩ := leafAt_object.mp h
      cases hfound

theorem leafAt_unset (h : LeafAt .unset path leaf) : leaf = .unset := by
  cases path with
  | nil => exact (leafAt_nil.mp h).1.symm
  | cons key rest => exact absurd h (not_leafAt_of_no_fields rfl)

/-- The leaves of what an override makes of the value that it meets. -/
theorem leafAt_mergedOver (path : List Key) {v : Value} (honce : OnceThroughout v)
    (hset : v ≠ .unset) (old : Option Value) :
    LeafAt (mergedOver old v) path leaf ↔
      (∃ u, LeafAt v path u ∧ u ≠ .unset ∧ Stripped u leaf) ∨
        (∃ w ∈ old, LeafAt w path leaf) ∧ Passes v path := by
  induction path generalizing v old with
  | nil =>
    cases hfields : v.fields? with
    | none =>
      rw [leafAt_mergedOver_of_no_fields hfields hset]
      simp [not_passes_nil]
    | some fields =>
      obtain rfl := fields?_eq_some hfields
      rw [mergedOver_object (onceThroughout_object.mp honce).1]
      simp [not_passes_nil, not_leafAt_object]
  | cons key rest ih =>
    cases hfields : v.fields? with
    | none =>
      rw [leafAt_mergedOver_of_no_fields hfields hset]
      simp [not_passes_of_no_fields hfields]
    | some fields =>
      obtain rfl := fields?_eq_some hfields
      obtain ⟨honce, hparts⟩ := onceThroughout_object.mp honce
      rw [mergedOver_object honce, passes_object, exists_leafAt_iff]
      generalize fieldsMet old = base
      by_cases hsilent : ∀ v, Keyed.get? fields key = some v → v = .unset
      · have hnone : ¬ ∃ u, LeafAt (.object fields) (key :: rest) u ∧ u ≠ .unset ∧
            Stripped u leaf := by
          rintro ⟨u, hu, hset, _⟩
          obtain ⟨v, hv, hu⟩ := leafAt_object.mp hu
          exact hset (leafAt_unset (hsilent v hv ▸ hu))
        rw [leafAt_mergeFields_of_silent honce hsilent]
        exact ⟨fun h => .inr ⟨h, fun v hv => .inl (hsilent v hv)⟩,
          fun h => (h.resolve_left hnone).1⟩
      · push Not at hsilent
        obtain ⟨v, hv, hset⟩ := hsilent
        obtain ⟨name, hmem, _⟩ := Keyed.mem_of_get? hv
        rw [leafAt_mergeFields_of_said honce hv hset, ih (hparts _ hmem) hset]
        simp [leafAt_object, hv, hset]

/-- **Every leaf of a merged document is one of the overrides' leaves, stripped, or one of the
base's leaves that the overrides pass over.** -/
theorem merge_leaves (base : Fields) {overrides : Fields} (h : OnceThroughout (.object overrides)) :
    ∃ merged, merge (.object base) (.object overrides) = .ok merged ∧ ∀ path leaf,
      LeafAt (.object merged) path leaf ↔
        (∃ v, LeafAt (.object overrides) path v ∧ v ≠ .unset ∧ Stripped v leaf) ∨
          LeafAt (.object base) path leaf ∧ Passes (.object overrides) path := by
  refine ⟨_, rfl, fun path leaf => ?_⟩
  have hleaves : LeafAt (.object (mergeFields base overrides)) path leaf ↔ _ :=
    leafAt_mergedOver path h nofun (some (.object base))
  simpa using hleaves

theorem merge_leaves_patchy :
    OnceThroughout (.object patchyOverrides) ∧
      ∃ merged, merge (.object compactTheme) (.object patchyOverrides) = .ok merged ∧
        ∀ path leaf, LeafAt (.object merged) path leaf ↔
          (∃ v, LeafAt (.object patchyOverrides) path v ∧ v ≠ .unset ∧ Stripped v leaf) ∨
            LeafAt (.object compactTheme) path leaf ∧ Passes (.object patchyOverrides) path :=
  ⟨by decide, merge_leaves compactTheme (by decide)⟩

end Value

end Vitae
