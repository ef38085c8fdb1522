import Vitae.Proofs.Leaves
import Vitae.Proofs.Lossless

/-! Overrides merged beforehand.

A document takes overrides, and what comes out takes others. The two can be merged with each other
first: the same document comes out, up to the order of its fields (`Value.merge_premerged`).

The overrides have to be `Value.Chainable`. A value of the first ones that is no object takes the
place of an object, with all its fields, when it meets one; an object of the second ones takes the
place of that value in turn. Merged beforehand, the value is gone before it has met the document,
and the fields that it would have taken away are still there. -/

namespace Vitae

namespace Value

variable {old : Option Value} {u v w : Value} {base first second : Fields} {key : Key}

/-! ### What can be chained -/

/-- A path leads to an object. -/
def ObjectAt (v : Value) (path : List Key) : Prop := ∃ fields, v.at? path = some (.object fields)

/-- Where the document and the second overrides both have an object, the first overrides have one
too, or say nothing. -/
def Chainable (document first second : Value) : Prop :=
  ∀ path, ObjectAt document path → ObjectAt second path →
    ∀ v, first.at? path = some v → v = .unset ∨ ∃ fields, v = .object fields

theorem objectAt_object (path : List Key) :
    ObjectAt (.object base) (key :: path) ↔
      ∃ u, Keyed.get? base key = some u ∧ ObjectAt u path := by
  simp only [ObjectAt, at?_object, Option.bind_eq_some_iff]
  exact exists_comm.trans (exists_congr fun u => exists_and_left)

theorem not_objectAt_of_no_fields (h : v.fields? = none) (path : List Key) :
    ¬ ObjectAt v path := by
  rintro ⟨fields, hfields⟩
  cases path with
  | nil =>
    cases hfields
    cases h
  | cons key rest =>
    rw [at?_cons_of_no_fields h] at hfields
    cases hfields

/-- Objects can be chained when what they have under the same keys can. -/
theorem chainable_object :
    Chainable (.object base) (.object first) (.object second) ↔
      ∀ key u w v, Keyed.get? base key = some u → Keyed.get? first key = some w →
        Keyed.get? second key = some v → Chainable u w v := by
  constructor
  · intro h key u w v hu hw hv path hbase hsecond x hx
    refine h (key :: path) ((objectAt_object path).mpr ⟨u, hu, hbase⟩)
      ((objectAt_object path).mpr ⟨v, hv, hsecond⟩) x ?_
    rw [at?_object, hw]
    exact hx
  · intro h path hbase hsecond x hx
    cases path with
    | nil => exact .inr ⟨first, (Option.some.inj hx).symm⟩
    | cons key path =>
      obtain ⟨u, hu, hbase⟩ := (objectAt_object path).mp hbase
      obtain ⟨v, hv, hsecond⟩ := (objectAt_object path).mp hsecond
      rw [at?_object, Option.bind_eq_some_iff] at hx
      obtain ⟨w, hw, hx⟩ := hx
      exact h key u w v hu hw hv path hbase hsecond x hx

theorem chainable_of_fields
    (h : ∀ e ∈ second, ∀ u ∈ Keyed.get? base e.1, ∀ w ∈ Keyed.get? first e.1, Chainable u w e.2) :
    Chainable (.object base) (.object first) (.object second) := by
  refine chainable_object.mpr fun key u w v hu hw hv => ?_
  obtain ⟨name, hmem, hname⟩ := Keyed.mem_of_get? hv
  exact h _ hmem u (Keyed.get?_congr base hname ▸ hu) w (Keyed.get?_congr first hname ▸ hw)

theorem chainable_of_no_fields (h : u.fields? = none ∨ v.fields? = none) : Chainable u w v := by
  intro path hu hv
  rcases h with h | h
  · exact absurd hu (not_objectAt_of_no_fields h path)
  · exact absurd hv (not_objectAt_of_no_fields h path)

/-! ### One after the other, or beforehand -/

theorem mergedOver_ne_unset (hset : v ≠ .unset) (old : Option Value) :
    mergedOver old v ≠ .unset := by
  cases v with
  | unset => exact absurd rfl hset
  | object fields =>
    intro h
    unfold mergedOver at h
    split at h <;> cases h
  | _ => nofun

theorem once_mergeFields (h : Keyed.Once base) (overrides : Fields) :
    Keyed.Once (mergeFields base overrides) := by
  rw [mergeFields_eq]
  generalize said overrides = fields
  induction fields generalizing base with
  | nil => exact h
  | cons e rest ih => exact ih (h.set e.1 _)

/-- What two overrides merged with each other say under a key. -/
theorem get?_said_mergeFields (hfirst : Keyed.Once first) (hsecond : Keyed.Once second)
    (key : Key) :
    Keyed.get? (said (mergeFields first second)) key =
      ((Keyed.get? (said second) key).map (mergedOver (Keyed.get? first key))).or
        (Keyed.get? (said first) key) := by
  refine Option.ext fun x => ?_
  rw [get?_said (once_mergeFields hfirst second), get?_mergeFields hsecond]
  cases hv : Keyed.get? (said second) key with
  | none => exact (get?_said hfirst).symm
  | some v =>
    have hset := ((get?_said hsecond).mp hv).2
    refine ⟨And.left, fun hx => ⟨hx, ?_⟩⟩
    cases hx
    exact mergedOver_ne_unset hset _

/-- Where the first overrides say nothing under a key, what they have there makes no difference to
the second ones. -/
theorem mergedOver_of_silent (hsilent : ∀ w ∈ old, w = .unset) (v : Value) :
    mergedOver old v = stripped v := by
  cases v <;> try rfl
  refine mergedOver_of_no_fields fun w hw => ?_
  rw [hsilent w hw]
  rfl

/-- A value that is no object takes the place of what is not one either, before or after. -/
theorem mergedOver_between (hsecond : OnceThroughout (.object second)) (hw : w.fields? = none)
    (hold : ∀ u ∈ old, u.fields? = none) :
    mergedOver (some (mergedOver old w)) (.object second) =
      mergedOver old (mergedOver (some w) (.object second)) := by
  have hmet : ∀ u ∈ some (mergedOver old w), u.fields? = none := by
    rintro _ ⟨⟩
    rw [mergedOver_of_plain hw]
    exact fields?_stripped hw
  have hbetween : ∀ u ∈ some w, u.fields? = none := by
    rintro _ ⟨⟩
    exact hw
  have hstripped : mergedOver old (.object (strippedFields second)) =
      mergedOver old (.object second) := mergedOver_stripped _ hsecond old
  rw [mergedOver_of_no_fields hmet, mergedOver_of_no_fields hbetween, hstripped,
    mergedOver_of_no_fields hold]

/-- Fields come out the same when the values do under the keys of which both overrides say
something. -/
theorem same_mergeFields (hfirst : Keyed.Once first) (hsecond : OnceThroughout (.object second))
    (h : ∀ key w v, Keyed.get? first key = some w → w ≠ .unset →
      Keyed.get? second key = some v →
      Same (mergedOver (some (mergedOver (Keyed.get? base key) w)) v)
        (mergedOver (Keyed.get? base key) (mergedOver (some w) v))) :
    Same (.object (mergeFields (mergeFields base first) second))
      (.object (mergeFields base (mergeFields first second))) := by
  obtain ⟨hsecond, hparts⟩ := onceThroughout_object.mp hsecond
  refine .object fun key => ?_
  rw [get?_mergeFields hsecond, get?_mergeFields hfirst,
    get?_mergeFields (once_mergeFields hfirst second), get?_said_mergeFields hfirst hsecond]
  cases hv : Keyed.get? (said second) key with
  | none => exact rel_same_refl _
  | some v =>
    obtain ⟨hv, _⟩ := (get?_said hsecond).mp hv
    refine .some ?_
    cases hw : Keyed.get? (said first) key with
    | none =>
      obtain ⟨name, hmem, _⟩ := Keyed.mem_of_get? hv
      have hstripped := mergedOver_stripped v (hparts _ hmem) (Keyed.get? base key)
      rw [mergedOver_of_silent ((get?_said_eq_none hfirst).mp hw), hstripped]
      exact .refl _
    | some w =>
      obtain ⟨hw, hset⟩ := (get?_said hfirst).mp hw
      rw [hw]
      exact h key w v hw hset hv

/-- Overrides make the same of what they meet when they are merged with each other first. -/
theorem same_mergedOver (v : Value) (hv : OnceThroughout v) {w : Value} (hw : OnceThroughout w)
    (hset : w ≠ .unset) {old : Option Value} (h : ∀ u ∈ old, Chainable u w v) :
    Same (mergedOver (some (mergedOver old w)) v) (mergedOver old (mergedOver (some w) v)) := by
  induction v using byParts generalizing w old with
  | plain v hplain =>
    simp only [mergedOver_plain hplain]
    exact .refl v
  | list items =>
    show Same (stripped (.list items)) (mergedOver old (stripped (.list items)))
    rw [mergedOver_stripped _ hv]
    exact .refl _
  | object second ih =>
    cases hfields : w.fields? with
    | none =>
      -- No object is met here either, or the value in between would be in the way.
      have hold : ∀ u ∈ old, u.fields? = none := by
        refine fun u hu => Option.eq_none_iff_forall_ne_some.mpr fun base hbase => ?_
        have hobject : ObjectAt u [] := ⟨base, congrArg some (fields?_eq_some hbase)⟩
        rcases h u hu [] hobject ⟨second, rfl⟩ w rfl with hunset | ⟨first, rfl⟩
        · exact hset hunset
        · cases hfields
      rw [mergedOver_between hv hfields hold]
      exact .refl _
    | some first =>
      obtain rfl := fields?_eq_some hfields
      obtain ⟨hfirst, hbetween⟩ := onceThroughout_object.mp hw
      obtain ⟨hsecond, hparts⟩ := onceThroughout_object.mp hv
      have hbase : Chainable (.object (fieldsMet old)) (.object first) (.object second) := by
        rcases fieldsMet_cases old with ⟨base, rfl⟩ | ⟨_, hnil⟩
        · exact h _ rfl
        · rw [hnil]
          exact chainable_object.mpr nofun
      have hboth : mergedOver old (mergedOver (some (.object first)) (.object second)) =
          .object (mergeFields (fieldsMet old) (mergeFields first second)) :=
        mergedOver_object (once_mergeFields hfirst second) old
      rw [hboth, mergedOver_object hfirst]
      refine same_mergeFields hfirst hv fun key w v hw hwset hv => ?_
      obtain ⟨_, hwmem, _⟩ := Keyed.mem_of_get? hw
      obtain ⟨_, hvmem, _⟩ := Keyed.mem_of_get? hv
      exact ih _ hvmem (hparts _ hvmem) (hbetween _ hwmem) hwset fun u hu =>
        chainable_object.mp hbase key u w v hu hw hv

/-- **Overrides can be merged with each other before they are merged into a document**, and the
same document comes out, up to the order of its fields. -/
theorem merge_premerged (document : Fields) {first second : Fields}
    (hfirst : OnceThroughout (.object first)) (hsecond : OnceThroughout (.object second))
    (h : Chainable (.object document) (.object first) (.object second)) :
    ∃ once twice both beforehand,
      merge (.object document) (.object first) = .ok once ∧
      merge (.object once) (.object second) = .ok twice ∧
      merge (.object first) (.object second) = .ok both ∧
      merge (.object document) (.object both) = .ok beforehand ∧
      Same (.object twice) (.object beforehand) := by
  have hchain : ∀ u ∈ some (Value.object document),
      Chainable u (.object first) (.object second) := by
    rintro _ ⟨⟩
    exact h
  exact ⟨_, _, _, _, rfl, rfl, rfl, rfl, same_mergedOver _ hsecond hfirst nofun hchain⟩

/-- Overrides that follow `patchyOverrides`: they give what those leave unset, and set fields of
the layout that those put in the place of a text. -/
def finishingOverrides : Fields :=
  [("layout", .object [("paperSize", .str "a4"), ("type", .unset)]),
   ("tokens", .object [("colors", .object [("primary", .str "#0F172A"), ("text", .unset)]),
     ("spacing", .object [("density", .str "compact"), ("sectionGap", .unset)])]),
   ("sections", .list [.object [("id", .str "projects"), ("column", .unset)], .unset]),
   ("itemOverrides", .object [("skills", .unset)])]

theorem chainable_finishing :
    Chainable (.object compactTheme) (.object patchyOverrides) (.object finishingOverrides) := by
  -- Objects meet at the top, under `tokens`, and there under `colors`.
  refine chainable_of_fields ?_
  simp [compactTheme, patchyOverrides, finishingOverrides, Keyed.get?, chainable_of_no_fields,
    fields?]
  refine chainable_of_fields ?_
  simp [Keyed.get?]
  refine chainable_of_fields ?_
  simp [Keyed.get?, chainable_of_no_fields, fields?]

theorem merge_premerged_finishing :
    OnceThroughout (.object patchyOverrides) ∧ OnceThroughout (.object finishingOverrides) ∧
      Chainable (.object compactTheme) (.object patchyOverrides) (.object finishingOverrides) ∧
      ∃ once twice both beforehand,
        merge (.object compactTheme) (.object patchyOverrides) = .ok once ∧
        merge (.object once) (.object finishingOverrides) = .ok twice ∧
        merge (.object patchyOverrides) (.object finishingOverrides) = .ok both ∧
        merge (.object compactTheme) (.object both) = .ok beforehand ∧
        Same (.object twice) (.object beforehand) :=
  ⟨by decide, by decide, chainable_finishing,
    merge_premerged compactTheme (by decide) (by decide) chainable_finishing⟩

end Value

end Vitae
