import Vitae.Proofs.Parallel
import Vitae.Proofs.Renewal

/-! What the built-in steps carry along.

A step looks at the version, the layout and the tokens of a document and replaces these alone,
and the last one fills in overrides where there are none. So two documents that agree there
come up to date side by side, and what else relates them (`Migration.Carried`) relates what
becomes of them (`Migration.Carried.upToDate`). The relations that are used here are refinements
of one: fields that agree beside some names (`Fields.AgreeBeside`). -/

namespace Vitae

/-! ### Fields that agree beside some names -/

/-- Fields that differ at most under these names. -/
def Fields.AgreeBeside (names : List String) (a b : Fields) : Prop :=
  ∀ key : Key, (∀ name ∈ names, key ≠ .str name) → Keyed.get? a key = Keyed.get? b key

namespace Fields.AgreeBeside

variable {names : List String} {a b : Fields}

theorem get?_eq (h : AgreeBeside names a b) {name : String} (hname : name ∉ names) :
    Keyed.get? a name = Keyed.get? b name := by
  refine h name fun other hother heq => hname ?_
  cases heq
  exact hother

theorem set (h : AgreeBeside names a b) (name : String) (v : Value) :
    AgreeBeside names (Keyed.set a (.str name) v) (Keyed.set b (.str name) v) := by
  intro key hkey
  by_cases heq : key = .str name
  · rw [heq, Keyed.get?_set_self, Keyed.get?_set_self]
  · have hne := Key.beq_str_eq_false heq
    rw [Keyed.get?_set_of_ne a v hne, Keyed.get?_set_of_ne b v hne]
    exact h key hkey

/-- What is filled in under one of the names does not count. -/
theorem setDefault (h : AgreeBeside names a b) {name : String} (hname : name ∈ names) (v : Value) :
    AgreeBeside names (Keyed.setDefault a (.str name) v) (Keyed.setDefault b (.str name) v) := by
  intro key hkey
  have hsame (fields : Fields) :
      Keyed.get? (Keyed.setDefault fields (.str name) v) key = Keyed.get? fields key := by
    unfold Keyed.setDefault
    split
    · rfl
    · exact Keyed.get?_set_of_ne fields v (Key.beq_str_eq_false (hkey name hname))
  rw [hsame, hsame]
  exact h key hkey

theorem required_eq {α : Type} (h : AgreeBeside names a b) {name : String} (hname : name ∉ names)
    (read : Value → Checked α) :
    (FieldName.word name).required a read = (FieldName.word name).required b read :=
  FieldName.required_congr (h.get?_eq hname) (h.get?_eq hname) read

theorem optional_eq {α : Type} (h : AgreeBeside names a b) {n : FieldName}
    (hcamel : n.camel ∉ names) (hsnake : n.snake ∉ names) (absent : α) (read : Value → Checked α) :
    n.optional a absent read = n.optional b absent read :=
  FieldName.optional_congr (h.get?_eq hcamel) (h.get?_eq hsnake) absent read

/-- Keys that are no texts agree too. -/
theorem named (h : AgreeBeside names a b) (ha : a.Named) : b.Named := by
  intro f hf
  by_contra hnot
  have hkey : ∀ name ∈ names, f.1 ≠ .str name := fun name _ heq => hnot ⟨name, heq⟩
  have hfound : Keyed.has b f.1 = true := Keyed.has_of_mem hf BEq.rfl
  rw [Keyed.has, ← h f.1 hkey, Option.isSome_iff_exists] at hfound
  obtain ⟨v, hv⟩ := hfound
  obtain ⟨name, hmem, hname⟩ := Keyed.mem_of_get? hv
  obtain ⟨text, htext⟩ := ha _ hmem
  rw [show name = Key.str text from htext] at hname
  exact hnot ⟨text, Key.eq_str_of_beq hname⟩

end Fields.AgreeBeside

namespace Migration

/-- The fields that steps look at and replace. -/
def reshapedNames : List String := ["version", "layout", "tokens"]

/-- A relation between documents that the steps keep. -/
structure Carried (R : Fields → Fields → Prop) : Prop where
  agree : ∀ {a b : Fields}, R a b → ∀ name ∈ reshapedNames, Keyed.get? a name = Keyed.get? b name
  set : ∀ {a b : Fields}, R a b → ∀ name ∈ reshapedNames, ∀ v,
    R (Keyed.set a (.str name) v) (Keyed.set b (.str name) v)
  fill : ∀ {a b : Fields}, R a b →
    R (Keyed.setDefault a "itemOverrides" (.object []))
      (Keyed.setDefault b "itemOverrides" (.object []))

/-- Objects with related fields. -/
inductive Objects (R : Fields → Fields → Prop) : Value → Value → Prop
  | mk {a b : Fields} (h : R a b) : Objects R (.object a) (.object b)

namespace Carried

variable {R : Fields → Fields → Prop} (hR : Carried R) {a b : Fields}

include hR

theorem field_eq (h : R a b) {name : String} (hname : name ∈ reshapedNames) :
    Value.field a name = Value.field b name := by
  rw [Value.field, Value.field, hR.agree h name hname]

theorem stamped (h : R a b) (version : String) :
    R (Migration.stamped version a) (Migration.stamped version b) :=
  hR.set h "version" (by decide) _

/-! ### The steps -/

theorem toFirst (h : R a b) : Except.Parallel R (Migration.toFirst a) (Migration.toFirst b) := by
  have hlayout : Keyed.get? a "layout" = Keyed.get? b "layout" := hR.agree h _ (by decide)
  unfold Migration.toFirst
  rw [← hlayout]
  split
  · exact .bind_self _ fun layout => .ok (hR.set h "layout" (by decide) _)
  · exact .ok h

theorem renameDensity (h : R a b) :
    Except.Parallel R (Migration.renameDensity a) (Migration.renameDensity b) := by
  have htokens : Value.field a "tokens" = Value.field b "tokens" := hR.field_eq h (by decide)
  unfold Migration.renameDensity
  rw [← htokens]
  split
  · exact .ok (hR.set h "tokens" (by decide) _)
  · split
    · exact .error _
    · exact .ok h

theorem addLayoutDefaults (h : R a b) :
    R (Migration.addLayoutDefaults a) (Migration.addLayoutDefaults b) := by
  have hlayout : Keyed.get? a "layout" = Keyed.get? b "layout" := hR.agree h _ (by decide)
  unfold Migration.addLayoutDefaults
  rw [← hlayout]
  split
  · exact hR.set h "layout" (by decide) _
  · exact h

theorem toCurrent (h : R a b) :
    Except.Parallel R (Migration.toCurrent a) (Migration.toCurrent b) :=
  (hR.renameDensity h).bind fun _ _ hrenamed => .ok (hR.fill (hR.addLayoutDefaults hrenamed))

theorem fromFirst (h : R a b) :
    Except.Parallel R (Migration.fromFirst a) (Migration.fromFirst b) :=
  (hR.toCurrent (hR.stamped h _)).map fun _ _ hcurrent => hR.stamped hcurrent _

theorem fromOldest (h : R a b) :
    Except.Parallel R (Migration.fromOldest a) (Migration.fromOldest b) :=
  (hR.toFirst (hR.stamped h _)).bind fun _ _ hfirst => hR.fromFirst hfirst

/-! ### Whole migrations -/

/-- Related documents come up to date in parallel, whichever version they have. -/
theorem upToDate (h : R a b) :
    Except.Parallel (Objects R) (Compile.upToDate builtin (.object a)).result
      (Compile.upToDate builtin (.object b)).result := by
  have hversion : Value.field a "version" = Value.field b "version" := hR.field_eq h (by decide)
  rcases Compile.wellFormed_or_kept builtin (.object a) with
    ⟨_, version, hobject, hbears, hformed⟩ | ⟨hkept, hmalformed⟩
  · cases hobject
    have hbears' : Value.field b "version" = .str version := hversion ▸ hbears
    by_cases hknown : Version.normal version ∈ knownOrigins
    · simp only [knownOrigins, List.mem_cons, List.not_mem_nil, or_false] at hknown
      rcases hknown with holdest | hfirst | hcurrent
      · rw [Compile.upToDate_of_oldest hbears holdest, Compile.upToDate_of_oldest hbears' holdest]
        exact ((hR.fromOldest h).mapError _).map fun _ _ => .mk
      · rw [Compile.upToDate_of_first hbears hfirst, Compile.upToDate_of_first hbears' hfirst]
        exact ((hR.fromFirst h).mapError _).map fun _ _ => .mk
      · rw [Compile.upToDate_of_current hbears hcurrent,
          Compile.upToDate_of_current hbears' hcurrent]
        exact .ok (.mk (hR.stamped h _))
    · rw [Compile.upToDate_of_unknown hbears hformed hknown,
        Compile.upToDate_of_unknown hbears' hformed hknown]
      exact .error _
  · have hmalformed' : ∀ version, Registry.versionOf (.object b) = .str version →
        Version.isWellFormed version = false :=
      fun version hother => hmalformed version (hversion.trans hother)
    rw [hkept, Compile.upToDate_of_malformed hmalformed']
    exact .ok (.mk h)

/-- What becomes of a document, a relative of it becomes of one that is related. -/
theorem exists_upToDate (h : R a b) {current : Value}
    (hcurrent : (Compile.upToDate builtin (.object a)).result = .ok current) :
    ∃ u w, current = .object u ∧ (Compile.upToDate builtin (.object b)).result = .ok (.object w) ∧
      R u w := by
  obtain ⟨_, hother, hobjects⟩ := (hR.upToDate h).exists_ok hcurrent
  cases hobjects with
  | mk h => exact ⟨_, _, rfl, hother, h⟩

end Carried

end Migration

end Vitae
