import Vitae.Proofs.Compilation
import Vitae.Proofs.Route
import Vitae.Proofs.Typed

/-! Which version a page was made at.

A document with a well-formed version comes up to date or fails, whatever the steps of the
registry do, so its page bears the current version (`Compile.upToDate_eq_ok`). A document
without one is left to validation. Validation refuses every version that is no text of a version,
but it knows more digits than migration does: a version in digits that it alone knows is
admitted as it stands (`Compile.compileDraft_fresh_iff`). -/

namespace Vitae

namespace Migration

/-- A version is supported exactly when there is a route from it. -/
theorem supports_eq (r : Registry) (version : String) :
    r.supports (.str version) = .ok (r.route isGoal (Version.normal version)).isOk := by
  rw [Registry.supports, Registry.canMigrate, pathOf_current]
  cases r.route isGoal (Version.normal version) <;> rfl

end Migration

namespace Compile

open Migration

variable {migrations : Migration.Registry}

/-- A document of a well-formed version that comes up to date is supported, and bears the current
version then. -/
theorem upToDate_eq_ok {fields : Fields} {version : String} {current : Value}
    (h : Value.field fields "version" = .str version)
    (hformed : Version.isWellFormed version = true)
    (hcurrent : (upToDate migrations (.object fields)).result = .ok current) :
    migrations.supports (.str version) = .ok true ∧
      Registry.versionOf current = .str Version.current := by
  rw [upToDate_of_wellFormed h hformed] at hcurrent
  rw [supports_eq]
  cases hroute : migrations.route isGoal (Version.normal version) with
  | error impasse =>
    rw [result_migrate_of_impasse h hroute] at hcurrent
    cases hcurrent
  | ok path =>
    have hchain := Registry.chain_of_route hroute
    obtain ⟨later, rfl⟩ := hchain.exists_cons
    rw [result_migrate h hroute] at hcurrent
    obtain ⟨result, hrun, rfl⟩ := Except.map_eq_ok.mp hcurrent
    obtain ⟨last, hgoal, hlast⟩ := hchain.field_version_run (field_stamped ..) hrun
    rw [isGoal_eq, beq_iff_eq] at hgoal
    exact ⟨rfl, hlast.trans (congrArg Value.str hgoal.symm)⟩

/-- The version that a document is compiled at is the one that its value bears. -/
theorem validate_version {v : Value} {d : Document} (h : Validation.validate v = .ok d) :
    Registry.versionOf v = .str d.version ∧ Version.isAdmitted d.version = true := by
  obtain ⟨fields, rfl, hd⟩ := Document.read_eq_ok.mp (Validation.validate_eq_ok.mp h).1
  obtain ⟨_, _, hversion⟩ := FieldName.required_eq_ok.mp hd.version
  exact ⟨hd.field_version, (Document.readVersion_eq_ok.mp hversion).2⟩

/-- A version that is well formed was migrated; any other is the version of the page. -/
theorem Accepts.version {v : Value} {d : Document} (h : Accepts migrations v d) :
    ∃ version, Registry.versionOf v = .str version ∧ Version.isAdmitted version = true ∧
      (Version.isWellFormed version = true →
        migrations.supports (.str version) = .ok true ∧ d.version = Version.current) ∧
      (Version.isWellFormed version = false → d.version = version) := by
  obtain ⟨current, hcurrent, hvalid⟩ := h
  obtain ⟨hversion, hadmitted⟩ := validate_version hvalid
  rcases wellFormed_or_kept migrations v with
    ⟨fields, version, rfl, hbears, hformed⟩ | ⟨hkept, hmalformed⟩
  · obtain ⟨hsupported, hlast⟩ := upToDate_eq_ok hbears hformed hcurrent
    exact ⟨version, hbears, Version.isAdmitted_of_isWellFormed hformed,
      fun _ => ⟨hsupported, Value.str.inj (hversion.symm.trans hlast)⟩,
      fun hnot => by rw [hformed] at hnot; cases hnot⟩
  · -- Then no step sees the value, and its version is the one that validation reads.
    cases hkept.symm.trans hcurrent
    refine ⟨d.version, hversion, hadmitted, fun h => ?_, fun _ => rfl⟩
    rw [hmalformed _ hversion] at h
    cases h

/-- A page is up to date with respect to the version of what it was made from: that version is
well formed and supported, and the page bears the current one. -/
structure Fresh (migrations : Migration.Registry) (version : String) (ast : Ast) : Prop where
  wellFormed : Version.isWellFormed version = true
  supported : migrations.supports (.str version) = .ok true
  current : ast.info.version = Version.current

/-- **A page is up to date exactly when it was made from a well-formed version.** Otherwise it
bears the version as it was given, and no step was taken. -/
theorem compileDraft_fresh_iff {stamp : Stamp} {draft : Draft} {target resume : Value}
    {sections : SectionRegistry} {ast : Ast}
    (h : (compileDraft stamp draft target resume migrations sections).result = .ok ast) :
    ∃ version, Registry.versionOf draft.value = .str version ∧
      Version.isAdmitted version = true ∧
      (Fresh migrations version ast ↔ Version.isWellFormed version = true) ∧
      (Version.isWellFormed version = false → ast.info.version = version) := by
  obtain ⟨_, d, placed, _, hd, _, rfl⟩ := compile_eq_ok.mp h
  obtain ⟨version, hversion, hadmitted, hformed, hmalformed⟩ := hd.version
  refine ⟨version, hversion, hadmitted, ⟨Fresh.wellFormed, fun h => ?_⟩, hmalformed⟩
  obtain ⟨hsupported, hcurrent⟩ := hformed h
  exact ⟨h, hsupported, hcurrent⟩

/-- A document of the oldest version, in its short form. -/
def shortOldest : Value :=
  documentOf "0.9" "sidebar" [entryOf "skills" true (.int 1) .sidebar]

theorem compileDraft_fresh_iff_shortOldest :
    ∃ ast version, (compileDraft ⟨"", ""⟩ (.raw shortOldest) (.str "html") .null Migration.builtin
        .builtin).result = .ok ast ∧
      Registry.versionOf shortOldest = .str version ∧ Version.isAdmitted version = true ∧
      (Fresh Migration.builtin version ast ↔ Version.isWellFormed version = true) ∧
      (Version.isWellFormed version = false → ast.info.version = version) := by
  have hvalid : Accepts Migration.builtin shortOldest _ :=
    ⟨_, upToDate_of_fromOldest rfl (by decide) (by rfl), by rfl⟩
  obtain ⟨ast, hast⟩ : ∃ ast, (compileDraft ⟨"", ""⟩ (.raw shortOldest) (.str "html") .null
      Migration.builtin .builtin).result = .ok ast := preview_of_accepts rfl hvalid
  obtain ⟨version, hversion⟩ := compileDraft_fresh_iff hast
  exact ⟨ast, version, hast, hversion⟩

/-- A version in digits that came after version 14 of the standard. -/
def recentVersion : String := String.ofList [Char.ofNat 73552, '.', Char.ofNat 73552]

def ofRecentVersion : Value := documentOf recentVersion "single-column" []

/-- Such a version is not well formed and no step leads away from it, and yet it is compiled. -/
theorem ofRecentVersion_not_fresh :
    ∃ ast, (compileDraft ⟨"", ""⟩ (.raw ofRecentVersion) (.str "html") .null Migration.builtin
        .builtin).result = .ok ast ∧
      Registry.versionOf ofRecentVersion = .str recentVersion ∧
      Version.isWellFormed recentVersion = false ∧
      Migration.builtin.supports (.str recentVersion) = .ok false ∧
      ast.info.version ≠ Version.current := by
  have hvalid : Accepts Migration.builtin ofRecentVersion _ := ⟨_, by rfl, by rfl⟩
  have hsupports : Migration.builtin.supports (.str recentVersion) = .ok false := by
    rw [supports_eq, route_of_unknown (by decide)]
    rfl
  exact ⟨_, compile_eq_ok.mpr ⟨.html, _, _, rfl, hvalid, Placement.result_place_null .., rfl⟩,
    rfl, by decide, hsupports, by decide⟩

end Compile

end Vitae
