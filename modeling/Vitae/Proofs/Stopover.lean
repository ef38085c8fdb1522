import Vitae.Proofs.Declared

/-! Migrating by way of a version.

A path may be cut at any version on it: each part is the path between its ends
(`Registry.path_cut`), and the steps of the whole are those of the two parts, one after the other
(`Registry.run_append`). A document that has come half the way bears the version there in its
normal form, so starting out again leaves it as it is. Migrating at once and migrating by way of a
version between come to the same (`Registry.migrate_by_way_of`). -/

namespace Vitae.Migration

/-! ### Cutting a walk -/

section Walks

variable {succ : String → Option String} {first last between : String}
  {before after : List String}

theorem Walk.cut_left (h : Walk succ first last (before ++ between :: after)) :
    Walk succ first between (before ++ [between]) where
  first := by
    have hfirst := h.first
    rwa [List.head?_append, List.head?_cons] at hfirst ⊢
  last := List.getLast?_concat
  linked := by
    have hlinked := h.linked
    rw [List.append_cons] at hlinked
    exact hlinked.left_of_append

theorem Walk.cut_right (h : Walk succ first last (before ++ between :: after)) :
    Walk succ between last (between :: after) where
  first := rfl
  last := by
    have hlast := h.last
    rwa [List.getLast?_append_cons] at hlast
  linked := h.linked.right_of_append

end Walks

namespace Registry

variable {r : Registry} {goal : String → Bool} {version target between : String}
  {path before after : List String} {fields result : Fields} {failure : String → Failure}

/-! ### Cutting a path -/

/-- The versions on a chain are in normal form. -/
theorem Chain.normal_of_mem (hchain : r.Chain goal version path)
    (hversion : Version.normal version = version) :
    ∀ passed ∈ path, Version.normal passed = passed := by
  induction hchain with
  | met _ => exact List.forall_mem_singleton.mpr hversion
  | step hnext _ ih =>
    obtain ⟨step, _, hresult⟩ := Option.map_eq_some_iff.mp hnext
    have hnormal := Version.normal_normal step.target
    exact List.forall_mem_cons.mpr ⟨hversion, ih (hresult ▸ hnormal)⟩

/-- A walk that meets the target once, at its end, is the path. -/
theorem path_of_walk (hwalk : Walk r.next? (Version.normal version) (Version.normal target) path)
    (hbefore : Version.normal target ∉ path.dropLast) : r.path version target = .ok path :=
  (r.path_shortest_iff version target path).mpr ((hwalk.shortest_iff hbefore).mpr rfl)

/-- A path that is cut at a version is the path to that version and the path from there. -/
theorem path_cut (hpath : r.path version target = .ok (before ++ between :: after)) :
    Version.normal between = between ∧ r.path version between = .ok (before ++ [between]) ∧
      r.path between target = .ok (between :: after) := by
  obtain ⟨hwalk, htarget, honce⟩ := walk_of_path hpath
  have hnormal : Version.normal between = between :=
    (chain_of_path hpath).normal_of_mem (Version.normal_normal version) between (by simp)
  refine ⟨hnormal, path_of_walk ?_ ?_, path_of_walk ?_ ?_⟩
  · rw [hnormal]
    exact hwalk.cut_left
  · rw [hnormal, List.dropLast_concat]
    intro hmem
    exact (List.nodup_append.mp honce).2.2 between hmem between List.mem_cons_self rfl
  · rw [hnormal]
    exact hwalk.cut_right
  · rw [List.dropLast_append_of_ne_nil (List.cons_ne_nil _ _), List.mem_append, not_or] at htarget
    exact htarget.2

/-! ### Running a path in parts -/

/-- The failures of a run have no part in its success. -/
theorem run_isOk_congr (first second : String → Failure) :
    (r.run first path fields).result = .ok result ↔
      (r.run second path fields).result = .ok result := by
  induction path generalizing fields with
  | nil => exact Iff.rfl
  | cons version later ih =>
    cases later with
    | nil => exact Iff.rfl
    | cons next later => simp only [run_eq_ok, ih]

theorem run_eq_ok_of_ne_nil {later : List String} (hne : later ≠ []) :
    (r.run failure (version :: later) fields).result = .ok result ↔
      ∃ step, Keyed.get? r.steps version = some step ∧
        ∃ reshaped, step.apply fields = .ok (.object reshaped) ∧
          Value.field reshaped "version" = .str step.result ∧
          (r.run failure later reshaped).result = .ok result := by
  obtain ⟨next, later, rfl⟩ := List.exists_cons_of_ne_nil hne
  exact run_eq_ok

/-- The steps of a path are those of its parts, one after the other. -/
theorem run_append (failure first second : String → Failure) :
    (r.run failure (before ++ between :: after) fields).result = .ok result ↔
      ∃ found, (r.run first (before ++ [between]) fields).result = .ok found ∧
        (r.run second (between :: after) found).result = .ok result := by
  induction before generalizing fields with
  | nil =>
    have hstay : (r.run first [between] fields).result = .ok fields := rfl
    simp only [List.nil_append, hstay, Except.ok.injEq, exists_eq_left']
    exact run_isOk_congr failure second
  | cons version later ih =>
    simp only [List.cons_append, run_eq_ok_of_ne_nil (List.append_ne_nil_of_right_ne_nil later
      (List.cons_ne_nil between _)), ih]
    constructor
    · intro hrun
      obtain ⟨step, hstep, reshaped, happly, hbears, found, hfound, hrest⟩ := hrun
      exact ⟨found, ⟨step, hstep, reshaped, happly, hbears, hfound⟩, hrest⟩
    · intro hrun
      obtain ⟨found, ⟨step, hstep, reshaped, happly, hbears, hfound⟩, hrest⟩ := hrun
      exact ⟨step, hstep, reshaped, happly, hbears, found, hfound, hrest⟩

/-! ### Migrating in parts -/

/-- A migration runs the path that leads to its target. There may be nothing to run: a document
that bears the target in normal form stays as it is. -/
theorem migrate_eq_ok {migrated : Value} (failure : String → Failure)
    (h : Value.field fields "version" = .str version)
    (hpath : r.path version target = .ok path)
    (hsame : version = target → Version.normal version = version) :
    (r.migrate (.object fields) (.str target)).result = .ok migrated ↔
      ∃ made, (r.run failure path (stamped (Version.normal version) fields)).result = .ok made ∧
        .object made = migrated := by
  by_cases heq : version = target
  · subst heq
    have hkept : r.migrate (.object fields) (.str version) = pure (.object fields) := by
      simp [migrate, versionOf, h, alike_text_iff]
    cases (path_self r version).symm.trans hpath
    rw [hsame rfl, stamped_eq_self h, hkept]
    simp [run]
  · obtain ⟨later, rfl⟩ := (chain_of_path hpath).exists_cons
    rw [result_migrate_of_path h (str_alike_of_ne heq) (pathOf_of_path hpath), Except.map_eq_ok]
    simp only [run_isOk_congr (refusal version (.str target)) failure]

/-- From a version on the path, a document goes on as if it had not stopped there. -/
theorem migrate_cut {migrated : Value} (h : Value.field fields "version" = .str version)
    (hne : version ≠ target) (hpath : r.path version target = .ok (before ++ between :: after)) :
    (r.migrate (.object fields) (.str target)).result = .ok migrated ↔
      ∃ found, (r.migrate (.object fields) (.str between)).result = .ok found ∧
        (r.migrate found (.str target)).result = .ok migrated := by
  obtain ⟨hnormal, hbefore, hafter⟩ := path_cut hpath
  -- What comes to the version between bears it, and so is not marked anew.
  let failure := refusal version (.str target)
  have hgoesOn {found : Fields} (hfound : (r.run failure (before ++ [between])
      (stamped (Version.normal version) fields)).result = .ok found) :
      (r.migrate (.object found) (.str target)).result = .ok migrated ↔
        ∃ made, (r.run failure (between :: after) found).result = .ok made ∧
          .object made = migrated := by
    obtain ⟨last, hlast, hbears⟩ :=
      (chain_of_path hbefore).field_version_run (field_stamped _ fields) hfound
    rw [eq_of_beq hlast, hnormal] at hbears
    rw [migrate_eq_ok failure hbears hafter fun _ => hnormal, hnormal, stamped_eq_self hbears]
  have hstays (hsame : version = between) : Version.normal version = version := by
    rw [hsame, hnormal]
  rw [migrate_eq_ok failure h hpath fun hsame => absurd hsame hne]
  simp only [migrate_eq_ok failure h hbefore hstays]
  constructor
  · intro hmigrate
    obtain ⟨made, hmade, hresult⟩ := hmigrate
    obtain ⟨found, hfound, hrest⟩ := (run_append failure failure failure).mp hmade
    exact ⟨.object found, ⟨found, hfound, rfl⟩, (hgoesOn hfound).mpr ⟨made, hrest, hresult⟩⟩
  · intro hmigrate
    obtain ⟨_, ⟨found, hfound, rfl⟩, hmigrate⟩ := hmigrate
    obtain ⟨made, hrest, hresult⟩ := (hgoesOn hfound).mp hmigrate
    exact ⟨made, (run_append failure failure failure).mpr ⟨found, hfound, hrest⟩, hresult⟩

/-- **Migrating by way of a version between changes nothing**: the path is made of the paths to
it and from it, and what can be migrated at once can be migrated in two parts, to the same
document. -/
theorem migrate_by_way_of {target : Value} (h : Value.field fields "version" = .str version)
    (hne : (Value.str version).alike target = false)
    (hpath : r.pathOf (.str version) target = .ok (path.map .str)) (hbetween : between ∈ path) :
    (∃ before after : List String,
      r.pathOf (.str version) (.str between) = .ok (before.map Value.str) ∧
        r.pathOf (.str between) target = .ok (after.map Value.str) ∧ path = before ++ after.tail) ∧
    ∀ migrated, (r.migrate (.object fields) target).result = .ok migrated ↔
      ∃ found, (r.migrate (.object fields) (.str between)).result = .ok found ∧
        (r.migrate found target).result = .ok migrated := by
  obtain ⟨goal, whole, rfl, hwhole, hsame⟩ := exists_text_of_pathOf hpath
  obtain rfl := map_str_injective hsame
  obtain ⟨before, after, rfl⟩ := List.append_of_mem hbetween
  obtain ⟨_, hbefore, hafter⟩ := path_cut hwhole
  have hdiffers : version ≠ goal := by
    intro heq
    rw [alike_text_iff.mpr heq] at hne
    cases hne
  exact ⟨⟨_, _, pathOf_of_path hbefore, pathOf_of_path hafter, by simp⟩,
    fun _ => migrate_cut h hdiffers hwhole⟩

/-- A document of the oldest version, in short form, by way of the first one. -/
theorem migrate_by_way_of_first :
    Value.field [("version", .str "0.9")] "version" = .str "0.9" ∧
      (Value.str "0.9").alike (.str Version.current) = false ∧
      builtin.pathOf (.str "0.9") (.str Version.current) =
        .ok (["0.9.0", "1.0.0", "1.1.0"].map Value.str) ∧
      "1.0.0" ∈ ["0.9.0", "1.0.0", "1.1.0"] ∧
      ∀ migrated, (builtin.migrate (.object [("version", .str "0.9")])
          (.str Version.current)).result = .ok migrated ↔
        ∃ found, (builtin.migrate (.object [("version", .str "0.9")]) (.str "1.0.0")).result =
            .ok found ∧
          (builtin.migrate found (.str Version.current)).result = .ok migrated := by
  have hpath : builtin.pathOf (.str "0.9") (.str Version.current) =
      .ok (["0.9.0", "1.0.0", "1.1.0"].map Value.str) := by
    have hshort : Version.normal "0.9" = "0.9.0" := by rfl
    rw [pathOf_current, hshort, route_oldest]
    rfl
  have hbetween : "1.0.0" ∈ ["0.9.0", "1.0.0", "1.1.0"] := by decide
  exact ⟨by rfl, by rfl, hpath, hbetween,
    (migrate_by_way_of (by rfl) (by rfl) hpath hbetween).2⟩

end Registry

end Vitae.Migration
