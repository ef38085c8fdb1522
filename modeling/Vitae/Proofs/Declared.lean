import Vitae.Proofs.Search

/-! Steps that keep to what they declare.

A step declares the version that it leads to, and a faithful one marks its result with that
version as it was written (`Registry.Faithful`). A search goes by versions in normal form, and so
does the check of what a step has made. So a chain of faithful steps can be run exactly when each
of them declares its version in normal form (`Registry.Chain.run_isOk_iff`): a version in its
short form is good enough to be found, and not good enough to be migrated to
(`Registry.after_delivers_iff`). -/

namespace Vitae

/-! ### Normal versions -/

namespace Version

theorem length_parts (cs : List Char) : (parts cs).length = cs.count '.' + 1 := by
  induction cs with
  | nil => rfl
  | cons c rest ih =>
    by_cases h : c = '.'
    · subst h
      rw [parts, if_pos rfl, List.length_cons, ih, List.count_cons_self]
    · rw [parts, if_neg h, List.count_cons_of_ne h, ← ih]
      cases hrest : parts rest with
      | nil =>
        rw [hrest] at ih
        cases ih
      | cons part later => rfl

theorem count_withoutBreak (cs : List Char) : (withoutBreak cs).count '.' = cs.count '.' := by
  unfold withoutBreak
  split
  · rename_i rest hrest
    rw [← List.count_reverse (l := cs), hrest, List.count_reverse]
    exact (List.count_cons_of_ne (by decide)).symm
  · rfl

/-- There is one point in a short version. -/
theorem count_of_isShort {text : String} (h : isShort text = true) :
    text.toList.count '.' = 1 := by
  have hruns {cs : List Char} (hcs : hasRuns Text.isDigit 2 cs = true) : cs.count '.' = 1 := by
    simp only [hasRuns, Bool.and_eq_true, beq_iff_eq, length_parts] at hcs
    omega
  rcases Bool.or_eq_true_iff.mp h with hwhole | hbroken
  · exact hruns hwhole
  · rw [← count_withoutBreak]
    exact hruns hbroken

/-- A version that was written out is not short any more. -/
theorem normal_normal (text : String) : normal (normal text) = normal text := by
  by_cases h : isShort text = true
  · have hlong : isShort (text ++ ".0") = false := by
      rw [Bool.eq_false_iff]
      intro hshort
      have hone := count_of_isShort hshort
      rw [String.toList_append, List.count_append, count_of_isShort h] at hone
      exact absurd hone (by decide)
    have hnormal : normal text = text ++ ".0" := if_pos h
    rw [hnormal, normal, hlong]
    rfl
  · simp [normal, h]

end Version

namespace Migration.Registry

/-! ### Faithful steps -/

/-- Whatever object a step is given, it returns one that bears the version that the step
declares. -/
def Faithful (r : Registry) : Prop :=
  ∀ version step, Keyed.get? r.steps version = some step → ∀ fields, ∃ produced,
    step.apply fields = .ok (.object produced) ∧
      Value.field produced "version" = .str step.target

/-- The step from a version declares the version it leads to in normal form. -/
def SpeltOut (r : Registry) (version : String) : Prop :=
  ∀ step, Keyed.get? r.steps version = some step → step.target = step.result

/-- Whether a document of a version can be migrated is what is said of it beforehand. -/
def Delivers (r : Registry) : Prop :=
  ∀ fields version target, Value.field fields "version" = .str version →
    ((∃ result, (r.migrate (.object fields) (.str target)).result = .ok result) ↔
      r.canMigrate (.str version) (.str target) = .ok true)

variable {r : Registry} {goal : String → Bool} {version target : String} {path : List String}
  {fields : Fields} {failure : String → Failure}

/-- A chain of faithful steps can be run exactly when each of them is spelt out. -/
theorem Chain.run_isOk_iff (hfaithful : r.Faithful) (hchain : r.Chain goal version path) :
    (∃ result, (r.run failure path fields).result = .ok result) ↔
      ∀ passed ∈ path.dropLast, r.SpeltOut passed := by
  induction hchain generalizing fields with
  | met _ => exact ⟨fun _ _ h => (List.not_mem_nil h).elim, fun _ => ⟨fields, rfl⟩⟩
  | @step version next path hnext rest ih =>
    obtain ⟨later, rfl⟩ := rest.exists_cons
    obtain ⟨step, hstep, _⟩ := Option.map_eq_some_iff.mp hnext
    obtain ⟨produced, hproduced, hbears⟩ := hfaithful version step hstep fields
    have hspelt : r.SpeltOut version ↔ step.target = step.result := by
      simp [SpeltOut, hstep]
    have hrest : (∃ result, (r.run failure (version :: next :: later) fields).result = .ok result) ↔
        step.target = step.result ∧
          ∃ result, (r.run failure (next :: later) produced).result = .ok result := by
      simp [run_eq_ok, hstep, hproduced, hbears]
    rw [hrest, ih, List.dropLast_cons_cons, List.forall_mem_cons, hspelt]

theorem alike_text_iff {a b : String} : (Value.str a).alike (.str b) = true ↔ a = b := by
  simp [Value.alike, Value.alikeLeaf]

theorem str_alike_of_ne {a b : String} (h : a ≠ b) : (Value.str a).alike (.str b) = false :=
  Bool.eq_false_iff.mpr (alike_text_iff.not.mpr h)

theorem pathOf_of_path (h : r.path version target = .ok path) :
    r.pathOf (.str version) (.str target) = .ok (path.map Value.str) := by
  rw [pathOf_str, h]
  rfl

theorem map_str_injective : Function.Injective (List.map Value.str) :=
  List.map_injective_iff.mpr fun _ _ => Value.str.inj

theorem map_display_str (path : List String) : (path.map Value.str).map Value.display = path := by
  rw [List.map_map]
  exact List.map_id _

/-- The failure of a migration between two versions, for a reason. -/
def refusal (version : String) (target : Value) (reason : String) : Failure :=
  .unsupported (.str version) target (some reason)

/-- A document comes to another version along the path that leads there. -/
theorem migrate_of_path {start : String} {later : List String} {goal : Value}
    (h : Value.field fields "version" = .str version)
    (hne : (Value.str version).alike goal = false)
    (hpath : r.pathOf (.str version) goal = .ok ((start :: later).map Value.str)) :
    r.migrate (.object fields) goal =
      Traced.note .schema ("Migration path: " ++ String.intercalate " -> " (start :: later)) >>=
        fun _ => r.run (refusal version goal) (start :: later) (stamped start fields) >>=
          fun result => pure (.object result) := by
  unfold migrate
  simp only [versionOf, h, hne, Bool.false_eq_true, if_false, hpath, Traced.ofExcept_ok_bind,
    map_display_str]
  rfl

theorem migrate_of_no_path {goal : Value} {f : Failure}
    (h : Value.field fields "version" = .str version)
    (hne : (Value.str version).alike goal = false)
    (hpath : r.pathOf (.str version) goal = .error f) :
    r.migrate (.object fields) goal = .fail f := by
  unfold migrate
  simp only [versionOf, h, hne, Bool.false_eq_true, if_false, hpath]
  rfl

theorem result_migrate_of_path {start : String} {later : List String} {goal : Value}
    (h : Value.field fields "version" = .str version)
    (hne : (Value.str version).alike goal = false)
    (hpath : r.pathOf (.str version) goal = .ok ((start :: later).map Value.str)) :
    (r.migrate (.object fields) goal).result =
      (r.run (refusal version goal) (start :: later) (stamped start fields)).result.map
        .object := by
  rw [migrate_of_path h hne hpath]
  simp only [Traced.result_bind]
  cases (r.run (refusal version goal) (start :: later) (stamped start fields)).result <;> rfl

/-- A migration to another version runs the path that leads there. -/
theorem migrate_isOk_iff_run {start : String} {later : List String}
    (h : Value.field fields "version" = .str version) (hne : version ≠ target)
    (hpath : r.path version target = .ok (start :: later)) :
    (∃ result, (r.migrate (.object fields) (.str target)).result = .ok result) ↔
      ∃ result, (r.run (refusal version (.str target)) (start :: later)
        (stamped start fields)).result = .ok result := by
  rw [result_migrate_of_path h (str_alike_of_ne hne) (pathOf_of_path hpath)]
  simp [Except.map_eq_ok]

theorem canMigrate_iff (r : Registry) (version target : String) :
    r.canMigrate (.str version) (.str target) = .ok true ↔
      ∃ path, r.path version target = .ok path := by
  rw [canMigrate_str]
  cases r.path version target <;> simp [Except.isOk, Except.toBool]

theorem path_self (r : Registry) (version : String) :
    r.path version version = .ok [Version.normal version] := by
  have hroute : r.route (· == Version.normal version) (Version.normal version) =
      .ok [Version.normal version] := walk_of_goal (beq_self_eq_true _)
  rw [path_eq, hroute]
  rfl

theorem chain_of_path (h : r.path version target = .ok path) :
    r.Chain (· == Version.normal target) (Version.normal version) path := by
  rw [path_eq] at h
  cases hroute : r.route (· == Version.normal target) (Version.normal version) with
  | error e =>
    rw [hroute] at h
    cases h
  | ok found =>
    rw [hroute] at h
    cases h
    exact chain_of_route hroute

theorem Chain.exists_goal (h : r.Chain goal version path) : ∃ last, goal last = true := by
  induction h with
  | met hgoal => exact ⟨_, hgoal⟩
  | step _ _ ih => exact ih

/-- A walk along the versions of steps can only meet a text. -/
theorem exists_text_of_pathOf {goal : Value} {versions : List Value}
    (h : r.pathOf (.str version) goal = .ok versions) :
    ∃ text path, goal = .str text ∧ r.path version text = .ok path ∧
      versions = path.map Value.str := by
  have hmet : ∃ last, (Version.normalValue goal).alike (.str last) = true := by
    unfold pathOf at h
    dsimp only at h
    split at h
    · rename_i path hroute
      exact (chain_of_route hroute).exists_goal
    · cases h
  obtain ⟨last, hlast⟩ := hmet
  cases goal with
  | str text =>
    rw [pathOf_str] at h
    obtain ⟨path, hpath, rfl⟩ := Except.map_eq_ok.mp h
    exact ⟨text, path, rfl, hpath, rfl⟩
  | _ => simp [Version.normalValue, Value.alike, Value.alikeLeaf, Value.comparable?] at hlast

/-- With faithful steps, a document can be migrated when there is a path whose steps are spelt
out, or none has to be run. -/
theorem migrate_isOk_iff (hfaithful : r.Faithful) (h : Value.field fields "version" = .str version)
    (target : String) :
    (∃ result, (r.migrate (.object fields) (.str target)).result = .ok result) ↔
      r.canMigrate (.str version) (.str target) = .ok true ∧
        (version = target ∨ ∀ path, r.path version target = .ok path →
          ∀ passed ∈ path.dropLast, r.SpeltOut passed) := by
  rw [canMigrate_iff]
  by_cases hsame : version = target
  · subst hsame
    have hkept : r.migrate (.object fields) (.str version) = pure (.object fields) := by
      simp [migrate, versionOf, h, alike_text_iff]
    rw [hkept]
    exact ⟨fun _ => ⟨⟨_, path_self r version⟩, .inl rfl⟩, fun _ => ⟨_, rfl⟩⟩
  · cases hpath : r.path version target with
    | error f =>
      have hpaths := pathOf_str r version target
      rw [hpath] at hpaths
      simp [migrate_of_no_path h (str_alike_of_ne hsame) hpaths]
    | ok path =>
      have hchain := chain_of_path hpath
      obtain ⟨later, rfl⟩ := hchain.exists_cons
      rw [migrate_isOk_iff_run h hsame hpath, hchain.run_isOk_iff hfaithful]
      simp [hsame]

/-! ### Registries that deliver -/

/-- A step that is run on a path leads away from where it starts. -/
theorem next?_ne_of_mem_dropLast {passed : String}
    (hlinked : path.IsChain fun version next => r.next? version = some next) (honce : path.Nodup)
    (hpassed : passed ∈ path.dropLast) : r.next? passed ≠ some passed := by
  induction path with
  | nil => cases hpassed
  | cons first rest ih =>
    cases rest with
    | nil => cases hpassed
    | cons second rest =>
      obtain ⟨hnext, hlinked⟩ := List.isChain_cons_cons.mp hlinked
      obtain ⟨hfirst, honce⟩ := List.nodup_cons.mp honce
      rcases List.mem_cons.mp hpassed with rfl | hpassed
      · intro hloop
        obtain rfl := Option.some.inj (hnext.symm.trans hloop)
        exact hfirst (List.mem_cons_self ..)
      · exact ih hlinked honce hpassed

/-- Steps are kept under the normal form of the version that they start from. -/
theorem origin_of_get?_after {calls : List Call} {step : Step}
    (h : Keyed.get? (after calls).steps version = some step) :
    Version.normal step.origin = version := by
  rw [after_eq, ofSteps, get?_registerAll] at h
  have hfound : ((registered calls).reverse.find? fun s => Version.normal s.origin == version) =
      some step := by
    simpa [empty] using h
  have horigin := List.find?_some hfound
  exact eq_of_beq horigin

theorem normal_of_get?_after {calls : List Call} {step : Step}
    (h : Keyed.get? (after calls).steps version = some step) :
    Version.normal version = version := by
  rw [← origin_of_get?_after h, Version.normal_normal]

/-- A step that leads elsewhere is a path of its own. -/
theorem path_of_step {start : String} {step : Step} (hversion : Version.normal version = start)
    (hstep : Keyed.get? r.steps start = some step) (hne : step.result ≠ start)
    (htarget : Version.normal target = step.result) :
    r.path version target = .ok [start, step.result] := by
  have hroute : r.route (· == step.result) start = .ok [start, step.result] :=
    walk_of_step (by simpa using Ne.symm hne) hstep (by simpa using hne)
      (walk_of_goal (beq_self_eq_true _))
  rw [path_eq, htarget, hversion, hroute]
  rfl

/-- **Faithful steps deliver exactly when they are spelt out**: each that leads elsewhere declares
its version in normal form. Whatever they declare, a document is migrated when there is a path
for it on which every step that is run is spelt out. -/
theorem after_delivers_iff {calls : List Call} (hfaithful : (after calls).Faithful) :
    ((after calls).Delivers ↔ ∀ version step, Keyed.get? (after calls).steps version = some step →
      step.result = version ∨ step.target = step.result) ∧
    ∀ fields version target, Value.field fields "version" = .str version →
      ((∃ result, ((after calls).migrate (.object fields) (.str target)).result = .ok result) ↔
        (after calls).canMigrate (.str version) (.str target) = .ok true ∧
          (version = target ∨ ∀ path, (after calls).path version target = .ok path →
            ∀ passed ∈ path.dropLast, (after calls).SpeltOut passed)) := by
  refine ⟨⟨fun hdelivers version step hstep => ?_, fun hspelt fields version target h => ?_⟩,
    fun fields version target h => migrate_isOk_iff hfaithful h target⟩
  · -- A document of the version that the step starts from is migrated by that step alone.
    by_cases hloop : step.result = version
    · exact .inl hloop
    · right
      have hpath := path_of_step (normal_of_get?_after hstep) hstep hloop
        (Version.normal_normal step.target)
      have hbears := field_stamped version []
      have hcan := ((after calls).canMigrate_iff version step.result).mpr ⟨_, hpath⟩
      obtain ⟨_, hspelt⟩ := (migrate_isOk_iff hfaithful hbears step.result).mp
        ((hdelivers _ _ _ hbears).mpr hcan)
      rcases hspelt with hsame | hspelt
      · exact absurd hsame.symm hloop
      · exact hspelt _ hpath version (by simp) step hstep
  · rw [migrate_isOk_iff hfaithful h target, and_iff_left_iff_imp]
    intro _
    right
    intro path hpath passed hpassed step hstep
    obtain ⟨hwalk, _, honce⟩ := walk_of_path hpath
    rcases hspelt passed step hstep with hloop | htarget
    · have hnext : (after calls).next? passed = some passed := by rw [next?, hstep, ← hloop]; rfl
      exact absurd hnext (next?_ne_of_mem_dropLast hwalk.linked honce hpassed)
    · exact htarget

/-- A step that does nothing but mark a document with the version that it declares. -/
def marking (origin target : String) : Step := reshaping origin target .ok

/-- The registry of one such step. -/
def ofMarking (origin target : String) : Registry := after [.register (marking origin target)]

variable {origin : String}

theorem get?_ofMarking (origin target version : String) :
    Keyed.get? (ofMarking origin target).steps version =
      if Version.normal origin == version then some (marking origin target) else none :=
  get?_register empty (marking origin target) version

theorem eq_marking_of_get? {step : Step}
    (h : Keyed.get? (ofMarking origin target).steps version = some step) :
    step = marking origin target := by
  rw [get?_ofMarking, Option.ite_none_right_eq_some] at h
  exact (Option.some.inj h.2).symm

theorem faithful_ofMarking (origin target : String) : (ofMarking origin target).Faithful := by
  intro version step hstep fields
  rw [eq_marking_of_get? hstep]
  exact ⟨stamped target fields, rfl, field_stamped target fields⟩

/-- The versions of a document and of its target may be short. -/
theorem after_delivers_iff_marking :
    (ofMarking "1.0.0" "1.1.0").Faithful ∧ (ofMarking "1.0.0" "1.1.0").Delivers ∧
      ∃ result, ((ofMarking "1.0.0" "1.1.0").migrate (.object [("version", .str "1.0")])
        (.str "1.1")).result = .ok result := by
  have hfaithful : (after [.register (marking "1.0.0" "1.1.0")]).Faithful :=
    faithful_ofMarking "1.0.0" "1.1.0"
  have hspelt (version : String) (step : Step)
      (hstep : Keyed.get? (ofMarking "1.0.0" "1.1.0").steps version = some step) :
      step.target = step.result := by
    rw [eq_marking_of_get? hstep]
    rfl
  have hstep : Keyed.get? (ofMarking "1.0.0" "1.1.0").steps "1.0.0" =
      some (marking "1.0.0" "1.1.0") := by
    rw [get?_ofMarking]
    rfl
  have hpath : (ofMarking "1.0.0" "1.1.0").path "1.0" "1.1" = .ok ["1.0.0", "1.1.0"] :=
    path_of_step (by rfl) hstep (by decide) (by rfl)
  have hcan := (canMigrate_iff (ofMarking "1.0.0" "1.1.0") "1.0" "1.1").mpr ⟨_, hpath⟩
  obtain ⟨hdelivers, hmigrate⟩ := after_delivers_iff hfaithful
  exact ⟨hfaithful, hdelivers.mpr fun version step h => .inr (hspelt version step h),
    (hmigrate _ "1.0" "1.1" (by rfl)).mpr ⟨hcan, .inr fun _ _ passed _ => hspelt passed⟩⟩

/-- A faithful step that declares a short version is found, and its result turned away. -/
theorem shortTarget_not_delivers :
    (ofMarking "1.0.0" "1.1").Faithful ∧
      (ofMarking "1.0.0" "1.1").canMigrate (.str "1.0.0") (.str "1.1") = .ok true ∧
      ((ofMarking "1.0.0" "1.1").migrate (.object [("version", .str "1.0.0")])
          (.str "1.1")).result =
        .error (.unsupported (.str "1.0.0") (.str "1.1")
          (some "step 1.0.0 -> 1.1.0 produced version '1.1'")) ∧
      ¬ (ofMarking "1.0.0" "1.1").Delivers := by
  have hstep : Keyed.get? (ofMarking "1.0.0" "1.1").steps "1.0.0" =
      some (marking "1.0.0" "1.1") := by
    rw [get?_ofMarking]
    rfl
  have hpath : (ofMarking "1.0.0" "1.1").path "1.0.0" "1.1" = .ok ["1.0.0", "1.1.0"] :=
    path_of_step (by rfl) hstep (by decide) (by rfl)
  have hcan := (canMigrate_iff (ofMarking "1.0.0" "1.1") "1.0.0" "1.1").mpr ⟨_, hpath⟩
  have hbears : Value.field [("version", Value.str "1.0.0")] "version" = .str "1.0.0" := by rfl
  have hfails : ((ofMarking "1.0.0" "1.1").migrate (.object [("version", .str "1.0.0")])
      (.str "1.1")).result = .error (.unsupported (.str "1.0.0") (.str "1.1")
        (some "step 1.0.0 -> 1.1.0 produced version '1.1'")) := by
    have hpaths := pathOf_str (ofMarking "1.0.0" "1.1") "1.0.0" "1.1"
    rw [hpath] at hpaths
    have hne : ¬ (Value.str "1.0.0").alike (.str "1.1") = true :=
      alike_text_iff.not.mpr (by decide)
    simp only [migrate, versionOf, hbears, if_neg hne, hpaths, Traced.result_bind,
      Traced.result_ofExcept]
    rfl
  refine ⟨faithful_ofMarking "1.0.0" "1.1", hcan, hfails, fun hdelivers => ?_⟩
  obtain ⟨result, hresult⟩ := (hdelivers _ _ _ hbears).mpr hcan
  cases hfails.symm.trans hresult

end Migration.Registry

end Vitae
