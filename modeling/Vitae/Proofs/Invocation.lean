import Vitae.Proofs.Declared

/-! What a migration invokes.

`Registry.migrateRecording` is a migration that keeps a record of the steps it invokes, each with
the document that it was given. A run along a path goes one course (`Registry.Course`): every step
of the path is looked up and invoked in its turn, on a document of the very version that it is kept
under, until one does not give a document of the version that it declares. `after_conduct` says
this of every migration, and that nothing beside these invocations has a part in its outcome. -/

namespace Vitae.Migration

/-- A step that is invoked: the version it was looked up by, and the document it is given. -/
structure Invocation where
  version : String
  step : Step
  given : Fields

namespace Invocation

/-- What comes of an invocation. A step may do anything. -/
def outcome (c : Invocation) : Except Misuse Value := c.step.apply c.given

/-- The document that an invocation delivers: one that bears the version that its step declares. -/
def made? (c : Invocation) : Option Fields :=
  match c.outcome with
  | .ok produced => Registry.stamped? c.step.result produced
  | .error _ => none

/-- How an invocation that does not deliver ends a run. -/
def complaint (failure : String → Failure) (c : Invocation) : Failure :=
  match c.outcome with
  | .ok produced =>
    failure ("step " ++ c.version ++ " -> " ++ c.step.result ++ " produced version '" ++
      Registry.producedText produced ++ "'")
  | .error m => .misuse m

theorem made?_eq_some {c : Invocation} {made : Fields} :
    c.made? = some made ↔
      c.outcome = .ok (.object made) ∧ Value.field made "version" = .str c.step.result := by
  unfold made?
  cases houtcome : c.outcome with
  | error m => simp
  | ok produced => simp [Registry.stamped?_eq_some]

theorem made?_congr {c d : Invocation} (hresult : c.step.result = d.step.result)
    (houtcome : c.outcome = d.outcome) : c.made? = d.made? := by
  rw [made?, made?, houtcome, hresult]

theorem complaint_congr {c d : Invocation} {failure : String → Failure}
    (hversion : c.version = d.version) (hresult : c.step.result = d.step.result)
    (houtcome : c.outcome = d.outcome) : c.complaint failure = d.complaint failure := by
  rw [complaint, complaint, houtcome, hversion, hresult]

end Invocation

namespace Registry

/-! ### Recording -/

/-- `run`, with a record of the steps that it invokes. -/
def runRecording (r : Registry) (failure : String → Failure) :
    List String → Fields → List Invocation × Traced Fields
  | [], fields => ([], pure fields)
  | version :: later, fields =>
    match later, Keyed.get? r.steps version with
    | [], _ => ([], pure fields)
    | _ :: _, none => ([], .fail (failure (Impasse.noStep version).text))
    | _ :: _, some step =>
      let invoked : Invocation := ⟨version, step, fields⟩
      match invoked.made? with
      | none => ([invoked], .fail (invoked.complaint failure))
      | some made =>
        let (others, rest) := r.runRecording failure later made
        (invoked :: others, do
          Traced.note .schema (stepText version step.result)
          rest)

/-- `migrate`, with a record of the steps that it invokes. -/
def migrateRecording (r : Registry) (document target : Value) : List Invocation × Traced Value :=
  let version := versionOf document
  if version.alike target then ([], pure document)
  else
    match document, version with
    | .object fields, .str s =>
      match r.pathOf version target with
      | .error f => ([], .fail f)
      | .ok versions =>
        let path := versions.map Value.display
        let start := path.headD s
        let failure (reason : String) : Failure := .unsupported version target (some reason)
        let (invoked, result) := r.runRecording failure path (stamped start fields)
        (invoked, do
          Traced.note .schema ("Migration path: " ++ String.intercalate " -> " path)
          let result ← result
          pure (.object result))
    | _, _ =>
      ([], .fail (.unsupported (.str version.literal) target
        (some "document has no version string")))

variable {r : Registry} {failure : String → Failure} {version next : String} {later : List String}
  {step : Step} {fields made : Fields}

/-- A run invokes the step from the version it is at, and goes on with what that delivers. -/
theorem run_cons (hstep : Keyed.get? r.steps version = some step) :
    r.run failure (version :: next :: later) fields =
      match (Invocation.mk version step fields).made? with
      | none => .fail ((Invocation.mk version step fields).complaint failure)
      | some made =>
        Traced.note .schema (stepText version step.result) >>= fun _ =>
          r.run failure (next :: later) made := by
  rw [run.eq_def]
  simp only [hstep, Invocation.made?, Invocation.complaint, Invocation.outcome]
  cases step.apply fields with
  | error m => rfl
  | ok produced =>
    refine (Traced.lift_ok_bind produced _).trans ?_
    cases hmade : stamped? step.result produced <;> simp only [hmade]

theorem runRecording_cons (hstep : Keyed.get? r.steps version = some step) :
    r.runRecording failure (version :: next :: later) fields =
      match (Invocation.mk version step fields).made? with
      | none => ([⟨version, step, fields⟩],
          .fail ((Invocation.mk version step fields).complaint failure))
      | some made => (⟨version, step, fields⟩ :: (r.runRecording failure (next :: later) made).1,
          Traced.note .schema (stepText version step.result) >>= fun _ =>
            (r.runRecording failure (next :: later) made).2) := by
  rw [runRecording.eq_def]
  simp only [hstep]

/-- Recording changes nothing. -/
theorem snd_runRecording (r : Registry) (failure : String → Failure) (path : List String)
    (fields : Fields) : (r.runRecording failure path fields).2 = r.run failure path fields := by
  induction path generalizing fields with
  | nil => rfl
  | cons version later ih =>
    cases later with
    | nil => rfl
    | cons next later =>
      cases hstep : Keyed.get? r.steps version with
      | none => simp only [runRecording, run, hstep]
      | some step =>
        rw [runRecording_cons hstep, run_cons hstep]
        cases (Invocation.mk version step fields).made? with
        | none => rfl
        | some made => simp only [ih]

theorem snd_migrateRecording (r : Registry) (document target : Value) :
    (r.migrateRecording document target).2 = r.migrate document target := by
  unfold migrateRecording migrate
  by_cases hsame : (versionOf document).alike target = true
  · simp only [if_pos hsame]
  · simp only [if_neg hsame]
    cases document with
    | object fields =>
      cases versionOf (.object fields) with
      | str s =>
        cases r.pathOf (.str s) target with
        | error f => rfl
        | ok versions =>
          simp only [snd_runRecording]
          rfl
      | _ => rfl
    | _ => rfl

/-! ### The course of a run -/

/-- How a run goes along a path with a document: what it invokes, and what it results in. -/
inductive Course (r : Registry) (failure : String → Failure) :
    List String → Fields → List Invocation → Except Failure Fields → Prop
  | met (version : String) (given : Fields) : Course r failure [version] given [] (.ok given)
  | passed {version : String} {step : Step} {path : List String} {given made : Fields}
      {invoked : List Invocation} {result : Except Failure Fields}
      (hstep : Keyed.get? r.steps version = some step)
      (hmade : (Invocation.mk version step given).made? = some made)
      (rest : Course r failure (step.result :: path) made invoked result) :
      Course r failure (version :: step.result :: path) given (⟨version, step, given⟩ :: invoked)
        result
  | stopped {version : String} {step : Step} {path : List String} {given : Fields}
      (hstep : Keyed.get? r.steps version = some step)
      (hmade : (Invocation.mk version step given).made? = none) :
      Course r failure (version :: step.result :: path) given [⟨version, step, given⟩]
        (.error ((Invocation.mk version step given).complaint failure))

variable {goal : String → Bool} {path : List String} {invoked : List Invocation}
  {result : Except Failure Fields}

/-- Along a chain, what is recorded is the course of the run. -/
theorem Chain.course (hchain : r.Chain goal version path) (failure : String → Failure)
    (fields : Fields) :
    r.Course failure path fields (r.runRecording failure path fields).1
      (r.run failure path fields).result := by
  induction hchain generalizing fields with
  | met _ => exact .met _ fields
  | @step version next path hnext rest ih =>
    obtain ⟨later, rfl⟩ := rest.exists_cons
    obtain ⟨step, hstep, rfl⟩ := Option.map_eq_some_iff.mp hnext
    rw [runRecording_cons hstep, run_cons hstep]
    cases hmade : (Invocation.mk version step fields).made? with
    | none => exact .stopped hstep hmade
    | some made =>
      simp only [Traced.result_bind]
      exact .passed hstep hmade (ih made)

namespace Course

/-- Every step that is invoked was looked up by its version. -/
theorem known (h : r.Course failure path fields invoked result) :
    ∀ c ∈ invoked, Keyed.get? r.steps c.version = some c.step := by
  induction h with
  | met _ _ => exact fun _ hc => absurd hc List.not_mem_nil
  | passed hstep _ _ ih => exact List.forall_mem_cons.mpr ⟨hstep, ih⟩
  | stopped hstep _ => exact List.forall_mem_singleton.mpr hstep

/-- Every step is given a document of the version that it was looked up by. -/
theorem fits (h : r.Course failure (version :: path) fields invoked result)
    (hversion : Value.field fields "version" = .str version) :
    ∀ c ∈ invoked, Value.field c.given "version" = .str c.version := by
  -- What one step delivers bears the version that the rest of the path starts from.
  generalize hwhole : version :: path = whole at h
  induction h generalizing version path with
  | met _ _ => exact fun _ hc => absurd hc List.not_mem_nil
  | passed _ hmade _ ih =>
    cases hwhole
    exact List.forall_mem_cons.mpr
      ⟨hversion, ih (Invocation.made?_eq_some.mp hmade).2 rfl⟩
  | stopped _ _ =>
    cases hwhole
    exact List.forall_mem_singleton.mpr hversion

/-- The steps are those of the path, in its order. -/
theorem inOrder (h : r.Course failure path fields invoked result) :
    invoked.map Invocation.version <+: path.dropLast := by
  induction h with
  | met _ _ => exact List.nil_prefix
  | passed _ _ _ ih => exact List.cons_prefix_cons.mpr ⟨rfl, ih⟩
  | stopped _ _ => exact List.cons_prefix_cons.mpr ⟨rfl, List.nil_prefix⟩

/-- The first step is given the document of the run, and each other one what the step before it
has delivered. -/
theorem handedOn (h : r.Course failure path fields invoked result) :
    (∀ c ∈ invoked.head?, c.given = fields) ∧
      invoked.IsChain fun c later => c.made? = some later.given := by
  induction h with
  | met _ _ => exact ⟨fun _ hc => absurd hc (Option.not_mem_none _), .nil⟩
  | passed _ hmade _ ih =>
    refine ⟨by simp, List.isChain_cons.mpr ⟨fun later hlater => ?_, ih.2⟩⟩
    rw [hmade, ih.1 later hlater]
  | stopped _ _ => exact ⟨by simp, .singleton _⟩

/-- Either the whole path is run, and the result is what the last step has delivered, or the run
ends with the first step that does not deliver. -/
theorem ends (h : r.Course failure path fields invoked result) :
    (invoked.map Invocation.version = path.dropLast ∧ ∃ made, result = .ok made ∧
        (invoked = [] → made = fields) ∧ ∀ last ∈ invoked.getLast?, last.made? = some made) ∨
      ∃ last ∈ invoked.getLast?, last.made? = none ∧
        result = .error (last.complaint failure) := by
  induction h with
  | met _ given => exact .inl ⟨rfl, given, rfl, fun _ => rfl, by simp⟩
  | @passed version step path given made invoked result _ hmade rest ih =>
    rcases ih with ⟨hwhole, final, hfinal, hnone, hlast⟩ | ⟨last, hlast, hstop⟩
    · refine .inl ⟨congrArg (version :: ·) hwhole, final, hfinal, by simp, ?_⟩
      cases invoked with
      | nil => simpa [hnone rfl] using hmade
      | cons c later => rwa [List.getLast?_cons_cons]
    · refine .inr ⟨last, ?_, hstop⟩
      cases invoked with
      | nil => cases hlast
      | cons c later => rwa [List.getLast?_cons_cons]
  | stopped _ hmade => exact .inr ⟨_, rfl, hmade, rfl⟩

end Course

/-! ### Steps that are not invoked -/

/-- A registry with the same steps, but for what they do. -/
def reworked (r : Registry) (work : String → Fields → Except Misuse Value) : Registry :=
  ⟨r.steps.map fun e => (e.1, { e.2 with apply := work e.1 })⟩

variable {work : String → Fields → Except Misuse Value}

theorem get?_reworked (r : Registry) (work : String → Fields → Except Misuse Value)
    (version : String) :
    Keyed.get? (r.reworked work).steps version =
      (Keyed.get? r.steps version).map fun step => { step with apply := work version } := by
  unfold reworked
  induction r.steps with
  | nil => rfl
  | cons e rest ih =>
    by_cases h : e.1 = version
    · subst h
      simp [Keyed.get?]
    · simpa [Keyed.get?, h] using ih

theorem next?_reworked (r : Registry) (work : String → Fields → Except Misuse Value) :
    (r.reworked work).next? = r.next? := by
  funext version
  rw [next?, next?, get?_reworked, Option.map_map]
  rfl

/-- A walk goes by the versions that steps declare alone. -/
theorem walk_eq (goal : String → Bool) (ahead : Keyed String Step) (seen : List String)
    (version : String) :
    walk goal ahead seen version =
      if goal version then .ok [version]
      else
        match (Keyed.get? ahead version).map Step.result with
        | none => .error (.noStep version)
        | some next =>
          if (version :: seen).contains next then .error (.circular version next)
          else
            (walk goal (Keyed.erase ahead version) (version :: seen) next).map (version :: ·) := by
  rw [walk]
  split
  · rfl
  · split
    · rename_i hnone
      simp [hnone]
    · rename_i step hstep
      simp only [hstep, Option.map_some]
      split
      · rfl
      · cases walk goal (Keyed.erase ahead version) (version :: seen) step.result <;> rfl

theorem walk_congr {ahead other : Keyed String Step} {seen : List String}
    (h : ∀ version, (Keyed.get? other version).map Step.result =
      (Keyed.get? ahead version).map Step.result) :
    walk goal other seen version = walk goal ahead seen version := by
  have herase {ahead other : Keyed String Step} (passed : String)
      (h : ∀ version, (Keyed.get? other version).map Step.result =
        (Keyed.get? ahead version).map Step.result) (version : String) :
      (Keyed.get? (Keyed.erase other passed) version).map Step.result =
        (Keyed.get? (Keyed.erase ahead passed) version).map Step.result := by
    by_cases hpassed : version = passed
    · subst hpassed
      rw [Keyed.get?_erase_self, Keyed.get?_erase_self]
    · have hne : (version == passed) = false := beq_eq_false_iff_ne.mpr hpassed
      rw [Keyed.get?_erase_of_ne _ hne, Keyed.get?_erase_of_ne _ hne, h]
  rw [walk_eq goal other, h]
  fun_induction walk goal ahead seen version generalizing other
  case case1 ahead seen version hgoal => rw [if_pos hgoal]
  case case2 ahead seen version hgoal hnone => rw [if_neg hgoal, hnone, Option.map_none]
  case case3 ahead seen version hgoal step hstep next hseen =>
    simp only [if_neg hgoal, hstep, Option.map_some]
    exact if_pos hseen
  all_goals
    rename_i ahead seen version hgoal step hstep next hfresh _ hrest ih
    simp only [if_neg hgoal, hstep, Option.map_some]
    rw [if_neg hfresh, walk_eq, herase version h, ih (herase version h), hrest]
    rfl

theorem pathOf_congr {other : Registry} (h : other.next? = r.next?) (origin target : Value) :
    other.pathOf origin target = r.pathOf origin target := by
  have hroute (goal : String → Bool) (version : String) :
      other.route goal version = r.route goal version := walk_congr (congrFun h)
  unfold pathOf
  simp only [hroute]

/-- A run stays as it is when the steps do what they did on the documents that they were given. -/
theorem Course.run_reworked (h : r.Course failure path fields invoked result)
    (hwork : ∀ c ∈ invoked, work c.version c.given = c.outcome) :
    (r.reworked work).run failure path fields = r.run failure path fields := by
  -- Each step has another function in the new registry, and gives the same document here.
  have hfound {version : String} {step : Step} (hstep : Keyed.get? r.steps version = some step) :
      Keyed.get? (r.reworked work).steps version = some { step with apply := work version } := by
    rw [get?_reworked, hstep]
    rfl
  induction h with
  | met _ _ => rfl
  | @passed version step path given made invoked result hstep hmade rest ih =>
    obtain ⟨hfirst, hlater⟩ := List.forall_mem_cons.mp hwork
    have hsame : (Invocation.mk version { step with apply := work version } given).outcome =
        (Invocation.mk version step given).outcome := hfirst
    rw [run_cons hstep, hmade]
    refine (run_cons (hfound hstep)).trans ?_
    rw [(Invocation.made?_congr (by rfl) hsame).trans hmade]
    simp only [ih hlater]
    rfl
  | @stopped version step path given hstep hmade =>
    have hsame : (Invocation.mk version { step with apply := work version } given).outcome =
        (Invocation.mk version step given).outcome := hwork _ (List.mem_singleton_self _)
    rw [run_cons hstep, hmade]
    refine (run_cons (hfound hstep)).trans ?_
    rw [(Invocation.made?_congr (by rfl) hsame).trans hmade]
    exact congrArg Traced.fail (Invocation.complaint_congr rfl (by rfl) hsame)

/-! ### Migrations -/

variable {target : Value}

theorem Chain.exists_step (h : r.Chain goal version path) :
    ∀ passed ∈ path.dropLast, ∃ step, Keyed.get? r.steps passed = some step := by
  induction h with
  | met _ => exact fun _ hpassed => absurd hpassed List.not_mem_nil
  | step hnext rest ih =>
    obtain ⟨later, rfl⟩ := rest.exists_cons
    obtain ⟨step, hstep, _⟩ := Option.map_eq_some_iff.mp hnext
    exact List.forall_mem_cons.mpr ⟨⟨step, hstep⟩, ih⟩

/-- How a migration of a document from its version to another goes about the steps of a
registry. -/
structure Conduct (r : Registry) (version : String) (fields : Fields) (target : Value)
    (invoked : List Invocation) : Prop where
  /-- A step is looked up by the version that it starts from, and given a document of exactly
  that version. -/
  fits : ∀ c ∈ invoked, Keyed.get? r.steps c.version = some c.step ∧
    Version.normal c.step.origin = c.version ∧ Value.field c.given "version" = .str c.version
  once : (invoked.map Invocation.version).Nodup
  /-- Where there is no path, no step is invoked. -/
  pathless : ∀ f, r.pathOf (.str version) target = .error f →
    invoked = [] ∧ (r.migrate (.object fields) target).result = .error f
  /-- Along a path there is a step from every version but the last. -/
  found : ∀ path : List String, r.pathOf (.str version) target = .ok (path.map .str) →
    ∀ passed ∈ path.dropLast, ∃ step, Keyed.get? r.steps passed = some step
  /-- The steps are those of the path, in its order. -/
  inOrder : ∀ path : List String, r.pathOf (.str version) target = .ok (path.map .str) →
    invoked.map Invocation.version <+: path.dropLast
  /-- Each but the first is given what the one before it has delivered. -/
  handedOn : (∀ c ∈ invoked.head?, c.given = stamped (Version.normal version) fields) ∧
    invoked.IsChain fun c later => c.made? = some later.given
  /-- Either all steps of the path are invoked and the last one delivers the result, or the last
  one that is invoked does not deliver, and the migration fails with its complaint. -/
  ends : ∀ path : List String, r.pathOf (.str version) target = .ok (path.map .str) →
    (invoked.map Invocation.version = path.dropLast ∧
        ∃ made, (r.migrate (.object fields) target).result = .ok (.object made) ∧
          ∀ last ∈ invoked.getLast?, last.made? = some made) ∨
      ∃ last ∈ invoked.getLast?, last.made? = none ∧
        (r.migrate (.object fields) target).result =
          .error (last.complaint (refusal version target))
  /-- A document that is returned bears the normal form of the target. -/
  returned : ∀ result, (r.migrate (.object fields) target).result = .ok result →
    versionOf result = Version.normalValue target
  /-- What the steps would do on other documents has no part in it. -/
  nothingElse : ∀ work, (∀ c ∈ invoked, work c.version c.given = c.outcome) →
    (r.reworked work).migrate (.object fields) target = r.migrate (.object fields) target

section Migrations

variable (h : Value.field fields "version" = .str version)
  (hne : (Value.str version).alike target = false)
include h hne

theorem fst_migrateRecording_of_no_path {f : Failure}
    (hpath : r.pathOf (.str version) target = .error f) :
    (r.migrateRecording (.object fields) target).1 = [] := by
  simp only [migrateRecording, versionOf, h, hne, Bool.false_eq_true, if_false, hpath]

theorem fst_migrateRecording_of_path {start : String}
    (hpath : r.pathOf (.str version) target = .ok ((start :: later).map Value.str)) :
    (r.migrateRecording (.object fields) target).1 =
      (r.runRecording (refusal version target) (start :: later) (stamped start fields)).1 := by
  simp only [migrateRecording, versionOf, h, hne, Bool.false_eq_true, if_false, hpath,
    map_display_str]
  rfl

theorem conduct_of_no_path {f : Failure} (hpath : r.pathOf (.str version) target = .error f) :
    r.Conduct version fields target [] where
  fits _ hc := absurd hc List.not_mem_nil
  once := .nil
  pathless _ hf := by
    cases hpath.symm.trans hf
    exact ⟨rfl, by rw [migrate_of_no_path h hne hpath, Traced.result_fail]⟩
  found _ hfound := by cases hpath.symm.trans hfound
  inOrder _ hfound := by cases hpath.symm.trans hfound
  handedOn := ⟨fun _ hc => absurd hc (Option.not_mem_none _), .nil⟩
  ends _ hfound := by cases hpath.symm.trans hfound
  returned _ hresult := by
    rw [migrate_of_no_path h hne hpath] at hresult
    cases hresult
  nothingElse work _ := by
    have hsame := (pathOf_congr (next?_reworked r work) (.str version) target).trans hpath
    rw [migrate_of_no_path h hne hsame, migrate_of_no_path h hne hpath]

theorem conduct_of_path {goal : String}
    (horigin : ∀ version step, Keyed.get? r.steps version = some step →
      Version.normal step.origin = version)
    (htarget : target = .str goal)
    (hpath : r.path version goal = .ok (Version.normal version :: later)) :
    r.Conduct version fields target (r.runRecording (refusal version target)
      (Version.normal version :: later) (stamped (Version.normal version) fields)).1 := by
  have hpaths : r.pathOf (.str version) target =
      .ok ((Version.normal version :: later).map Value.str) := htarget ▸ pathOf_of_path hpath
  have honly {path : List String} (hfound : r.pathOf (.str version) target = .ok (path.map .str)) :
      path = Version.normal version :: later :=
    map_str_injective (Except.ok.inj (hfound.symm.trans hpaths))
  have hchain := chain_of_path hpath
  have hbears := field_stamped (Version.normal version) fields
  have hcourse := hchain.course (refusal version target)
    (stamped (Version.normal version) fields)
  have hresult := result_migrate_of_path h hne hpaths
  exact
    { fits := fun c hc =>
        ⟨hcourse.known c hc, horigin _ _ (hcourse.known c hc), hcourse.fits hbears c hc⟩
      once := ((walk_of_path hpath).2.2.sublist (List.dropLast_sublist _)).sublist
        hcourse.inOrder.sublist
      pathless := fun f hf => by cases hpaths.symm.trans hf
      found := fun path hfound => honly hfound ▸ hchain.exists_step
      inOrder := fun path hfound => honly hfound ▸ hcourse.inOrder
      handedOn := hcourse.handedOn
      ends := fun path hfound => by
        rw [honly hfound, hresult]
        rcases hcourse.ends with ⟨hwhole, made, hmade, _, hlast⟩ | ⟨last, hlast, hnone, hfails⟩
        · exact .inl ⟨hwhole, made, by rw [hmade]; rfl, hlast⟩
        · exact .inr ⟨last, hlast, hnone, by rw [hfails]; rfl⟩
      returned := fun result hreturned => by
        rw [hresult] at hreturned
        obtain ⟨made, hmade, rfl⟩ := Except.map_eq_ok.mp hreturned
        obtain ⟨last, hlast, hversion⟩ := hchain.field_version_run hbears hmade
        rw [htarget, Version.normalValue, ← eq_of_beq hlast]
        exact hversion
      nothingElse := fun work hwork => by
        have hsame := (pathOf_congr (next?_reworked r work) (.str version) target).trans hpaths
        rw [migrate_of_path h hne hsame, migrate_of_path h hne hpaths, hcourse.run_reworked hwork] }

end Migrations

/-- **A migration invokes the steps of its path**, each on a document of its version, and nothing
else has a part in its outcome. -/
theorem after_conduct (calls : List Call) (h : Value.field fields "version" = .str version)
    (hne : (Value.str version).alike target = false) :
    ∃ invoked, (after calls).migrateRecording (.object fields) target =
        (invoked, (after calls).migrate (.object fields) target) ∧
      (after calls).Conduct version fields target invoked := by
  refine ⟨((after calls).migrateRecording (.object fields) target).1,
    Prod.ext rfl (snd_migrateRecording _ _ _), ?_⟩
  cases hpath : (after calls).pathOf (.str version) target with
  | error f =>
    rw [fst_migrateRecording_of_no_path h hne hpath]
    exact conduct_of_no_path h hne hpath
  | ok versions =>
    obtain ⟨goal, path, htarget, hfound, rfl⟩ := exists_text_of_pathOf hpath
    obtain ⟨later, rfl⟩ := (chain_of_path hfound).exists_cons
    rw [fst_migrateRecording_of_path h hne hpath]
    exact conduct_of_path h hne (fun _ _ => origin_of_get?_after) htarget hfound

/-- Calls for two steps, of which the second gives no document. -/
def speechless : List Call :=
  [.registerAll [marking "0.9" "1.0.0", ⟨"1.0", "1.1.0", fun _ => .ok .null⟩]]

theorem after_conduct_speechless :
    Value.field [("version", .str "0.9")] "version" = .str "0.9" ∧
      (Value.str "0.9").alike (.str "1.1") = false ∧
      ∃ invoked, (after speechless).migrateRecording (.object [("version", .str "0.9")])
          (.str "1.1") =
          (invoked, (after speechless).migrate (.object [("version", .str "0.9")]) (.str "1.1")) ∧
        (after speechless).Conduct "0.9" [("version", .str "0.9")] (.str "1.1") invoked :=
  ⟨by rfl, by rfl, after_conduct speechless (by rfl) (by rfl)⟩

end Registry

end Vitae.Migration
