import Vitae.Compile

/-! How a document comes up to date.

Documents of three versions are known: the oldest, the first and the current one. For
each there is a lemma that says what the built-in steps make of it, one for a document of
a version that no step leads away from, and one for a document whose version is no text
of a version at all. Together they are all that later proofs know about migration. -/

namespace Vitae

theorem Except.bind_eq_ok {ε α β : Type} {x : Except ε α} {f : α → Except ε β} {b : β} :
    x.bind f = .ok b ↔ ∃ a, x = .ok a ∧ f a = .ok b := by
  cases x <;> simp [Except.bind]

theorem Except.map_eq_ok {ε α β : Type} {x : Except ε α} {f : α → β} {b : β} :
    x.map f = .ok b ↔ ∃ a, x = .ok a ∧ f a = b := by
  cases x <;> simp [Except.map]

/-! ### Versions -/

theorem Version.eq_or_eq_of_normal {s : String} (short : String)
    (h : Version.normal s = short ++ ".0") :
    s = short ∨ s = short ++ ".0" := by
  unfold Version.normal at h
  split at h
  · have hlist := congrArg String.toList h
    rw [String.toList_append, String.toList_append] at hlist
    exact .inl (String.toList_inj.mp (List.append_cancel_right hlist))
  · exact .inr h

namespace Migration

/-! ### Routes -/

namespace Registry

variable {goal : String → Bool} {ahead : Keyed String Step} {seen : List String}
  {version : String}

theorem walk_of_goal (h : goal version = true) : walk goal ahead seen version = .ok [version] := by
  rw [walk, if_pos h]

theorem walk_of_none (hgoal : goal version = false) (h : Keyed.get? ahead version = none) :
    walk goal ahead seen version = .error (.noStep version) := by
  rw [walk, if_neg (by simp [hgoal])]
  split
  · rfl
  · rename_i hstep
    rw [h] at hstep
    cases hstep

theorem walk_of_step {step : Step} {rest : List String} (hgoal : goal version = false)
    (h : Keyed.get? ahead version = some step)
    (hfresh : (version :: seen).contains step.result = false)
    (hrest : walk goal (Keyed.erase ahead version) (version :: seen) step.result = .ok rest) :
    walk goal ahead seen version = .ok (version :: rest) := by
  rw [walk, if_neg (by simp [hgoal])]
  split
  · rename_i hnone
    rw [h] at hnone
    cases hnone
  · rename_i found hfound
    rw [h] at hfound
    cases hfound
    simp only [hfresh, hrest, Bool.false_eq_true, if_false]

end Registry

theorem builtin_steps :
    builtin.steps =
      [("0.9.0", reshaping "0.9.0" "1.0.0" toFirst),
       ("1.0.0", reshaping "1.0.0" "1.1.0" toCurrent)] := by
  rfl

/-- What ends a walk: the version that documents are compiled at. -/
def isGoal (version : String) : Bool :=
  (Version.normalValue (.str Version.current)).alike (.str version)

theorem isGoal_eq (version : String) : isGoal version = ("1.1.0" == version) := by
  have hnormal : Version.normalValue (.str Version.current) = .str "1.1.0" := by rfl
  simp [isGoal, hnormal, Value.alike, Value.alikeLeaf]

theorem route_current (r : Registry) : r.route isGoal "1.1.0" = .ok ["1.1.0"] :=
  Registry.walk_of_goal (by rw [isGoal_eq]; rfl)

theorem route_first : builtin.route isGoal "1.0.0" = .ok ["1.0.0", "1.1.0"] := by
  rw [Registry.route, builtin_steps]
  refine Registry.walk_of_step (by rw [isGoal_eq]; rfl) (by rfl) (by decide) ?_
  exact Registry.walk_of_goal (by rw [isGoal_eq]; rfl)

theorem route_oldest : builtin.route isGoal "0.9.0" = .ok ["0.9.0", "1.0.0", "1.1.0"] := by
  rw [Registry.route, builtin_steps]
  refine Registry.walk_of_step (by rw [isGoal_eq]; rfl) (by rfl) (by decide) ?_
  refine Registry.walk_of_step (by rw [isGoal_eq]; rfl) (by rfl) (by decide) ?_
  exact Registry.walk_of_goal (by rw [isGoal_eq]; rfl)

/-- The versions that a step starts from, and the current one. -/
def knownOrigins : List String := ["0.9.0", "1.0.0", "1.1.0"]

theorem route_of_unknown {version : String} (h : version ∉ knownOrigins) :
    builtin.route isGoal version = .error (.noStep version) := by
  simp only [knownOrigins, List.mem_cons, List.not_mem_nil, or_false, not_or] at h
  obtain ⟨holdest, hfirst, hcurrent⟩ := h
  rw [Registry.route, builtin_steps]
  refine Registry.walk_of_none ?_ ?_
  · rw [isGoal_eq, beq_eq_false_iff_ne]
    exact Ne.symm hcurrent
  · simp [Keyed.get?, Ne.symm holdest, Ne.symm hfirst]

/-! ### Steps -/

theorem field_stamped (version : String) (document : Fields) :
    Value.field (stamped version document) "version" = .str version := by
  rw [Value.field, stamped, Keyed.get?_set_self]
  rfl

theorem stamped?_stamped (version : String) (document : Fields) :
    Registry.stamped? version (.object (stamped version document)) =
      some (stamped version document) := by
  simp [Registry.stamped?, field_stamped]

/-- What runs after a step goes on with the document that it reshaped. -/
theorem result_run_reshaping {r : Registry} {failure : String → Failure}
    {version origin target next : String} {reshape : Fields → Except Misuse Fields}
    {later : List String} {document : Fields}
    (hstep : Keyed.get? r.steps version = some (reshaping origin target reshape))
    (htarget : Version.normal target = target) :
    (r.run failure (version :: next :: later) document).result =
      ((reshape document).mapError .misuse).bind fun reshaped =>
        (r.run failure (next :: later) (stamped target reshaped)).result := by
  have hresult : (reshaping origin target reshape).result = target := htarget
  simp only [Registry.run, hstep, Traced.result_bind, hresult]
  show (Except.mapError _ ((reshape document).bind _)).bind _ = _
  cases reshape document with
  | error m => rfl
  | ok reshaped =>
    show Except.bind (.ok (Value.object (stamped target reshaped))) _ =
      Except.bind (.ok reshaped) _
    simp [Except.bind, stamped?_stamped, Traced.note]

/-- What the last step makes of a document of the first version. -/
def fromFirst (document : Fields) : Except Misuse Fields :=
  (toCurrent (stamped "1.0.0" document)).map (stamped "1.1.0")

/-- What both steps make of a document of the oldest version. -/
def fromOldest (document : Fields) : Except Misuse Fields :=
  (toFirst (stamped "0.9.0" document)).bind fromFirst

theorem result_run_first (failure : String → Failure) (document : Fields) :
    (builtin.run failure ["1.0.0", "1.1.0"] (stamped "1.0.0" document)).result =
      (fromFirst document).mapError .misuse := by
  have hstep : Keyed.get? builtin.steps "1.0.0" = some (reshaping "1.0.0" "1.1.0" toCurrent) := by
    rfl
  rw [result_run_reshaping hstep (by rfl), fromFirst]
  cases toCurrent (stamped "1.0.0" document) <;> rfl

theorem result_run_oldest (failure : String → Failure) (document : Fields) :
    (builtin.run failure ["0.9.0", "1.0.0", "1.1.0"] (stamped "0.9.0" document)).result =
      (fromOldest document).mapError .misuse := by
  have hstep : Keyed.get? builtin.steps "0.9.0" = some (reshaping "0.9.0" "1.0.0" toFirst) := by
    rfl
  rw [result_run_reshaping hstep (by rfl), fromOldest]
  cases toFirst (stamped "0.9.0" document) with
  | error m => rfl
  | ok first => exact result_run_first failure first

/-! ### Documents of each version -/

variable {r : Registry} {fields : Fields} {version : String}

theorem get?_of_field {name : String} {v : Value} (h : Value.field fields name = v)
    (hv : v ≠ .null) : Keyed.get? fields name = some v := by
  unfold Value.field at h
  cases hfound : Keyed.get? fields name with
  | none => rw [hfound] at h; exact absurd h.symm hv
  | some found => rw [hfound] at h; exact congrArg some h

/-- A document that bears a version is marked with it already. -/
theorem stamped_eq_self (h : Value.field fields "version" = .str version) :
    stamped version fields = fields :=
  Keyed.set_of_get? (get?_of_field h nofun)

/-- A failed migration is reported between the versions as they were written. -/
def unsupported (version reason : String) : Failure :=
  .unsupported (.str version) (.str Version.current) (some reason)

theorem alike_current_iff :
    (Value.str version).alike (.str Version.current) = true ↔ version = "1.1.0" := by
  simp [Value.alike, Value.alikeLeaf, Version.current]

theorem pathOf_current (r : Registry) (version : String) :
    r.pathOf (.str version) (.str Version.current) =
      ((r.route isGoal (Version.normal version)).map (List.map Value.str)).mapError
        fun e => unsupported version e.text := by
  unfold Registry.pathOf
  dsimp only
  split
  · rename_i versions hroute
    have hroute : r.route isGoal (Version.normal version) = .ok versions := hroute
    rw [hroute]
    rfl
  · rename_i impasse hroute
    have hroute : r.route isGoal (Version.normal version) = .error impasse := hroute
    rw [hroute]
    rfl

/-- A migration runs the steps of the route that starts at the document's version. -/
theorem result_migrate {path : List String} {start : String}
    (h : Value.field fields "version" = .str version)
    (hroute : r.route isGoal (Version.normal version) = .ok (start :: path)) :
    (r.migrate (.object fields) (.str Version.current)).result =
      (r.run (unsupported version) (start :: path) (stamped start fields)).result.map
        Value.object := by
  unfold Registry.migrate
  simp only [Registry.versionOf, h]
  split
  · rename_i halike
    obtain rfl := alike_current_iff.mp halike
    have hpath : start :: path = ["1.1.0"] := Except.ok.inj (hroute.symm.trans (route_current r))
    cases hpath
    rw [stamped_eq_self h]
    rfl
  · have hpaths : r.pathOf (.str version) (.str Version.current) =
        .ok ((start :: path).map Value.str) := by
      rw [pathOf_current, hroute]
      rfl
    have hdisplay : ((start :: path).map Value.str).map Value.display = start :: path := by
      rw [List.map_map]
      exact List.map_id _
    simp only [hpaths, Traced.result_bind, Traced.result_ofExcept, Except.bind, hdisplay,
      Traced.note, Traced.result_tell, List.headD_cons]
    show Except.bind (r.run (unsupported version) (start :: path)
      (stamped start fields)).result _ = _
    cases (r.run (unsupported version) (start :: path) (stamped start fields)).result <;> rfl

/-- Where no route leads to the goal, no step is run. -/
theorem result_migrate_of_impasse {impasse : Impasse} (h : Value.field fields "version" = .str version)
    (hroute : r.route isGoal (Version.normal version) = .error impasse) :
    (r.migrate (.object fields) (.str Version.current)).result =
      .error (unsupported version impasse.text) := by
  have hne : ¬ (Value.str version).alike (.str Version.current) = true := by
    rw [alike_current_iff]
    intro heq
    subst heq
    have hnormal : Version.normal "1.1.0" = "1.1.0" := by rfl
    rw [hnormal, route_current] at hroute
    cases hroute
  have hpaths : r.pathOf (.str version) (.str Version.current) =
      .error (unsupported version impasse.text) := by
    rw [pathOf_current, hroute]
    rfl
  unfold Registry.migrate
  simp only [Registry.versionOf, h, if_neg hne, hpaths, Traced.result_bind,
    Traced.result_ofExcept]
  rfl

end Migration

namespace Compile

open Migration

variable {r : Registry} {fields : Fields} {version : String}

theorem upToDate_of_malformed {document : Value}
    (h : ∀ version, Registry.versionOf document = .str version →
      Version.isWellFormed version = false) :
    (upToDate r document).result = .ok document := by
  unfold upToDate
  split
  · rename_i version hversion
    rw [h version hversion]
    rfl
  · rfl

/-- A document has a well-formed version, or it is kept as it is. -/
theorem wellFormed_or_kept (r : Registry) (document : Value) :
    (∃ fields version, document = .object fields ∧ Value.field fields "version" = .str version ∧
      Version.isWellFormed version = true) ∨
    ((upToDate r document).result = .ok document ∧
      ∀ version, Registry.versionOf document = .str version →
        Version.isWellFormed version = false) := by
  by_cases h : ∃ fields version, document = .object fields ∧
      Value.field fields "version" = .str version ∧ Version.isWellFormed version = true
  · exact .inl h
  · have hmalformed : ∀ version, Registry.versionOf document = .str version →
        Version.isWellFormed version = false := by
      intro version hversion
      cases document with
      | object fields =>
        exact Bool.eq_false_iff.mpr fun hformed => h ⟨fields, version, rfl, hversion, hformed⟩
      | _ => cases hversion
    exact .inr ⟨upToDate_of_malformed hmalformed, hmalformed⟩

theorem upToDate_of_wellFormed (h : Value.field fields "version" = .str version)
    (hversion : Version.isWellFormed version = true) :
    upToDate r (.object fields) = r.migrate (.object fields) (.str Version.current) := by
  simp only [upToDate, Registry.versionOf, h, hversion, if_true]

/-- Each known version is well formed, in both its forms. -/
theorem wellFormed_of_known (h : Version.normal version ∈ knownOrigins) :
    Version.isWellFormed version = true := by
  simp only [knownOrigins, List.mem_cons, List.not_mem_nil, or_false] at h
  rcases h with h | h | h
  · rcases Version.eq_or_eq_of_normal "0.9" h with rfl | rfl <;> decide
  · rcases Version.eq_or_eq_of_normal "1.0" h with rfl | rfl <;> decide
  · rcases Version.eq_or_eq_of_normal "1.1" h with rfl | rfl <;> decide

theorem upToDate_of_unknown (h : Value.field fields "version" = .str version)
    (hversion : Version.isWellFormed version = true)
    (hunknown : Version.normal version ∉ knownOrigins) :
    (upToDate builtin (.object fields)).result =
      .error (unsupported version (Impasse.noStep (Version.normal version)).text) := by
  rw [upToDate_of_wellFormed h hversion, result_migrate_of_impasse h (route_of_unknown hunknown)]

/-- A document of the current version stays as it is, its version written out. -/
theorem upToDate_of_current (h : Value.field fields "version" = .str version)
    (hversion : Version.normal version = "1.1.0") :
    (upToDate builtin (.object fields)).result = .ok (.object (stamped "1.1.0" fields)) := by
  have hknown : Version.normal version ∈ knownOrigins := by rw [hversion]; decide
  have hroute : builtin.route isGoal (Version.normal version) = .ok ["1.1.0"] := by
    rw [hversion, route_current]
  rw [upToDate_of_wellFormed h (wellFormed_of_known hknown), result_migrate h hroute]
  rfl

theorem upToDate_of_first (h : Value.field fields "version" = .str version)
    (hversion : Version.normal version = "1.0.0") :
    (upToDate builtin (.object fields)).result =
      ((fromFirst fields).mapError .misuse).map .object := by
  have hknown : Version.normal version ∈ knownOrigins := by rw [hversion]; decide
  have hroute : builtin.route isGoal (Version.normal version) = .ok ["1.0.0", "1.1.0"] := by
    rw [hversion, route_first]
  rw [upToDate_of_wellFormed h (wellFormed_of_known hknown), result_migrate h hroute,
    result_run_first]

theorem upToDate_of_oldest (h : Value.field fields "version" = .str version)
    (hversion : Version.normal version = "0.9.0") :
    (upToDate builtin (.object fields)).result =
      ((fromOldest fields).mapError .misuse).map .object := by
  have hknown : Version.normal version ∈ knownOrigins := by rw [hversion]; decide
  have hroute : builtin.route isGoal (Version.normal version) =
      .ok ["0.9.0", "1.0.0", "1.1.0"] := by
    rw [hversion, route_oldest]
  rw [upToDate_of_wellFormed h (wellFormed_of_known hknown), result_migrate h hroute,
    result_run_oldest]

/-- A document that the steps take is brought up to date by them. -/
theorem upToDate_of_fromFirst {current : Fields} (h : Value.field fields "version" = .str version)
    (hversion : Version.normal version = "1.0.0") (hcurrent : fromFirst fields = .ok current) :
    (upToDate builtin (.object fields)).result = .ok (.object current) := by
  rw [upToDate_of_first h hversion, hcurrent]
  rfl

theorem upToDate_of_fromOldest {current : Fields} (h : Value.field fields "version" = .str version)
    (hversion : Version.normal version = "0.9.0") (hcurrent : fromOldest fields = .ok current) :
    (upToDate builtin (.object fields)).result = .ok (.object current) := by
  rw [upToDate_of_oldest h hversion, hcurrent]
  rfl

end Compile

end Vitae
