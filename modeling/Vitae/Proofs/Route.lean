import Vitae.Proofs.Upgrade

/-! Where the routes of a registry lead.

A route is a chain (`Registry.Chain`): each version on it is the one that the step before leads
to, and the last one meets the goal. The steps of a chain are run one after the other, and a
document leaves each of them with the version that the step declares, or not at all
(`Registry.run_eq_ok`). So a document that was migrated bears the version at the end of its
chain, whatever the steps do (`Registry.Chain.field_version_run`). -/

namespace Vitae

theorem Traced.result_lift_eq_ok {α : Type} {x : Except Misuse α} {a : α} :
    (Traced.lift x).result = .ok a ↔ x = .ok a := by
  cases x with
  | error m =>
    show Except.error (Failure.misuse m) = Except.ok a ↔ _
    simp
  | ok found =>
    show (Except.ok found : Except Failure α) = .ok a ↔ _
    simp

theorem Traced.lift_ok_bind {α β : Type} (a : α) (f : α → Traced β) :
    (Traced.lift (.ok a) >>= f) = f a := rfl

theorem Traced.ofExcept_ok_bind {α β : Type} (a : α) (f : α → Traced β) :
    (Traced.ofExcept (.ok a) >>= f) = f a := rfl

namespace Migration

namespace Registry

/-! ### Chains -/

/-- The version that the step from a version leads to. -/
def next? (r : Registry) (version : String) : Option String :=
  (Keyed.get? r.steps version).map Step.result

/-- A chain of steps from a version to one that meets the goal, and the versions on it. -/
inductive Chain (r : Registry) (goal : String → Bool) : String → List String → Prop
  | met {version : String} (h : goal version = true) : Chain r goal version [version]
  | step {version next : String} {path : List String} (h : r.next? version = some next)
      (rest : Chain r goal next path) : Chain r goal version (version :: path)

variable {r : Registry} {goal : String → Bool} {version : String} {path : List String}

theorem Chain.exists_cons (h : r.Chain goal version path) : ∃ later, path = version :: later := by
  cases h with
  | met _ => exact ⟨[], rfl⟩
  | step _ _ => exact ⟨_, rfl⟩

/-- No step appears when one is dropped. -/
theorem get?_of_erase {ahead : Keyed String Step} {other : String} {step : Step}
    (h : Keyed.get? (Keyed.erase ahead version) other = some step) :
    Keyed.get? ahead other = some step := by
  by_cases hother : other = version
  · subst hother
    rw [Keyed.get?_erase_self] at h
    cases h
  · rwa [Keyed.get?_erase_of_ne _ (by simpa using hother)] at h

/-- What a walk finds is a chain, as long as the steps ahead are steps of the registry. -/
theorem chain_of_walk {ahead : Keyed String Step} {seen : List String}
    (hahead : ∀ origin step, Keyed.get? ahead origin = some step →
      Keyed.get? r.steps origin = some step)
    (h : walk goal ahead seen version = .ok path) : r.Chain goal version path := by
  fun_induction walk goal ahead seen version generalizing path
  case case1 ahead seen version hgoal =>
    cases h
    exact .met hgoal
  case case4 ahead seen version _ step hstep next _ rest hrest ih =>
    cases h
    have hnext : r.next? version = some next := by
      rw [next?, hahead version step hstep]
      rfl
    exact .step hnext (ih (fun origin step hfound => hahead origin step (get?_of_erase hfound)) hrest)
  all_goals cases h

theorem chain_of_route (h : r.route goal version = .ok path) : r.Chain goal version path :=
  chain_of_walk (fun _ _ hfound => hfound) h

/-! ### Running a chain -/

theorem stamped?_eq_some {v : Value} {fields : Fields} :
    stamped? version v = some fields ↔
      v = .object fields ∧ Value.field fields "version" = .str version := by
  unfold stamped?
  split
  · rename_i found
    split
    · rename_i bears hbears
      simp only [Option.ite_none_right_eq_some, Option.some.injEq, Value.object.injEq]
      constructor
      · intro h
        obtain ⟨rfl, rfl⟩ := h
        exact ⟨rfl, hbears⟩
      · intro h
        obtain ⟨rfl, hversion⟩ := h
        exact ⟨Value.str.inj (hbears.symm.trans hversion), rfl⟩
    · rename_i hnone
      simp only [reduceCtorEq, Value.object.injEq, false_iff, not_and]
      intro heq
      subst heq
      exact hnone version
  · rename_i hnone
    simp only [reduceCtorEq, false_iff, not_and]
    exact fun heq => absurd heq (hnone fields)

variable {failure : String → Failure} {fields result : Fields}

/-- A run goes on after a step exactly with a document of the version that the step declares. -/
theorem run_eq_ok {next : String} {later : List String} :
    (r.run failure (version :: next :: later) fields).result = .ok result ↔
      ∃ step, Keyed.get? r.steps version = some step ∧
        ∃ reshaped, step.apply fields = .ok (.object reshaped) ∧
          Value.field reshaped "version" = .str step.result ∧
          (r.run failure (next :: later) reshaped).result = .ok result := by
  cases hstep : Keyed.get? r.steps version with
  | none => simp [run, hstep]
  | some step =>
    simp only [run, hstep, Traced.result_bind_eq_ok, Traced.result_lift_eq_ok, Option.some.injEq,
      exists_eq_left']
    constructor
    · intro h
      obtain ⟨produced, happly, hrest⟩ := h
      split at hrest
      · cases hrest
      · rename_i reshaped hstamped
        obtain ⟨rfl, hversion⟩ := stamped?_eq_some.mp hstamped
        obtain ⟨_, _, hrest⟩ := Traced.result_bind_eq_ok.mp hrest
        exact ⟨reshaped, happly, hversion, hrest⟩
    · intro h
      obtain ⟨reshaped, happly, hversion, hrest⟩ := h
      refine ⟨.object reshaped, happly, ?_⟩
      rw [stamped?_eq_some.mpr ⟨rfl, hversion⟩]
      exact Traced.result_bind_eq_ok.mpr ⟨(), rfl, hrest⟩

/-- **A document that was migrated bears the version at the end of its chain.** -/
theorem Chain.field_version_run (hchain : r.Chain goal version path)
    (hversion : Value.field fields "version" = .str version)
    (h : (r.run failure path fields).result = .ok result) :
    ∃ last, goal last = true ∧ Value.field result "version" = .str last := by
  -- Along the chain, the document bears the version that the rest of the chain starts from.
  induction hchain generalizing fields with
  | @met version hgoal =>
    have hsame : fields = result := Except.ok.inj h
    exact ⟨version, hgoal, hsame ▸ hversion⟩
  | @step version next path hnext rest ih =>
    obtain ⟨later, rfl⟩ := rest.exists_cons
    obtain ⟨step, hstep, reshaped, _, hreshaped, hrun⟩ := run_eq_ok.mp h
    have hresult : step.result = next := by
      rw [next?, hstep] at hnext
      exact Option.some.inj hnext
    exact ih (hresult ▸ hreshaped) hrun

end Registry

/-- The built-in steps form one chain to the current version, and a version leads there when it
is on that chain. -/
theorem exists_chain_iff {version : String} :
    (∃ path, builtin.Chain (· == Version.current) version path) ↔ version ∈ knownOrigins := by
  have hsteps {next : String} (h : builtin.next? version = some next) :
      version = "0.9.0" ∨ version = "1.0.0" := by
    obtain ⟨step, hstep, _⟩ := Option.map_eq_some_iff.mp h
    obtain ⟨name, hmem, hname⟩ := Keyed.mem_of_get? hstep
    rw [builtin_steps, List.mem_cons, List.mem_singleton] at hmem
    rw [← eq_of_beq hname]
    exact hmem.imp (congrArg Prod.fst) (congrArg Prod.fst)
  constructor
  · intro h
    obtain ⟨path, hchain⟩ := h
    cases hchain with
    | met hgoal => simp [knownOrigins, eq_of_beq hgoal, Version.current]
    | step hnext _ => rcases hsteps hnext with rfl | rfl <;> decide
  · intro h
    have hcurrent : builtin.Chain (· == Version.current) "1.1.0" ["1.1.0"] := .met rfl
    have hfirst : builtin.Chain (· == Version.current) "1.0.0" ["1.0.0", "1.1.0"] :=
      .step rfl hcurrent
    simp only [knownOrigins, List.mem_cons, List.not_mem_nil, or_false] at h
    rcases h with rfl | rfl | rfl
    · exact ⟨_, .step rfl hfirst⟩
    · exact ⟨_, hfirst⟩
    · exact ⟨_, hcurrent⟩

end Migration

end Vitae
