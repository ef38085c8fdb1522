import Mathlib.Data.List.Chain
import Mathlib.Data.List.Nodup
import Mathlib.Data.List.Perm.Subperm
import Mathlib.Logic.Relation
import Vitae.Proofs.Entries
import Vitae.Proofs.Route

/-! How a registry finds its way.

At most one step leads away from a version, so there is one walk from it (`Walk`): it meets the
goal, comes to a version without a step (`DeadEnds`), or goes round in a circle (`Reenters`). A
search follows that walk turn by turn (`Turn`), and what it knows of the versions it has seen is
an invariant of its turns (`Seen`). Two things follow. A search is short, because no version is
seen twice (`Seen.length_le`), and its answer tells exactly how the walk goes on
(`Registry.after_exact`), for every registry that calls can build. -/

namespace Vitae

namespace Migration

/-! ### Registering -/

/-- A call that adds steps to a registry. -/
inductive Call where
  | register (s : Step)
  | registerAll (steps : List Step)

def Call.steps : Call → List Step
  | .register s => [s]
  | .registerAll steps => steps

def Call.run (r : Registry) : Call → Registry
  | .register s => r.register s
  | .registerAll steps => r.registerAll steps

/-- The steps of some calls, in the order in which they are registered. -/
def registered (calls : List Call) : List Step := calls.flatMap Call.steps

/-- Where the last step that starts from a version leads. -/
def successor (steps : List Step) (version : String) : Option String :=
  (steps.reverse.find? fun s => Version.normal s.origin == version).map Step.result

namespace Registry

/-- The registry that some calls make of an empty one. -/
def after (calls : List Call) : Registry := calls.foldl Call.run empty

theorem foldl_run (calls : List Call) (r : Registry) :
    calls.foldl Call.run r = r.registerAll (registered calls) := by
  induction calls generalizing r with
  | nil => rfl
  | cons call rest ih =>
    have hrun : call.run r = r.registerAll call.steps := by cases call <;> rfl
    rw [List.foldl_cons, ih, hrun]
    simp only [registerAll, registered, List.flatMap_cons, List.foldl_append]

theorem after_eq (calls : List Call) : after calls = ofSteps (registered calls) :=
  foldl_run calls empty

theorem get?_register (r : Registry) (s : Step) (version : String) :
    Keyed.get? (r.register s).steps version =
      if Version.normal s.origin == version then some s else Keyed.get? r.steps version :=
  Keyed.get?_set r.steps _ version s

/-- The last step from a version is the one that counts. -/
theorem get?_registerAll (r : Registry) (steps : List Step) (version : String) :
    Keyed.get? (r.registerAll steps).steps version =
      (steps.reverse.find? fun s => Version.normal s.origin == version).or
        (Keyed.get? r.steps version) := by
  induction steps generalizing r with
  | nil => rfl
  | cons s rest ih =>
    have hcons : r.registerAll (s :: rest) = (r.register s).registerAll rest := rfl
    rw [hcons, ih, get?_register, List.reverse_cons, List.find?_append, Option.or_assoc]
    congr 1
    by_cases h : (Version.normal s.origin == version) = true <;> simp [h]

theorem next?_after (calls : List Call) : (after calls).next? = successor (registered calls) := by
  funext version
  rw [next?, after_eq, ofSteps, get?_registerAll]
  simp [successor, empty]

theorem length_registerAll_le (r : Registry) (steps : List Step) :
    (r.registerAll steps).steps.length ≤ r.steps.length + steps.length := by
  induction steps generalizing r with
  | nil => exact Nat.le_refl _
  | cons s rest ih =>
    have hcons : r.registerAll (s :: rest) = (r.register s).registerAll rest := rfl
    have hrest := ih (r.register s)
    have hfirst : (r.register s).steps.length ≤ r.steps.length + 1 := Keyed.length_set_le ..
    rw [hcons, List.length_cons]
    omega

end Registry

/-! ### Walks -/

section Walks

variable (succ : String → Option String)

/-- A walk from one version to another, each version on it the successor of the one before. -/
structure Walk (first last : String) (path : List String) : Prop where
  first : path.head? = some first
  last : path.getLast? = some last
  linked : path.IsChain fun version next => succ version = some next

/-- A version that iterating the successor leads to. -/
def Reachable : String → String → Prop :=
  Relation.ReflTransGen fun version next => succ version = some next

/-- A walk than which none is shorter. -/
def Shortest (first last : String) (path : List String) : Prop :=
  Walk succ first last path ∧ ∀ other, Walk succ first last other → path.length ≤ other.length

/-- The walk comes to a version without a step, short of the goal. -/
def DeadEnds (start goal : String) : Prop :=
  ∃ path last, Walk succ start last path ∧ goal ∉ path ∧ succ last = none

/-- The walk comes back to where it has been, short of the goal. -/
def Reenters (start goal : String) : Prop :=
  ∃ path last next, Walk succ start last path ∧ goal ∉ path ∧ succ last = some next ∧ next ∈ path

variable {succ} {start goal last version next : String} {path other : List String}

/-- A version on a chain is followed by its successor there, but for the last one. -/
theorem next_mem (h : path.IsChain fun version next => succ version = some next)
    (hmem : version ∈ path) :
    (∃ next ∈ path, succ version = some next) ∨ path.getLast? = some version := by
  induction path with
  | nil => cases hmem
  | cons first rest ih =>
    cases rest with
    | nil =>
      rw [List.mem_singleton.mp hmem]
      exact .inr rfl
    | cons second rest =>
      obtain ⟨hnext, hrest⟩ := List.isChain_cons_cons.mp h
      rcases List.mem_cons.mp hmem with rfl | hmem
      · exact .inl ⟨second, by simp, hnext⟩
      · rcases ih hrest hmem with ⟨next, hmem, hnext⟩ | hlast
        · exact .inl ⟨next, List.mem_cons_of_mem _ hmem, hnext⟩
        · exact .inr (by rw [List.getLast?_cons_cons, hlast])

theorem Walk.start_mem (h : Walk succ start last path) : start ∈ path :=
  List.mem_of_mem_head? h.first

theorem Walk.last_mem (h : Walk succ start last path) : last ∈ path :=
  List.mem_of_getLast? h.last

theorem Walk.reachable (h : Walk succ start last path) : Reachable succ start last := by
  obtain ⟨rest, rfl⟩ := List.head?_eq_some_iff.mp h.first
  have hlast := h.last
  rw [List.getLast?_eq_some_getLast (List.cons_ne_nil _ _), Option.some.injEq] at hlast
  exact List.relationReflTransGen_of_exists_isChain_cons rest h.linked hlast

/-- A walk that is not left at its end holds every version that can be reached. -/
theorem Walk.mem_of_reachable (h : Walk succ start last path)
    (hclosed : ∀ next, succ last = some next → next ∈ path)
    (hreach : Reachable succ start version) : version ∈ path := by
  induction hreach with
  | refl => exact h.start_mem
  | @tail version next _ hnext ih =>
    rcases next_mem h.linked ih with ⟨found, hmem, hfound⟩ | hlast
    · rwa [Option.some.inj (hnext.symm.trans hfound)]
    · cases h.last.symm.trans hlast
      exact hclosed next hnext

theorem DeadEnds.not_reachable (h : DeadEnds succ start goal) : ¬ Reachable succ start goal := by
  obtain ⟨path, last, hwalk, hgoal, hnone⟩ := h
  intro hreach
  refine hgoal (hwalk.mem_of_reachable (fun next hnext => ?_) hreach)
  rw [hnone] at hnext
  cases hnext

theorem Reenters.mem_of_reachable (h : Reenters succ start goal) :
    ∃ path : List String, goal ∉ path ∧ ∀ version, Reachable succ start version →
      version ∈ path ∧ ∃ next, succ version = some next := by
  obtain ⟨path, last, next, hwalk, hgoal, hnext, hmem⟩ := h
  refine ⟨path, hgoal, fun version hreach => ?_⟩
  have hversion : version ∈ path := by
    refine hwalk.mem_of_reachable (fun found hfound => ?_) hreach
    rwa [Option.some.inj (hfound.symm.trans hnext)]
  refine ⟨hversion, ?_⟩
  rcases next_mem hwalk.linked hversion with ⟨found, _, hfound⟩ | hlast
  · exact ⟨found, hfound⟩
  · cases hwalk.last.symm.trans hlast
    exact ⟨next, hnext⟩

theorem Reenters.not_reachable (h : Reenters succ start goal) : ¬ Reachable succ start goal := by
  obtain ⟨_, hgoal, hreachable⟩ := h.mem_of_reachable
  exact fun hreach => hgoal (hreachable goal hreach).1

theorem Reenters.not_deadEnds (h : Reenters succ start goal) : ¬ DeadEnds succ start goal := by
  intro hdead
  obtain ⟨_, stop, hwalk, _, hnone⟩ := hdead
  obtain ⟨_, _, hreachable⟩ := h.mem_of_reachable
  obtain ⟨_, next, hnext⟩ := hreachable stop hwalk.reachable
  rw [hnone] at hnext
  cases hnext

/-- There is one way to go on, so of two chains from one version one goes on from the other. -/
theorem linked_total {rest others : List String}
    (h : (start :: rest).IsChain fun version next => succ version = some next)
    (hothers : (start :: others).IsChain fun version next => succ version = some next) :
    (start :: rest) <+: (start :: others) ∨ (start :: others) <+: (start :: rest) := by
  induction rest generalizing start others with
  | nil => exact .inl ⟨others, rfl⟩
  | cons next rest ih =>
    cases others with
    | nil => exact .inr ⟨next :: rest, rfl⟩
    | cons found others =>
      obtain ⟨hnext, hrest⟩ := List.isChain_cons_cons.mp h
      obtain ⟨hfound, hothers⟩ := List.isChain_cons_cons.mp hothers
      cases hnext.symm.trans hfound
      exact (ih hrest hothers).imp (List.cons_prefix_cons.mpr ⟨rfl, ·⟩)
        (List.cons_prefix_cons.mpr ⟨rfl, ·⟩)

/-- Every walk to the goal begins with the one that meets it first. -/
theorem Walk.begins (h : Walk succ start goal path) (hbefore : goal ∉ path.dropLast)
    (hother : Walk succ start goal other) : path <+: other := by
  obtain ⟨rest, rfl⟩ := List.head?_eq_some_iff.mp h.first
  obtain ⟨others, rfl⟩ := List.head?_eq_some_iff.mp hother.first
  rcases linked_total h.linked hother.linked with hbegins | hbegins
  · exact hbegins
  · -- The goal ends the other walk, and stands nowhere else on this one.
    obtain ⟨later, hlater⟩ := hbegins
    cases later with
    | nil => exact ⟨[], by simpa using hlater.symm⟩
    | cons version later =>
      refine absurd ?_ hbefore
      rw [← hlater, List.dropLast_append_of_ne_nil (List.cons_ne_nil _ _)]
      exact List.mem_append_left _ hother.last_mem

theorem Walk.shortest_iff (h : Walk succ start goal path) (hbefore : goal ∉ path.dropLast) :
    Shortest succ start goal other ↔ other = path := by
  constructor
  · intro hother
    obtain ⟨hwalk, hshortest⟩ := hother
    exact ((h.begins hbefore hwalk).eq_of_length_le (hshortest path h)).symm
  · intro heq
    subst heq
    exact ⟨h, fun _ hwalk => (h.begins hbefore hwalk).length_le⟩

end Walks

/-! ### Turns -/

section Turns

variable (succ : String → Option String) (goal : String)

/-- One turn of a search, with the versions that it has seen, the last one in front: short of the
goal, a step leads to a version that is new. -/
inductive Turn : List String → List String → Prop
  | visit {version next : String} {seen : List String} (hgoal : version ≠ goal)
      (hnext : succ version = some next) (hnew : next ∉ version :: seen) :
      Turn (version :: seen) (next :: version :: seen)

/-- How a search ends that has seen some versions: at the goal, at a version without a step, or
where the step leads to a version it has seen. -/
inductive Ends : List String → Except Impasse (List String) → Prop
  | met (seen : List String) : Ends (goal :: seen) (.ok (goal :: seen).reverse)
  | stuck {version : String} {seen : List String} (hgoal : version ≠ goal)
      (hnone : succ version = none) : Ends (version :: seen) (.error (.noStep version))
  | circular {version next : String} {seen : List String} (hgoal : version ≠ goal)
      (hnext : succ version = some next) (hseen : next ∈ version :: seen) :
      Ends (version :: seen) (.error (.circular version next))

/-- What a search knows of the versions that it has seen. -/
structure Seen (start : String) (seen : List String) : Prop where
  first : seen.getLast? = some start
  linked : seen.IsChain fun next version => succ version = some next
  once : seen.Nodup
  before : goal ∉ seen.tail

variable {succ goal} {start version : String} {seen later : List String}

theorem notMem_cons (hgoal : version ≠ goal) (h : goal ∉ seen) : goal ∉ version :: seen := by
  rw [List.mem_cons, not_or]
  exact ⟨Ne.symm hgoal, h⟩

theorem Seen.initial : Seen succ goal start [start] where
  first := rfl
  linked := .singleton _
  once := List.pairwise_singleton ..
  before := List.not_mem_nil

theorem Seen.turn (h : Seen succ goal start seen) (hturn : Turn succ goal seen later) :
    Seen succ goal start later := by
  cases hturn with
  | visit hgoal hnext hnew =>
    exact
      { first := by rw [List.getLast?_cons_cons, h.first]
        linked := .cons_cons hnext h.linked
        once := List.nodup_cons.mpr ⟨hnew, h.once⟩
        before := notMem_cons hgoal h.before }

theorem Seen.turns (h : Relation.ReflTransGen (Turn succ goal) [start] seen) :
    Seen succ goal start seen := by
  induction h with
  | refl => exact .initial
  | tail _ hturn ih => exact ih.turn hturn

theorem Seen.walk (h : Seen succ goal start (version :: seen)) :
    Walk succ start version (version :: seen).reverse where
  first := by rw [List.head?_reverse, h.first]
  last := by rw [List.getLast?_reverse, List.head?_cons]
  linked := List.isChain_reverse.mpr h.linked

theorem Seen.goal_notMem (h : Seen succ goal start (version :: seen)) (hgoal : version ≠ goal) :
    goal ∉ (version :: seen).reverse := by
  rw [List.mem_reverse]
  exact notMem_cons hgoal h.before

/-- Each version but the last has a step that starts from it. -/
theorem Seen.length_le {r : Registry} (h : Seen r.next? goal start seen) :
    seen.length ≤ r.steps.length + 1 := by
  have hkeys : seen.tail ⊆ Keyed.keys r.steps := by
    intro version hversion
    obtain ⟨next, hnext⟩ : ∃ next, r.next? version = some next := by
      have hlinked := List.isChain_reverse.mpr h.linked
      cases seen with
      | nil => cases hversion
      | cons last rest =>
        rcases next_mem hlinked (List.mem_reverse.mpr (List.mem_cons_of_mem _ hversion)) with
          ⟨next, _, hnext⟩ | hlast
        · exact ⟨next, hnext⟩
        · rw [List.getLast?_reverse, List.head?_cons, Option.some.injEq] at hlast
          subst hlast
          exact absurd hversion (List.nodup_cons.mp h.once).1
    obtain ⟨step, hstep, _⟩ := Option.map_eq_some_iff.mp hnext
    obtain ⟨name, hmem, hname⟩ := Keyed.mem_of_get? hstep
    rw [← eq_of_beq hname]
    exact List.mem_map.mpr ⟨_, hmem, rfl⟩
  have hle := (List.subperm_of_subset h.once.tail hkeys).length_le
  rw [List.length_tail, Keyed.keys, List.length_map] at hle
  omega

/-- The steps ahead are all but those that start from a version seen. -/
def Registry.Ahead (r : Registry) (seen : List String) (ahead : Keyed String Step) : Prop :=
  ∀ version ∉ seen, Keyed.get? ahead version = Keyed.get? r.steps version

theorem Registry.Ahead.next? {r : Registry} {ahead : Keyed String Step} (h : r.Ahead seen ahead)
    (hnew : version ∉ seen) : r.next? version = (Keyed.get? ahead version).map Step.result := by
  rw [Registry.next?, h version hnew]

theorem Registry.Ahead.erase {r : Registry} {ahead : Keyed String Step} (h : r.Ahead seen ahead) :
    r.Ahead (version :: seen) (Keyed.erase ahead version) := by
  intro other hother
  rw [List.mem_cons, not_or] at hother
  rw [Keyed.get?_erase_of_ne _ (by simpa using hother.1), h other hother.2]

/-- A walk is a search that goes on from the versions seen. -/
theorem turns_walk {r : Registry} {ahead : Keyed String Step} (hahead : r.Ahead seen ahead)
    (hnew : version ∉ seen) :
    ∃ final, Relation.ReflTransGen (Turn r.next? goal) (version :: seen) final ∧
      Ends r.next? goal final
        ((Registry.walk (· == goal) ahead seen version).map (seen.reverse ++ ·)) := by
  fun_induction Registry.walk (· == goal) ahead seen version
  case case1 ahead seen version hgoal =>
    obtain rfl := eq_of_beq hgoal
    refine ⟨_, .refl, ?_⟩
    rw [Except.map, ← List.reverse_cons]
    exact .met seen
  case case2 ahead seen version hgoal hnone =>
    have hnext := hahead.next? hnew
    rw [hnone] at hnext
    exact ⟨_, .refl, .stuck (by simpa using hgoal) hnext⟩
  case case3 ahead seen version hgoal step hstep next hseen =>
    have hnext := hahead.next? hnew
    rw [hstep] at hnext
    exact ⟨_, .refl, .circular (by simpa using hgoal) hnext (by simpa using hseen)⟩
  all_goals
    -- The step is taken, and what it leads to is searched from there.
    rename_i ahead seen version hgoal step hstep next hfresh _ hrest ih
    have hnext := hahead.next? hnew
    rw [hstep] at hnext
    have hnew : next ∉ version :: seen := by simpa using hfresh
    obtain ⟨final, hturns, hends⟩ := ih hahead.erase hnew
    refine ⟨final, .head (.visit (by simpa using hgoal) hnext hnew) hturns, ?_⟩
    rw [hrest] at hends
    simpa [Except.map] using hends

theorem turns_route (r : Registry) (goal start : String) :
    ∃ seen, Relation.ReflTransGen (Turn r.next? goal) [start] seen ∧
      Ends r.next? goal seen (r.route (· == goal) start) := by
  have hall : r.Ahead [] r.steps := fun _ _ => rfl
  obtain ⟨seen, hturns, hends⟩ := turns_walk hall List.not_mem_nil
  refine ⟨seen, hturns, ?_⟩
  show Ends r.next? goal seen (Registry.walk (· == goal) r.steps [] start)
  cases hwalk : Registry.walk (· == goal) r.steps [] start <;> rw [hwalk] at hends <;> exact hends

end Turns

/-! ### Answers -/

/-- The reasons for which a search fails are told apart by their texts. -/
theorem noStep_text_ne_circular_text (version last next : String) :
    (Impasse.noStep version).text ≠ (Impasse.circular last next).text := by
  have hfirst (rest more : List Char) : "no migration registered from '".toList ++ rest ≠
      "circular migration chain at '".toList ++ more := by
    simp
  unfold Impasse.text
  intro h
  have hlist := congrArg String.toList h
  simp only [String.toList_append, List.append_assoc] at hlist
  exact hfirst _ _ hlist

/-- The failure of a search between two versions as they were written. -/
def impasse (origin target : String) (e : Impasse) : Failure :=
  .unsupported (.str origin) (.str target) (some e.text)

theorem impasse_noStep_ne_circular (origin target version last next : String) :
    impasse origin target (.noStep version) ≠ impasse origin target (.circular last next) := by
  intro h
  injection h with _ _ htext
  exact noStep_text_ne_circular_text _ _ _ (Option.some.inj htext)

namespace Registry

variable {r : Registry} {origin target : String} {path : List String}

theorem path_eq (r : Registry) (origin target : String) :
    r.path origin target =
      (r.route (· == Version.normal target) (Version.normal origin)).mapError
        (impasse origin target) := by
  unfold path
  cases r.route (· == Version.normal target) (Version.normal origin) <;> rfl

/-- Between texts, the path that is run is the path of the texts. -/
theorem pathOf_str (r : Registry) (origin target : String) :
    r.pathOf (.str origin) (.str target) = (r.path origin target).map (List.map Value.str) := by
  have hgoal : (fun version => (Version.normalValue (.str target)).alike (.str version)) =
      (· == Version.normal target) := by
    funext version
    exact Bool.beq_comm
  unfold pathOf path
  simp only [hgoal]
  cases r.route (· == Version.normal target) (Version.normal origin) <;> rfl

theorem canMigrate_str (r : Registry) (origin target : String) :
    r.canMigrate (.str origin) (.str target) = .ok (r.path origin target).isOk := by
  rw [canMigrate, pathOf_str, path_eq]
  cases r.route (· == Version.normal target) (Version.normal origin) <;> rfl

/-- A path that is found is the walk that meets the target first. -/
theorem walk_of_path (h : r.path origin target = .ok path) :
    Walk r.next? (Version.normal origin) (Version.normal target) path ∧
      Version.normal target ∉ path.dropLast ∧ path.Nodup := by
  obtain ⟨seen, hturns, hends⟩ := turns_route r (Version.normal target) (Version.normal origin)
  have hseen := Seen.turns hturns
  rw [path_eq] at h
  generalize r.route (· == Version.normal target) (Version.normal origin) = found at h hends
  cases hends with
  | met seen =>
    cases h
    refine ⟨hseen.walk, ?_, List.nodup_reverse.mpr hseen.once⟩
    rw [List.dropLast_reverse, List.mem_reverse]
    exact hseen.before
  | stuck _ _ => cases h
  | circular _ _ _ => cases h

/-- A search ends in one of three ways. -/
theorem path_cases (r : Registry) (origin target : String) :
    (∃ path, r.path origin target = .ok path) ∧
        Reachable r.next? (Version.normal origin) (Version.normal target) ∨
      (∃ version, r.path origin target = .error (impasse origin target (.noStep version))) ∧
        DeadEnds r.next? (Version.normal origin) (Version.normal target) ∨
      (∃ version next,
          r.path origin target = .error (impasse origin target (.circular version next))) ∧
        Reenters r.next? (Version.normal origin) (Version.normal target) := by
  obtain ⟨seen, hturns, hends⟩ := turns_route r (Version.normal target) (Version.normal origin)
  have hseen := Seen.turns hturns
  rw [path_eq]
  generalize r.route (· == Version.normal target) (Version.normal origin) = found at hends
  cases hends with
  | met seen => exact .inl ⟨⟨_, rfl⟩, hseen.walk.reachable⟩
  | @stuck version seen hgoal hnone =>
    exact .inr (.inl ⟨⟨version, rfl⟩, _, version, hseen.walk, hseen.goal_notMem hgoal, hnone⟩)
  | @circular version next seen hgoal hnext hmem =>
    exact .inr (.inr ⟨⟨version, next, rfl⟩, _, version, next, hseen.walk, hseen.goal_notMem hgoal,
      hnext, List.mem_reverse.mpr hmem⟩)

/-- What a registry says of the way between two versions, for the successors that its steps
give. -/
structure Exact (r : Registry) (succ : String → Option String) (origin target : String) : Prop where
  /-- There is a path where the target can be reached. -/
  reachable : (∃ path, r.path origin target = .ok path) ↔
    Reachable succ (Version.normal origin) (Version.normal target)
  /-- It is the shortest walk. -/
  shortest : ∀ path, r.path origin target = .ok path ↔
    Shortest succ (Version.normal origin) (Version.normal target) path
  once : ∀ path, r.path origin target = .ok path → path.Nodup
  /-- Otherwise the reason is told. -/
  unsupported : ∀ f, r.path origin target = .error f → ∃ e, f = impasse origin target e
  noStep : (∃ version, r.path origin target = .error (impasse origin target (.noStep version))) ↔
    DeadEnds succ (Version.normal origin) (Version.normal target)
  circular : (∃ version next,
      r.path origin target = .error (impasse origin target (.circular version next))) ↔
    Reenters succ (Version.normal origin) (Version.normal target)
  /-- The turns of a search come to an end, and the answer is the one that they end with. -/
  ends : ∃ seen,
    Relation.ReflTransGen (Turn succ (Version.normal target)) [Version.normal origin] seen ∧
      Ends succ (Version.normal target) seen
        (r.route (· == Version.normal target) (Version.normal origin))
  /-- No search sees more versions than there are steps, and one. -/
  short : ∀ seen,
    Relation.ReflTransGen (Turn succ (Version.normal target)) [Version.normal origin] seen →
      seen.length ≤ r.steps.length + 1
  /-- Values that are texts are searched for alike. -/
  texts : r.pathOf (.str origin) (.str target) = (r.path origin target).map (List.map Value.str)
  canMigrate : r.canMigrate (.str origin) (.str target) = .ok (r.path origin target).isOk

theorem path_ok_iff (r : Registry) (origin target : String) :
    (∃ path, r.path origin target = .ok path) ↔
      Reachable r.next? (Version.normal origin) (Version.normal target) := by
  constructor
  · intro h
    obtain ⟨path, hpath⟩ := h
    exact (walk_of_path hpath).1.reachable
  · intro hreach
    rcases r.path_cases origin target with ⟨hpath, _⟩ | ⟨_, hdead⟩ | ⟨_, hreenters⟩
    · exact hpath
    · exact absurd hreach hdead.not_reachable
    · exact absurd hreach hreenters.not_reachable

theorem path_noStep_iff (r : Registry) (origin target : String) :
    (∃ version, r.path origin target = .error (impasse origin target (.noStep version))) ↔
      DeadEnds r.next? (Version.normal origin) (Version.normal target) := by
  constructor
  · intro h
    obtain ⟨version, hstuck⟩ := h
    rcases r.path_cases origin target with
      ⟨⟨path, hpath⟩, _⟩ | ⟨_, hdead⟩ | ⟨⟨last, next, hpath⟩, _⟩
    · cases hpath.symm.trans hstuck
    · exact hdead
    · exact absurd (Except.error.inj (hstuck.symm.trans hpath))
        (impasse_noStep_ne_circular _ _ _ _ _)
  · intro hdead
    rcases r.path_cases origin target with ⟨_, hreach⟩ | ⟨hpath, _⟩ | ⟨_, hreenters⟩
    · exact absurd hreach hdead.not_reachable
    · exact hpath
    · exact absurd hdead hreenters.not_deadEnds

theorem path_circular_iff (r : Registry) (origin target : String) :
    (∃ version next,
        r.path origin target = .error (impasse origin target (.circular version next))) ↔
      Reenters r.next? (Version.normal origin) (Version.normal target) := by
  constructor
  · intro h
    obtain ⟨last, next, hcircular⟩ := h
    rcases r.path_cases origin target with
      ⟨⟨path, hpath⟩, _⟩ | ⟨⟨version, hpath⟩, _⟩ | ⟨_, hreenters⟩
    · cases hpath.symm.trans hcircular
    · exact absurd (Except.error.inj (hpath.symm.trans hcircular))
        (impasse_noStep_ne_circular _ _ _ _ _)
    · exact hreenters
  · intro hreenters
    rcases r.path_cases origin target with ⟨_, hreach⟩ | ⟨_, hdead⟩ | ⟨hpath, _⟩
    · exact absurd hreach hreenters.not_reachable
    · exact absurd hdead hreenters.not_deadEnds
    · exact hpath

theorem path_shortest_iff (r : Registry) (origin target : String) (path : List String) :
    r.path origin target = .ok path ↔
      Shortest r.next? (Version.normal origin) (Version.normal target) path := by
  constructor
  · intro hpath
    obtain ⟨hwalk, hbefore, _⟩ := walk_of_path hpath
    exact (hwalk.shortest_iff hbefore).mpr rfl
  · intro hshortest
    obtain ⟨found, hfound⟩ := (r.path_ok_iff origin target).mpr hshortest.1.reachable
    obtain ⟨hwalk, hbefore, _⟩ := walk_of_path hfound
    rw [(hwalk.shortest_iff hbefore).mp hshortest, hfound]

theorem exact_next? (r : Registry) (origin target : String) : r.Exact r.next? origin target where
  reachable := r.path_ok_iff origin target
  shortest := r.path_shortest_iff origin target
  once _ hpath := (walk_of_path hpath).2.2
  unsupported f hf := by
    rw [path_eq] at hf
    generalize r.route (· == Version.normal target) (Version.normal origin) = found at hf
    cases found with
    | ok _ => cases hf
    | error e => exact ⟨e, (Except.error.inj hf).symm⟩
  noStep := r.path_noStep_iff origin target
  circular := r.path_circular_iff origin target
  ends := turns_route r _ _
  short _ hturns := (Seen.turns hturns).length_le
  texts := r.pathOf_str origin target
  canMigrate := r.canMigrate_str origin target

/-- **A registry finds its way exactly**, whatever calls it was made by. -/
theorem after_exact (calls : List Call) (origin target : String) :
    (after calls).Exact (successor (registered calls)) origin target ∧
      (after calls).steps.length ≤ (registered calls).length := by
  refine ⟨next?_after calls ▸ exact_next? (after calls) origin target, ?_⟩
  have hle := length_registerAll_le empty (registered calls)
  rw [after_eq]
  simpa [ofSteps, empty] using hle

end Registry

end Migration

end Vitae
