import Mathlib.Data.List.Induction
import Vitae.Proofs.Entries
import Vitae.Section.Compiler

/-! Sections after any registrations.

A registry of sections is made from compilers and aliases, and sections are registered in it one
after the other. What a name finds then is told by one equation (`SectionRegistry.compiler?_add`):
the new compiler, if the name is one of the new aliases or led to the section before, and what it
found before otherwise. So the aliases of a registration are found and other names are left
alone, but an identifier that is the alias of another section goes on leading there: an alias is
looked at before an identifier (`SectionRegistry.after_upholds_iff`). -/

namespace Vitae

/-- A section compiler, with the identifier and the aliases under which it is registered. -/
structure Registration where
  id : String
  compiler : SectionCompiler
  aliases : List String

namespace SectionRegistry

/-! ### Histories -/

def add (r : SectionRegistry) (e : Registration) : SectionRegistry :=
  r.register e.id e.compiler e.aliases

/-- A registry after more sections were registered. -/
def after (made : SectionRegistry) (history : List Registration) : SectionRegistry :=
  history.foldl add made

/-- The section that a name is an alias of: by the registration that named it last, or else from
the start. -/
def aliasOf? (made : SectionRegistry) (history : List Registration) (name : String) :
    Option String :=
  ((history.reverse.find? fun e => e.aliases.contains name).map (·.id)).or
    (Keyed.get? made.aliases name)

/-- An identifier is the alias of another section. -/
def Shadowed (made : SectionRegistry) (history : List Registration) (id : String) : Prop :=
  ∃ other, made.aliasOf? history id = some other ∧ other ≠ id

/-- A name is known, and a compiler is found by it. -/
def Finds (r : SectionRegistry) (name : String) (c : SectionCompiler) : Prop :=
  r.has name = true ∧ r.get name = c

/-- What a registration is made for: its compiler is found by its identifier and its aliases, and
names that have nothing to do with it find what they found. -/
structure Upholds (r : SectionRegistry) (e : Registration) : Prop where
  found : ∀ name, name = e.id ∨ name ∈ e.aliases → (r.add e).Finds name e.compiler
  kept : ∀ name, name ≠ e.id → name ∉ e.aliases → Keyed.get? r.aliases name ≠ some e.id →
    (r.add e).get name = r.get name ∧ (r.add e).has name = r.has name

variable {r made : SectionRegistry} {e : Registration} {history : List Registration}
  {name : String} {c : SectionCompiler}

/-! ### One registration -/

/-- The compiler that is found by a name, if one is. -/
def compiler? (r : SectionRegistry) (name : String) : Option SectionCompiler :=
  Keyed.get? r.compilers (r.canonical name)

theorem has_eq (r : SectionRegistry) (name : String) : r.has name = (r.compiler? name).isSome := rfl

theorem get_eq (r : SectionRegistry) (name : String) :
    r.get name = (r.compiler? name).getD custom := rfl

theorem finds_iff : r.Finds name c ↔ r.compiler? name = some c := by
  rw [Finds, has_eq, get_eq]
  cases r.compiler? name <;> simp

theorem get?_aliases_add (r : SectionRegistry) (e : Registration) (name : String) :
    Keyed.get? (r.add e).aliases name =
      if name ∈ e.aliases then some e.id else Keyed.get? r.aliases name := by
  show Keyed.get? (e.aliases.foldl (fun known name => Keyed.set known name e.id) r.aliases) name = _
  generalize r.aliases = known
  induction e.aliases generalizing known with
  | nil => rfl
  | cons first rest ih =>
    rw [List.foldl_cons, ih, Keyed.get?_set]
    by_cases hrest : name ∈ rest
    · simp [hrest]
    · simp [hrest, @eq_comm _ name]

/-- What a name finds after a registration: the new compiler, by one of the new aliases or where
the name led to the section before; what it found before, otherwise. -/
theorem compiler?_add (r : SectionRegistry) (e : Registration) (name : String) :
    (r.add e).compiler? name =
      if name ∈ e.aliases ∨ r.canonical name = e.id then some e.compiler else r.compiler? name := by
  show Keyed.get? (Keyed.set r.compilers e.id e.compiler) ((r.add e).canonical name) = _
  rw [canonical, get?_aliases_add, Keyed.get?_set]
  by_cases halias : name ∈ e.aliases
  · simp [halias]
  · simp only [halias, if_false, false_or, beq_iff_eq, @eq_comm _ e.id]
    rfl

theorem finds_add_of_alias (h : name ∈ e.aliases) : (r.add e).Finds name e.compiler := by
  rw [finds_iff, compiler?_add, if_pos (.inl h)]

/-- A compiler is found by its identifier where that is no alias of another section, or an alias
by which it is found anyway. -/
theorem finds_add_id_iff :
    (r.add e).Finds e.id e.compiler ↔
      (e.id ∈ e.aliases ∨ r.canonical e.id = e.id) ∨ r.Finds e.id e.compiler := by
  rw [finds_iff, finds_iff, compiler?_add]
  split
  · simp_all
  · simp_all

theorem compiler?_add_of_ne (hid : name ≠ e.id) (halias : name ∉ e.aliases)
    (hother : Keyed.get? r.aliases name ≠ some e.id) :
    (r.add e).compiler? name = r.compiler? name := by
  have hcanonical : r.canonical name ≠ e.id := by
    rw [canonical]
    cases hfound : Keyed.get? r.aliases name with
    | none => exact hid
    | some id => exact fun heq => hother (hfound.trans (congrArg some heq))
  rw [compiler?_add, if_neg (not_or.mpr ⟨halias, hcanonical⟩)]

theorem upholds_iff :
    r.Upholds e ↔ (e.id ∈ e.aliases ∨ r.canonical e.id = e.id) ∨ r.Finds e.id e.compiler := by
  rw [← finds_add_id_iff]
  constructor
  · exact fun h => h.found e.id (.inl rfl)
  · intro h
    constructor
    · rintro name (rfl | halias)
      · exact h
      · exact finds_add_of_alias halias
    · intro name hid halias hother
      rw [get_eq, get_eq, has_eq, has_eq, compiler?_add_of_ne hid halias hother]
      exact ⟨rfl, rfl⟩

/-! ### Any history -/

/-- The aliases that a registry has are the ones that its history tells. -/
theorem get?_aliases_after (made : SectionRegistry) (history : List Registration) (name : String) :
    Keyed.get? (made.after history).aliases name = made.aliasOf? history name := by
  induction history using List.reverseRecOn with
  | nil => rfl
  | append_singleton history e ih =>
    have hlast : made.after (history ++ [e]) = (made.after history).add e := by
      simp [after]
    rw [hlast, get?_aliases_add, ih, aliasOf?, aliasOf?, List.reverse_append,
      List.reverse_singleton, List.singleton_append, List.find?_cons]
    by_cases halias : name ∈ e.aliases
    · simp [halias]
    · simp [halias]

theorem canonical_after_eq_self_iff {id : String} :
    (made.after history).canonical id = id ↔ ¬ made.Shadowed history id := by
  rw [canonical, get?_aliases_after, Shadowed]
  cases made.aliasOf? history id <;> simp

/-- **However a registry was made and filled, a registration in it is found, and leaves others
alone, exactly when its identifier is one of its own aliases, or no alias of another section, or
when its compiler was found by it already.** -/
theorem after_upholds_iff (made : SectionRegistry) (history : List Registration)
    (e : Registration) :
    (made.after history).Upholds e ↔
      e.id ∈ e.aliases ∨ ¬ made.Shadowed history e.id ∨
        (made.after history).Finds e.id e.compiler := by
  rw [upholds_iff, canonical_after_eq_self_iff, or_assoc]

/-- A section of one's own, under a name that is an alias from the start. -/
def ownExperiences : Registration :=
  ⟨"experiences", { type := "mine" }, []⟩

/-- It is not found: the name goes on leading to the section of another compiler. -/
theorem ownExperiences_not_upheld : ¬ (builtin.after []).Upholds ownExperiences := by
  intro h
  have hfound := (h.found "experiences" (.inl rfl)).2
  have htype : "experience" = "mine" := congrArg SectionCompiler.type hfound
  exact absurd htype (by decide)

end SectionRegistry

end Vitae
