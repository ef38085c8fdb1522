import Vitae.Document.Basic
import Vitae.Log.Record

/-! Tables of named design values.

A document names a value, the table gives it, and a name that the table does not
have gives the table's fallback. Resolution is therefore total: `Table.resolve`
depends on the name alone, and a missing name and an unknown one agree. Only the
records tell them apart: an unknown name is noted, a missing one is not. -/

namespace Vitae

structure Table (α : Type) where
  /-- What the names of the table stand for. -/
  label : String
  entries : Keyed String α
  fallback : α
  /-- The fallback, as records show it. -/
  shown : String

namespace Table
variable {α : Type}

def resolve (t : Table α) (name : Option String) : α :=
  match name with
  | none => t.fallback
  | some name => (Keyed.get? t.entries name).getD t.fallback

/-- The record of a fallback. -/
def fallbackRecord (label : String) (value : Value) (shown : String) : Record :=
  Area.compile.record .debug ("Unrecognised " ++ label ++ " " ++ value.literal ++ ", using " ++ shown)

/-- The records of a lookup. -/
def notices (t : Table α) (name : Option String) : List Record :=
  match name with
  | none => []
  | some name =>
    if Keyed.has t.entries name then [] else [fallbackRecord t.label (.str name) t.shown]

/-- A lookup by any value. One that is no text is not in the table, and a list or an
object cannot be looked up. -/
def lookup (t : Table α) (name : Value) : Traced α :=
  match name with
  | .null => pure t.fallback
  | .str name => ⟨t.notices (some name), .ok (t.resolve (some name))⟩
  | v =>
    if v.isKey then ⟨[fallbackRecord t.label v t.shown], .ok t.fallback⟩
    else .fail (.misuse .notAKey)

@[simp] theorem resolve_none (t : Table α) : t.resolve none = t.fallback := rfl

theorem resolve_of_unknown (t : Table α) {name : String} (h : Keyed.get? t.entries name = none) :
    t.resolve (some name) = t.resolve none := by
  simp [resolve, h]

/-- What holds of the fallback and of every entry holds of whatever a name resolves to. -/
theorem resolve_of_forall {p : α → Prop} (t : Table α) (hfallback : p t.fallback)
    (hentries : ∀ e ∈ t.entries, p e.2) (name : Option String) : p (t.resolve name) := by
  cases name with
  | none => exact hfallback
  | some name =>
    show p ((Keyed.get? t.entries name).getD t.fallback)
    cases h : Keyed.get? t.entries name with
    | none => exact hfallback
    | some x =>
      obtain ⟨_, hmem, _⟩ := Keyed.mem_of_get? h
      exact hentries _ hmem

end Table

end Vitae
