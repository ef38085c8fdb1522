import Vitae.Value.Basic

/-! Merging overrides into a document.

Overrides win leaf by leaf: objects merge with objects, and any other value takes
the place of what it meets, lists and null included. `unset` says nothing: a field
that holds it is passed over, and in a value that replaces another it is dropped at
every depth (`Value.stripped`). -/

namespace Vitae

namespace Value

mutual

/-- A value without the fields and items that are unset. -/
def stripped : Value → Value
  | .list items => .list (strippedItems items)
  | .object fields => .object (strippedFields fields)
  | v => v

def strippedItems : List Value → List Value
  | [] => []
  | .unset :: rest => strippedItems rest
  | v :: rest => stripped v :: strippedItems rest

def strippedFields : List (Key × Value) → List (Key × Value)
  | [] => []
  | (_, .unset) :: rest => strippedFields rest
  | (name, v) :: rest => (name, stripped v) :: strippedFields rest

end

mutual

/-- What an override that is not unset makes of the value it meets. -/
def mergedOver (old : Option Value) : Value → Value
  | .object fields =>
    match old with
    | some (.object base) => .object (mergeFields base fields)
    | _ => .object (strippedFields fields)
  | v => stripped v

/-- Merges the fields of an override, one after the other. -/
def mergeFields (base : Fields) : List (Key × Value) → Fields
  | [] => base
  | (_, .unset) :: rest => mergeFields base rest
  | (name, v) :: rest =>
    mergeFields (Keyed.set base name (mergedOver (Keyed.get? base name) v)) rest

end

/-- Merges overrides into a base. Both have to be objects. -/
def merge (base overrides : Value) : Except Misuse Fields := do
  .ok (mergeFields (← base.fields) (← overrides.fields))

end Value

end Vitae
