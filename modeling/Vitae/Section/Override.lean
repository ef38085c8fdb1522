import Vitae.Section.Item
import Vitae.Sorting.Runs
import Vitae.Value.Equality

/-! Overrides for the items of a section.

An override names one or more items, by identifier or by position, and hides them,
moves them or replaces their fields. `Override.applyAll` applies a list of them:
each item is patched by the overrides that match it in the order of the list, so
that the last word wins, and the items that stay are sorted by their keys. An item
without a key of its own has its position as key, and equal keys keep the order of
positions. A key that is no number at all goes neither before nor after any other, and
an item with such a key can keep its neighbours from being compared. -/

namespace Vitae.Override

/-- Fields of an override that say which items it is for and what to do with them.
They are never copied, and neither is an identifier. -/
def reserved : List Key := ["itemId", "index", "visible", "order", "id"]

/-- Whether an override is for the item with this identifier at this position. The
position counts only where no identifier is named. -/
def isFor (override : Fields) (id : Value) (position : Nat) : Bool :=
  let wanted := Value.field override "itemId"
  if !wanted.isNull then id.alike wanted
  else
    match Value.field override "index" with
    | .int n => n == position
    | _ => false

/-- An item while overrides are applied. -/
structure Entry where
  item : Fields
  visible : Bool
  key : Number

/-- Only the truth value false hides an item. -/
def shows : Value → Bool
  | .bool false => false
  | _ => true

/-- The fields of an override that replace fields of the item. -/
def patch (override : Fields) : Fields :=
  override.filter fun f => !reserved.contains f.1

def applyOne (e : Entry) (override : Fields) : Entry :=
  { e with
    item := Keyed.setAll e.item (patch override)
    visible :=
      match Keyed.get? override "visible" with
      | some v => shows v
      | none => e.visible
    key := ((Value.field override "order").number?).getD e.key }

/-- An item with the overrides for it applied. -/
def entry (overrides : List Fields) (item : Fields) (position : Nat) : Entry :=
  (overrides.filter fun o => isFor o (Value.field item "id") position).foldl applyOne
    ⟨item, true, .int position⟩

def entries (overrides : List Fields) (items : List Fields) : List Entry :=
  items.zipIdx.map fun (item, position) => entry overrides item position

/-- Whether an entry goes before another: the one with the smaller key does. -/
def before (a b : Entry) : Bool := a.key.lt b.key

/-- Whether the key of an entry has a place among others. -/
def isPlaced (e : Entry) : Bool := e.key.place?.isSome

/-- Entries in the order of their keys. Keys that all have places leave no choice; with
others among them the order is the one that sorting by runs finds. -/
def sorted (found : List Entry) : List Entry :=
  if found.all isPlaced then found.mergeSort fun a b => !before b a
  else Sorting.sortBy before found

/-- The items that stay visible, in order. -/
def applyAll (overrides : List Fields) (items : List Fields) : List Fields :=
  (sorted ((entries overrides items).filter Entry.visible)).map Entry.item

/-! ### Values of any shape -/

/-- The overrides in a value; entries that are no objects are passed over. -/
def ofValue (v : Value) : Except Misuse (List Fields) :=
  if v.truthy then v.elements.map fun found => found.filterMap Value.fields? else .ok []

/-- Whether comparing an identifier asks for the fields of an item. -/
def asksId (override : Fields) : Bool := !(Value.field override "itemId").isNull

/-- An item as an object. Overrides that compare identifiers need one from the start. -/
def itemOf (overrides : List Fields) (v : Value) : Except Misuse Fields := do
  let item ← v.asObject
  match v with
  | .object _ => .ok item
  | _ => if overrides.any asksId then .error .noFields else .ok item

/-- Applies overrides to items, both being values of any shape. -/
def applyValues (items overrides : Value) : Except Misuse (List Fields) := do
  let overrides ← ofValue overrides
  let items ← (← items.elements).mapM (itemOf overrides)
  .ok (applyAll overrides items)

end Vitae.Override
