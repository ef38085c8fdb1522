import Vitae.Value.Basic

/-! Values on a page.

A page holds values of a data format alone, so others are written as ones that have
a place there: dates as texts, numbers that are not finite as null, keys by name.
`Value.wired` does this to a depth that `Wire.room` limits. Unset has no place. -/

namespace Vitae

/-- What a page is written as: a value, in which an object has each name once, or a
text, in which keys of one name stay apart. -/
inductive Wire where
  | value
  | text
deriving DecidableEq, Repr

/-- Why a value has no place on a page. -/
inductive WireFault where
  | tooDeep
  | unset
deriving DecidableEq, Repr

namespace Wire

/-- How many values may stand within one another. -/
def room : Nat := 255

def joined (wire : Wire) (fields : Fields) : Fields :=
  match wire with
  | .value => Keyed.setAll [] fields
  | .text => fields

end Wire

def Key.wireName : Key → Except WireFault String
  | .null => .ok "None"
  | .unset => .error .unset
  | .bool b => .ok (if b then "true" else "false")
  | .int n => .ok (toString n)
  | .float x => .ok (if x.isFinite then (Number.float x).text else "None")
  | .str s => .ok s
  | .date d => .ok d.text
  | .moment m => .ok m.pageText

namespace Value

mutual

/-- A value as a page holds it. -/
def wired (wire : Wire) (room : Nat) (v : Value) : Except WireFault Value :=
  if room = 0 then .error .tooDeep
  else
    match v with
    | .unset => .error .unset
    | .float x => .ok (if x.isFinite then .float x else .null)
    | .date d => .ok (.str d.text)
    | .moment m => .ok (.str m.pageText)
    | .list items => (wiredItems wire (room - 1) items).map .list
    | .object fields =>
      (wiredFields wire (room - 1) fields).map fun found => .object (wire.joined found)
    | v => .ok v

def wiredItems (wire : Wire) (room : Nat) : List Value → Except WireFault (List Value)
  | [] => .ok []
  | v :: rest => do
    let v ← wired wire room v
    .ok (v :: (← wiredItems wire room rest))

def wiredFields (wire : Wire) (room : Nat) : List (Key × Value) → Except WireFault Fields
  | [] => .ok []
  | (key, v) :: rest => do
    let name ← key.wireName
    let v ← wired wire room v
    .ok ((.str name, v) :: (← wiredFields wire room rest))

end

end Value

end Vitae
