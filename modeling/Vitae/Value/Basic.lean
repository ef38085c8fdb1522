import Vitae.Misuse
import Vitae.Value.Key

/-! The values that documents, resumes and overrides are made of.

Beside the kinds of a data format there are dates, which resume data may carry,
and `unset`, which an override uses to say nothing about a field. An object is a
list of fields in the order they were given. -/

namespace Vitae

inductive Value where
  | null
  | unset
  | bool (b : Bool)
  | int (n : Int)
  | float (x : Binary64)
  | str (s : String)
  | date (d : Date)
  | moment (m : Moment)
  | list (items : List Value)
  | object (fields : List (Key × Value))
deriving Inhabited

abbrev Fields := Keyed Key Value

def Key.value : Key → Value
  | .null => .null
  | .unset => .unset
  | .bool b => .bool b
  | .int n => .int n
  | .float x => .float x
  | .str s => .str s
  | .date d => .date d
  | .moment m => .moment m

namespace Value

/-- The key that a value is. Lists and objects can change and so cannot be keys. -/
def key? : Value → Option Key
  | .null => some .null
  | .unset => some .unset
  | .bool b => some (.bool b)
  | .int n => some (.int n)
  | .float x => some (.float x)
  | .str s => some (.str s)
  | .date d => some (.date d)
  | .moment m => some (.moment m)
  | .list _ => none
  | .object _ => none

@[simp] theorem key?_value (k : Key) : k.value.key? = some k := by cases k <;> rfl

def isKey (v : Value) : Bool := v.key?.isSome

def ofNumber : Number → Value
  | .int n => .int n
  | .float x => .float x

def ofText? : Option String → Value
  | none => .null
  | some s => .str s

def text? : Value → Option String
  | .str s => some s
  | _ => none

def fields? : Value → Option Fields
  | .object fields => some fields
  | _ => none

/-- The number that a value is. A truth value is none. -/
def number? : Value → Option Number
  | .int n => some (.int n)
  | .float x => some (.float x)
  | _ => none

def isNull : Value → Bool
  | .null => true
  | _ => false

def isUnset : Value → Bool
  | .unset => true
  | _ => false

/-- Whether a value counts as present: not null, unset, false, zero or empty. -/
def truthy : Value → Bool
  | .null => false
  | .unset => false
  | .bool b => b
  | .int n => n != 0
  | .float x => !x.isZero
  | .str s => s != ""
  | .list items => !items.isEmpty
  | .object fields => !fields.isEmpty
  | .date _ => true
  | .moment _ => true

/-- The name of a value's kind in messages. -/
def kind : Value → String
  | .null => "NoneType"
  | .unset => "_Unset"
  | .bool _ => "bool"
  | .int _ => "int"
  | .float _ => "float"
  | .str _ => "str"
  | .date _ => "date"
  | .moment _ => "datetime"
  | .list _ => "list"
  | .object _ => "dict"

/-- The fields of an object, for an operation that only objects have. -/
def fields (v : Value) : Except Misuse Fields :=
  match v with
  | .object fields => .ok fields
  | _ => .error .noFields

/-- A field of an object, null when absent. -/
def field (fields : Fields) (name : String) : Value := (Keyed.get? fields name).getD .null

/-- What a walk over a value meets: items, keys of fields, characters. -/
def elements : Value → Except Misuse (List Value)
  | .list items => .ok items
  | .object fields => .ok (fields.map fun f => f.1.value)
  | .str s => .ok (s.toList.map fun c => .str c.toString)
  | _ => .error .noElements

end Value

end Vitae
