/-! What can be wrong with a field of a document.

A `Fault` is a cause. Its `kind` is the precise name under which reading reports
it, its `code` the stable name that callers of validation see; most kinds share
`invalid_type`. -/

namespace Vitae

inductive Fault where
  | missing
  | notText
  | emptyText
  | notVersion
  | notColumn
  | notFlag
  /-- A value of a kind that can name a truth value, but names none. -/
  | unclearFlag
  | notNumber
  | notFinite
  /-- A value that should be an object with the fields of the named part. -/
  | notPart (part : String)
  | notObject
  | notList
  /-- A field beside the known ones whose key is no text. -/
  | notName
deriving DecidableEq, Repr

namespace Fault

def kind : Fault → String
  | .missing => "missing"
  | .notText => "string_type"
  | .emptyText => "string_too_short"
  | .notVersion => "string_pattern_mismatch"
  | .notColumn => "literal_error"
  | .notFlag => "bool_type"
  | .unclearFlag => "bool_parsing"
  | .notNumber => "invalid_type"
  | .notFinite => "non_finite"
  | .notPart _ => "model_type"
  | .notObject => "dict_type"
  | .notList => "list_type"
  | .notName => "invalid_key"

def code : Fault → String
  | .missing => "missing"
  | .notVersion => "invalid_version"
  | .notColumn => "invalid_enum"
  | .emptyText => "empty_value"
  | .notFinite => "non_finite"
  | .unclearFlag => "bool_parsing"
  | .notName => "invalid_key"
  | _ => "invalid_type"

def message : Fault → String
  | .missing => "Field required"
  | .notText => "Input should be a valid string"
  | .emptyText => "String should have at least 1 character"
  | .notVersion => "String should match pattern '^\\d+\\.\\d+(\\.\\d+)?$'"
  | .notColumn => "Input should be 'full-width', 'main' or 'sidebar'"
  | .notFlag => "Input should be a valid boolean"
  | .unclearFlag => "Input should be a valid boolean, unable to interpret input"
  | .notNumber => "Input should be a number"
  | .notFinite => "Input should be a finite number"
  | .notPart part => "Input should be a valid dictionary or instance of " ++ part
  | .notObject => "Input should be a valid dictionary"
  | .notList => "Input should be a valid list"
  | .notName => "Keys should be strings"

end Fault

/-- A fault and the way to it: names of fields, positions in lists. -/
structure PlacedFault where
  path : List String
  fault : Fault
deriving DecidableEq, Repr

def PlacedFault.under (step : String) (p : PlacedFault) : PlacedFault :=
  { p with path := step :: p.path }

def PlacedFault.pathText (p : PlacedFault) : String := String.intercalate "." p.path

end Vitae
