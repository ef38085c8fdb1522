/-! What happens to values for which there is no rule.

A document is checked before it is used, but resume data, overrides and the
steps of a migration meet values of any shape. An operation that such a value
does not have is a misuse, reported by its kind. -/

namespace Vitae

/-- What can be wrong with the tags of a colour. -/
inductive TagFault where
  | unknown (tag : String)
  /-- A closing tag without an opening one. -/
  | unopened (tag : String)
  /-- A closing tag for an outer tag. -/
  | crossed (tag : String)
  /-- The colour of a level within the colour of a level. -/
  | circular
deriving DecidableEq, Repr

namespace TagFault

def message : TagFault → String
  | .unknown tag =>
    "Tag \"" ++ tag ++ "\" does not correspond to any known color directive, make sure you " ++
      "did not misspelled it (or prepend '\\' to escape it)"
  | .unopened tag => "Closing tag \"" ++ tag ++ "\" has no corresponding opening tag"
  | .crossed tag => "Closing tag \"" ++ tag ++ "\" violates nesting rules"
  | .circular =>
    "The '<level>' color tag is not allowed in this context, it has not yet been associated " ++
      "to any color value."

end TagFault

inductive Misuse where
  /-- Fields were asked of a value that is no object. -/
  | noFields
  /-- Elements were asked of a value that has none. -/
  | noElements
  /-- A list or an object cannot be a key. -/
  | notAKey
  /-- A field was taken from a value that has no named fields. -/
  | notIndexed
  | missingField
  | notANumber
  /-- A number has no nearest whole number of the binary format. -/
  | tooLarge
  | notWhole
  /-- A section compiler has no mapper for its records. -/
  | noMapper
  /-- An entry of a list of pairs is no pair. -/
  | notAPair (index length : Nat)
  /-- A value has no form in a file. -/
  | notWritable
  | unknownLevel (name : String)
  /-- A colour is given for a level that does not exist. -/
  | undeclaredLevel (name : String)
  | negativeLevel (severity : Int)
  /-- A value that names no level and is no severity. -/
  | notALevel
  | badTag (fault : TagFault)
deriving DecidableEq, Repr

namespace Misuse

/-- The text of a misuse, where it has one. -/
def message? : Misuse → Option String
  | .notWhole => some "cannot convert float NaN to integer"
  | .notAPair index length =>
    some s!"dictionary update sequence element #{index} has length {length}; 2 is required"
  | .unknownLevel name => some s!"Level '{name}' does not exist"
  | .undeclaredLevel name =>
    some s!"Level '{name}' does not exist, you have to create it by specifying a level no"
  | .negativeLevel severity =>
    some s!"Invalid level value, it should be a positive integer, not: {severity}"
  | .badTag fault => some fault.message
  | _ => none

end Misuse

end Vitae
