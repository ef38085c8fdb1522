import Vitae.Yaml.Number

/-! The kinds of nodes.

A node has the kind that its tag names, and without one a kind by its form: a plain scalar
is what its word stands for, any other scalar a text. -/

namespace Vitae.Yaml

inductive Tag where
  | null
  | bool
  | int
  | float
  | str
  /-- The key under which a mapping takes over the entries of others. -/
  | merge
  | value
  | sequence
  | mapping
  /-- A kind that no value has here. Those of the standard among them, such as bytes, sets and
  dates, are refused like all others. -/
  | other (name : String)
deriving DecidableEq, Repr, Inhabited

namespace Tag

def standard : String := "tag:yaml.org,2002:"

def name : Tag → String
  | .null => standard ++ "null"
  | .bool => standard ++ "bool"
  | .int => standard ++ "int"
  | .float => standard ++ "float"
  | .str => standard ++ "str"
  | .merge => standard ++ "merge"
  | .value => standard ++ "value"
  | .sequence => standard ++ "seq"
  | .mapping => standard ++ "map"
  | .other name => name

def ofName (text : String) : Tag :=
  let known := [Tag.null, .bool, .int, .float, .str, .merge, .value, .sequence, .mapping]
  (known.find? fun tag => tag.name == text).getD (.other text)

/-- The truth value that a word is, in three spellings by the case of its letters. -/
def truth? (word : String) : Option Bool :=
  let spellings (s : String) : List String := [s, s.capitalize, s.map Char.toUpper]
  if (["yes", "true", "on"].flatMap spellings).contains word then some true
  else if (["no", "false", "off"].flatMap spellings).contains word then some false
  else none

def nullWords : List String := ["", "~", "null", "Null", "NULL"]

/-- The kind of a plain word. -/
def ofWord (word : String) : Tag :=
  if nullWords.contains word then .null
  else if (truth? word).isSome then .bool
  else if Number.isFraction word.toList then .float
  else if Number.isWhole word.toList then .int
  else if word = "<<" then .merge
  else if word = "=" then .value
  else .str

/-- The kind of a scalar. A tag that is an exclamation mark asks for the kind of a plain
one. -/
def ofScalar (tag : Option String) (plain : Bool) (text : String) : Tag :=
  match tag with
  | none => if plain then ofWord text else .str
  | some "!" => ofWord text
  | some name => ofName name

def ofCollection (usual : Tag) (tag : Option String) : Tag :=
  match tag with
  | none => usual
  | some "!" => usual
  | some name => ofName name

def ofSequence : Option String → Tag := ofCollection .sequence

def ofMapping : Option String → Tag := ofCollection .mapping

end Tag

end Vitae.Yaml
