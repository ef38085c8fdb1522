import Vitae.Value.Basic
import Vitae.Yaml.Node

/-! From a text to the value that it holds.

A text is first checked for characters that no text may hold. Its nodes then become values:
a mapping becomes an object, in which a key stands once and text keys may not repeat
at all. The entries that a mapping takes over from others come first and give way to its own. -/

namespace Vitae.Yaml

/-- Whether a text may hold a character. -/
def isReadable (c : Char) : Bool :=
  let n := c.toNat
  c == '\t' || c == '\n' || c == '\r' || (0x20 ≤ n && n ≤ 0x7e) || n == 0x85 ||
    (0xa0 ≤ n && n ≤ 0xfffd) || 0x10000 ≤ n

namespace Node

/-- A node that is not of the kind that its tag asks for. -/
def unlike (expected : String) (n : Node) : Fault :=
  .simple .values ("expected a " ++ expected ++ " node, but found " ++ n.label) n.start

def unknownTag (tag : Tag) (start : Mark) : Fault :=
  .simple .values ("could not determine a constructor for the tag " ++ Text.quoted tag.name) start

/-- What is wrong with a collection that a tag makes something else. -/
def mistagged (tag : Tag) (n : Node) : Fault :=
  match tag with
  | .sequence => unlike "sequence" n
  | .mapping => unlike "mapping" n
  | .merge => unknownTag tag n.start
  | .value => unknownTag tag n.start
  | .other _ => unknownTag tag n.start
  | _ => unlike "scalar" n

def mappingFault (start : Mark) (problem : String) (mark : Mark) : Fault :=
  .during .values "while constructing a mapping" start problem mark

/-- The value of a scalar. -/
def scalarValue (tag : Tag) (text : String) (start : Mark) : Except Fault Value :=
  match tag with
  | .null => .ok .null
  | .str => .ok (.str text)
  | .bool =>
    let word := text.map Char.toLower
    match Tag.truth? word with
    | some b => .ok (.bool b)
    | none => .error (.noMember word)
  | .int => (Number.whole text.toList).map .int
  | .float => (Number.fraction text.toList).map .float
  | tag => .error (mistagged tag (.scalar tag text start))

/-- The first text key that stands for a second time. -/
def repeated? : List String → List (Node × Node) → Option (String × Mark)
  | _, [] => none
  | seen, (.scalar .str text start, _) :: rest =>
    if seen.contains text then some (text, start) else repeated? (text :: seen) rest
  | seen, _ :: rest => repeated? seen rest

/-- The fields that a mapping takes over from the mappings of a list, the first of which
wins. -/
def mergedItems (start : Mark) : List (Node × Value) → Except Fault Fields
  | [] => .ok []
  | (_, .object fields) :: rest => do .ok ((← mergedItems start rest) ++ fields)
  | (n, _) :: _ =>
    .error (mappingFault start ("expected a mapping for merging, but found " ++ n.label) n.start)

/-- The fields that a mapping takes over from a node. -/
def merged (start : Mark) (n : Node) (v : Value) : Except Fault Fields :=
  match n, v with
  | .mapping .., .object fields => .ok fields
  | .sequence _ items _, .list values => mergedItems start (items.zip values)
  | n, _ =>
    .error (mappingFault start
      ("expected a mapping or list of mappings for merging, but found " ++ n.label) n.start)

/-- Fields of a mapping: those taken over and its own. -/
structure Entries where
  merged : Fields
  own : Fields

mutual

def value : Node → Except Fault Value
  | .scalar tag text start => scalarValue tag text start
  | .sequence tag items start =>
    if tag = .sequence then (values items).map .list
    else .error (mistagged tag (.sequence tag items start))
  | .mapping tag entries start =>
    if tag = .mapping then
      match repeated? [] entries with
      | some (text, mark) => .error (mappingFault start ("found duplicate key " ++ text) mark)
      | none => do
        let found ← fields start entries
        .ok (.object (Keyed.setAll [] (found.merged ++ found.own)))
    else .error (mistagged tag (.mapping tag entries start))
  | .endless _ => .error .endless

def values : List Node → Except Fault (List Value)
  | [] => .ok []
  | n :: rest => do
    let v ← value n
    .ok (v :: (← values rest))

def fields (start : Mark) : List (Node × Node) → Except Fault Entries
  | [] => .ok ⟨[], []⟩
  | (k, n) :: rest => do
    let v ← value n
    match k with
    | .scalar .merge _ _ => do
      let more ← merged start n v
      let later ← fields start rest
      .ok { later with merged := more ++ later.merged }
    | .scalar .value text _ => do
      let later ← fields start rest
      .ok { later with own := (.str text, v) :: later.own }
    | k => do
      match (← value k).key? with
      | none => .error (mappingFault start "found unhashable key" k.start)
      | some key =>
        let later ← fields start rest
        .ok { later with own := (key, v) :: later.own }

end

end Node

/-- The value of a text; one without a document holds null. -/
def read (text : String) : Except Fault Value :=
  match text.toList.findIdx? fun c => !isReadable c with
  | some position => .error (.unprintable ((text.toList[position]?).getD ' ') position)
  | none => do
    match ← Node.ofText text with
    | none => .ok .null
    | some n => n.value

end Vitae.Yaml
