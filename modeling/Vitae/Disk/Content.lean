import Vitae.Disk.Fault
import Vitae.Value.Literal
import Vitae.Yaml.Document

/-! What files hold, and the documents in them.

A document is an object or a list. No content is an empty document, and a file that
holds a lone text is read once more, as the text that it holds; where that is again a
lone text, it names the one field of a document, which is null. The objects of a document
need keys, and they may not be nested without end.

A text of a document can refer to other parts of it, or to what is around it, by a dollar sign and
a brace. Such references are not followed here: a document with one is a fault like any other, and
what it would be with its references resolved is left open. A disk can hold that document as it is
then (`Content.document`). -/

namespace Vitae

inductive Content where
  | text (text : String)
  /-- A document as it is loaded, such as those that the program brings with it. -/
  | document (v : Value)

namespace Value

/-- What making a part of a document takes: the most room at one time, and whether a
scalar was made, for which the containers around it are asked. -/
structure Effort where
  room : Nat
  asked : Bool

namespace Effort

def none : Effort := ⟨0, false⟩

/-- A null is made as it is. -/
def null : Effort := ⟨10, false⟩

/-- For a scalar, the containers around it are asked one after the other, up to the first
that was asked before. -/
def scalar (unasked : Nat) : Effort := ⟨max 10 (8 + 2 * unasked), true⟩

/-- One part after another. -/
def andThen (e f : Effort) : Effort := ⟨max e.room f.room, e.asked || f.asked⟩

/-- A container takes room of its own, and some until its last part is made. -/
def within (container : Nat) (parts : Effort) : Effort :=
  ⟨max 11 (container + parts.room), parts.asked⟩

end Effort

mutual

/-- The effort for a value within containers of which the inmost `unasked` were not asked. -/
def effort (unasked : Nat) : Value → Effort
  | .null => .null
  | .list items => .within 9 (effortOfItems unasked .none items)
  | .object fields => .within 10 (effortOfFields unasked .none fields)
  | _ => .scalar unasked

def effortOfItems (unasked : Nat) (done : Effort) : List Value → Effort
  | [] => done
  | v :: rest =>
    let next := effort (if done.asked then 0 else unasked + 1) v
    effortOfItems unasked (done.andThen next) rest

def effortOfFields (unasked : Nat) (done : Effort) : List (Key × Value) → Effort
  | [] => done
  | (_, v) :: rest =>
    let next := effort (if done.asked then 0 else unasked + 1) v
    effortOfFields unasked (done.andThen next) rest

end

/-- The room for making a document. -/
def roomLimit : Nat := 978

mutual

/-- The path to the first object with a field that has no key. -/
def unkeyed? (path : String) : Value → Option String
  | .list items => unkeyedItem? path 0 items
  | .object fields => unkeyedField? path fields
  | _ => none

def unkeyedItem? (path : String) (position : Nat) : List Value → Option String
  | [] => none
  | v :: rest =>
    (unkeyed? (path ++ "[" ++ toString position ++ "]") v).or
      (unkeyedItem? path (position + 1) rest)

def unkeyedField? (path : String) : List (Key × Value) → Option String
  | [] => none
  | (.null, _) :: _ => some path
  | (key, v) :: rest =>
    (unkeyed? (if path = "" then key.display else path ++ "." ++ key.display) v).or
      (unkeyedField? path rest)

end

/-- Whether a text refers to anything. -/
def isReference (s : String) : Bool := (s.toList.zip s.toList.tail).contains ('$', '\x7b')

mutual

/-- The first text that refers to anything. Keys never do. -/
def reference? : Value → Option String
  | .str s => if isReference s then some s else none
  | .list items => referenceItem? items
  | .object fields => referenceField? fields
  | _ => none

def referenceItem? : List Value → Option String
  | [] => none
  | v :: rest => (reference? v).or (referenceItem? rest)

def referenceField? : List (Key × Value) → Option String
  | [] => none
  | (_, v) :: rest => (reference? v).or (referenceField? rest)

end

end Value

namespace Content

/-- A value as a document, if it can be one. -/
def checked (source : Yaml.Source) (v : Value) : Except ContentFault Value :=
  if Value.roomLimit < (v.effort 0).room then .error .tooDeep
  else
    match v.unkeyed? "", v.reference? with
    | some path, _ => .error (.noKey path)
    | none, some word => .error (.unreadable source (.noMember word))
    | none, none => .ok v

def read (source : Yaml.Source) (s : String) : Except ContentFault Value :=
  (Yaml.read s).mapError (.unreadable source)

/-- The document in a text that stands alone in a file. -/
def documentWithin (s : String) : Except ContentFault Value := do
  match ← read (.text s) s with
  | .null => .ok (.object [])
  | .str word => .ok (.object [(word, .null)])
  | .list items => checked (.text s) (.list items)
  | .object fields => checked (.text s) (.object fields)
  | _ => .error .loneWithin

/-- The document in a file of this name. One with references in it is not resolved, but a fault. -/
def asDocument (name : String) : Content → Except ContentFault Value
  | .document v => .ok v
  | .text s => do
    match ← read (.file name) s with
    | .null => .ok (.object [])
    | .str word => documentWithin word
    | .list items => checked (.file name) (.list items)
    | .object fields => checked (.file name) (.object fields)
    | v => .error (.lone v.kind)

end Content

end Vitae
