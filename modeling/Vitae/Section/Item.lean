import Vitae.Calendar.IsoText
import Vitae.Value.Basic

/-! From the records of a resume to the items of a section.

Each kind of record has a `Mapper`, which names the fields of its items and where
they come from (`Source`). Dates are brought to one form where they can be read
and kept as they are where not. Only the fields that a mapper names reach the
page. -/

namespace Vitae

namespace Value

/-- A date in one form: year, month and day. A text that is no date, and any other
value, stays as it is. -/
def isoDate (v : Value) : Value :=
  match v with
  | .date d => .str d.text
  | .moment m => .str m.date.text
  | .str s =>
    match Date.ofIso? s with
    | some d => .str d.text
    | none => v
  | v => v

/-- The key and the value of an entry of a list of pairs. -/
def pair (index : Nat) (entry : Value) : Except Misuse (Key × Value) := do
  match ← entry.elements with
  | [name, value] =>
    match name.key? with
    | some key => .ok (key, value)
    | none => .error .notAKey
  | parts => .error (.notAPair index parts.length)

/-- Adds the entries of a list of pairs to fields. Every key that is not-a-number is one
of its own. -/
def pairs (fields : Fields) (index : Nat) : List Value → Except Misuse Fields
  | [] => .ok fields
  | entry :: rest => do
    let (key, value) ← pair index entry
    let fields := if key.isNaN then fields ++ [(key, value)] else Keyed.set fields key value
    pairs fields (index + 1) rest

/-- A value as an object: itself, or the object of a list of pairs. -/
def asObject : Value → Except Misuse Fields
  | .object fields => .ok fields
  | v => do pairs [] 0 (← v.elements)

end Value

namespace Item

/-- Where a field of an item comes from. -/
inductive Source where
  /-- A field of the record, null when absent. -/
  | field (name : String)
  /-- A field of the record, empty when absent. -/
  | text (name : String)
  | date (name : String)
  /-- The elements of a field. -/
  | each (name : String)
  /-- Start, end and whether the end is still to come. -/
  | period

def periodOf (record : Fields) : Value :=
  .object
    [("startDate", (Value.field record "startDate").isoDate),
     ("endDate", (Value.field record "endDate").isoDate),
     ("isCurrent", .bool (Value.field record "isCurrent").truthy)]

def Source.value (record : Fields) : Source → Except Misuse Value
  | .field name => .ok (Value.field record name)
  | .text name => .ok ((Keyed.get? record name).getD (.str ""))
  | .date name => .ok (Value.field record name).isoDate
  | .each name =>
    let found := Value.field record name
    if found.truthy then found.elements.map .list else .ok (.list [])
  | .period => .ok (periodOf record)

/-- The fields of an item, in order. -/
abbrev Shape := List (String × Source)

def Shape.item (shape : Shape) (record : Fields) : Except Misuse Fields :=
  shape.mapM fun part => (part.2.value record).map fun v => (.str part.1, v)

inductive Mapper where
  | experience
  | education
  | skill
  | language
  | project
  | certification
  | award
  | interest
  | reference
  /-- Takes the record as it is. -/
  | identity
  /-- A mapper of one's own, which may refuse a record. -/
  | custom (item : Value → Except Misuse Fields)

namespace Mapper

/-- The mappers that have names of their own. -/
def all : List Mapper :=
  [.experience, .education, .skill, .language, .project, .certification, .award, .interest,
   .reference, .identity]

def name : Mapper → String
  | .experience => "experience"
  | .education => "education"
  | .skill => "skill"
  | .language => "language"
  | .project => "project"
  | .certification => "certification"
  | .award => "award"
  | .interest => "interest"
  | .reference => "reference"
  | .identity => "identity"
  | .custom _ => "custom"

def ofName? (name : String) : Option Mapper := all.find? fun m => m.name == name

/-- The items of a mapper; one that takes records as they are, or is custom, has no shape. -/
def shape? : Mapper → Option Shape
  | .experience => some
    [("id", .field "id"), ("title", .text "position"), ("company", .text "company"),
     ("location", .field "location"), ("dateRange", .period),
     ("description", .field "description"), ("skills", .each "skills")]
  | .education => some
    [("id", .field "id"), ("institution", .text "institution"), ("degree", .text "degree"),
     ("field", .field "field"), ("location", .field "location"), ("dateRange", .period),
     ("description", .field "description"), ("gpa", .field "gpa")]
  | .skill => some
    [("id", .field "id"), ("name", .text "name"), ("category", .field "category"),
     ("level", .field "level")]
  | .language => some
    [("id", .field "id"), ("name", .text "name"), ("level", .field "level")]
  | .project => some
    [("id", .field "id"), ("name", .text "name"), ("description", .field "description"),
     ("url", .field "url"), ("technologies", .each "technologies"), ("dateRange", .period)]
  | .certification => some
    [("id", .field "id"), ("name", .text "name"), ("issuer", .field "issuer"),
     ("issueDate", .date "issueDate"), ("expiryDate", .date "expiryDate"),
     ("credentialId", .field "credentialId"), ("credentialUrl", .field "credentialUrl")]
  | .award => some
    [("id", .field "id"), ("title", .text "title"), ("issuer", .field "issuer"),
     ("date", .date "date"), ("description", .field "description")]
  | .interest => some
    [("id", .field "id"), ("name", .text "name"), ("description", .field "description")]
  | .reference => some
    [("id", .field "id"), ("author", .text "author"), ("position", .field "position"),
     ("company", .field "company"), ("content", .text "content"), ("date", .date "date")]
  | .identity => none
  | .custom _ => none

/-- The item of a record. -/
def apply (m : Mapper) (record : Value) : Except Misuse Fields :=
  match m with
  | .custom item => item record
  | m =>
    match m.shape? with
    | some shape => do shape.item (← record.fields)
    | none => record.asObject

end Mapper

end Item

end Vitae
