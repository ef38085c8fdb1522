import Vitae.Document.Reading
import Vitae.Document.Writing
import Vitae.Log.Record

/-! Validation: a document, or all that is wrong with it.

Beside the faults of reading there are two rules across sections: there are at
most fifty, and no two have the same identifier. They are checked whether or not
the document could be read; identifiers that are no texts are passed over. -/

namespace Vitae.Validation

def maxSections : Nat := 50

/-- The identifiers of the sections of a value, in order; none where a section has
no identifier that is a text. No list of sections, no identifiers. -/
def rawIds (v : Value) : Option (List (Option String)) :=
  match v with
  | .object fields =>
    match Value.field fields "sections" with
    | .list items =>
      some (items.map fun
        | .object s => (Value.field s "id").text?
        | _ => none)
    | _ => none
  | _ => none

def idsOf (d : Document) : List (Option String) := d.sections.map fun s => some s.id

def tooMany (count : Nat) : List FieldError :=
  if maxSections < count then
    [⟨"sections",
      "At most " ++ toString maxSections ++ " sections are allowed, got " ++ toString count,
      "too_many_sections"⟩]
  else []

/-- The identifiers that repeat one of `seen` or an earlier one. -/
def duplicates (seen : List String) (position : Nat) : List (Option String) → List FieldError
  | [] => []
  | none :: rest => duplicates seen (position + 1) rest
  | some id :: rest =>
    let later := duplicates (id :: seen) (position + 1) rest
    if seen.contains id then
      ⟨"sections." ++ toString position ++ ".id", "Duplicate section id '" ++ id ++ "'",
        "duplicate_section_id"⟩ :: later
    else later

def sectionErrors (ids : List (Option String)) : List FieldError :=
  tooMany ids.length ++ duplicates [] 0 ids

/-- Validates a value that is not trusted. -/
def validate (v : Value) : Except (List FieldError) Document :=
  match Document.read v with
  | .ok d =>
    let errors := sectionErrors (idsOf d)
    if errors.isEmpty then .ok d else .error errors
  | .bad faults =>
    .error (faults.map FieldError.ofFault ++ ((rawIds v).map sectionErrors).getD [])

/-- Validates a document that was read before. -/
def validateRead (d : Document) : Except (List FieldError) Document :=
  let errors := sectionErrors (idsOf d)
  if errors.isEmpty then .ok d else .error errors

/-- How many findings are logged. -/
def loggedErrors : Nat := 5

/-- The records of a failed validation. -/
def records (errors : List FieldError) : List Record :=
  let count := errors.length
  let rest :=
    if loggedErrors < count then
      [Area.schema.record .debug ("  ... and " ++ toString (count - loggedErrors) ++ " more errors")]
    else []
  Area.schema.record .warning ("DSL validation failed with " ++ toString count ++ " error(s)") ::
    (errors.take loggedErrors).map (fun e => Area.schema.record .debug e.line) ++ rest

/-- A document that is valid; findings are logged and end the work. -/
def require (outcome : Except (List FieldError) Document) : Traced Document :=
  match outcome with
  | .ok d => pure d
  | .error errors => ⟨records errors, .error (.invalid "Invalid resume DSL" errors)⟩

end Vitae.Validation
