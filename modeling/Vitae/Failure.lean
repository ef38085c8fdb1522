import Vitae.Disk.Fault
import Vitae.Document.Fault
import Vitae.Value.Literal
import Vitae.Value.Wire

/-! The ways in which work on a document or a resume can fail, and their texts. -/

namespace Vitae

/-- One finding of validation. The path of the document itself is empty. -/
structure FieldError where
  path : String
  message : String
  code : String
deriving DecidableEq, Repr

namespace FieldError

def text (e : FieldError) : String :=
  (if e.path = "" then "<root>" else e.path) ++ ": " ++ e.message

/-- The finding with its code, as reports and logs list it. -/
def line (e : FieldError) : String := "  " ++ e.text ++ " [" ++ e.code ++ "]"

def ofFault (p : PlacedFault) : FieldError := ⟨p.pathText, p.fault.message, p.fault.code⟩

end FieldError

inductive Failure where
  /-- A document with findings, under a headline. -/
  | invalid (headline : String) (errors : List FieldError)
  /-- No chain of steps leads from one version to the other, or one step failed. -/
  | unsupported (origin target : Value) (reason : Option String)
  | unknownTarget (target : Value)
  /-- No resume has this identifier, or no public one this slug. -/
  | noResume (id slug : Value)
  | noTheme (id : Value) (searched : Option String)
  /-- A value that should have been a document, or part of one, cannot be read. -/
  | unreadable (faults : List PlacedFault)
  /-- A compiled page holds a value that has no place on one. -/
  | unwritable (wire : Wire) (fault : WireFault)
  | disk (f : DiskFault)
  /-- A file holds no document. -/
  | content (f : ContentFault)
  | misuse (m : Misuse)

namespace Failure

/-- How many findings a report lists. -/
def listedErrors : Nat := 10

def invalidText (headline : String) (errors : List FieldError) : String :=
  let count := errors.length
  let head := headline ++ " (" ++ toString count ++ " error" ++ (if count = 1 then "" else "s") ++ ")"
  let rest :=
    if listedErrors < count then
      ["  ... and " ++ toString (count - listedErrors) ++ " more errors"]
    else []
  String.intercalate "\n" (head :: (errors.take listedErrors).map FieldError.line ++ rest)

/-- An empty reason is not mentioned. -/
def unsupportedText (origin target : Value) (reason : Option String) : String :=
  let head := "No migration path from DSL version '" ++ origin.display ++ "' to '" ++
    target.display ++ "'"
  match reason with
  | none => head
  | some reason => if reason = "" then head else head ++ "\nReason: " ++ reason

def noResumeText (id slug : Value) : String :=
  if slug.isNull then "Resume '" ++ id.display ++ "' not found"
  else "No public resume with slug '" ++ slug.display ++ "'"

def noThemeText (id : Value) (searched : Option String) : String :=
  let head := "Theme '" ++ id.display ++ "' not found"
  match searched with
  | none => head
  | some place => head ++ "\nSearched: " ++ place

def unwritableText : Wire → WireFault → String
  | _, .unset =>
    "Unable to serialize unknown type: <class 'resumark.contexts.theming.config_merger._Unset'>"
  | .value, .tooDeep => "Maximum serialization depth exceeded"
  | .text, .tooDeep =>
    "Error serializing to JSON: ValueError: Maximum serialization depth exceeded"

/-- The text of a failure; misuses of most kinds have none. -/
def message : Failure → String
  | .invalid headline errors => invalidText headline errors
  | .unsupported origin target reason => unsupportedText origin target reason
  | .unknownTarget target =>
    "Unknown render target '" ++ target.display ++ "'. Expected one of: ('html', 'pdf')"
  | .noResume id slug => noResumeText id slug
  | .noTheme id searched => noThemeText id searched
  | .unreadable faults => String.intercalate "\n" (faults.map fun p => (FieldError.ofFault p).text)
  | .unwritable wire fault => unwritableText wire fault
  | .disk f => f.message
  | .content f => f.message
  | .misuse m => m.message?.getD ""

end Failure

end Vitae
