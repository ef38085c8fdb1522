import Vitae.Value.Equality

/-! A provider of resumes, kept in memory.

Resumes are found by their identifier and owner, or by the slug under which they are
public. A resume that is added under an identifier again takes the place of the
former one. -/

namespace Vitae.Resume

structure Provider where
  /-- Identifiers and resumes, in the order in which the identifiers came first. -/
  entries : List (Value × Value)

namespace Provider

def empty : Provider := ⟨[]⟩

def find? (entries : List (Value × Value)) (id : Value) : Option Value :=
  (entries.find? fun entry => entry.1.alike id).map (·.2)

def put : List (Value × Value) → Value → Value → List (Value × Value)
  | [], id, resume => [(id, resume)]
  | (key, old) :: rest, id, resume =>
    if key.alike id then (key, resume) :: rest else (key, old) :: put rest id resume

/-- The identifier of a resume. -/
def idOf (resume : Value) : Except Misuse Value :=
  match resume with
  | .object fields =>
    match Keyed.get? fields "id" with
    | some id => if id.isKey then .ok id else .error .notAKey
    | none => .error .missingField
  | _ => .error .notIndexed

def add (p : Provider) (resume : Value) : Except Misuse Provider := do
  .ok ⟨put p.entries (← idOf resume) resume⟩

def ofList (resumes : List Value) : Except Misuse Provider := resumes.foldlM add empty

/-- A field of a resume, null when absent. -/
def fieldOf (resume : Value) (name : String) : Value :=
  match resume with
  | .object fields => Value.field fields name
  | _ => .null

/-- The resume of an owner. -/
def get (p : Provider) (id owner : Value) : Except Misuse (Option Value) :=
  if id.isKey then
    .ok ((find? p.entries id).filter fun resume => (fieldOf resume "userId").alike owner)
  else .error .notAKey

/-- Only the truth value itself makes a resume public. -/
def isPublic (resume : Value) : Bool :=
  match fieldOf resume "isPublic" with
  | .bool b => b
  | _ => false

/-- The first public resume with a slug. -/
def getPublic (p : Provider) (slug : Value) : Option Value :=
  (p.entries.map (·.2)).find? fun resume =>
    (fieldOf resume "slug").alike slug && isPublic resume

end Provider

end Vitae.Resume
