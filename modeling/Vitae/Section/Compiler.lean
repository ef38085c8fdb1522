import Vitae.Log.Record
import Vitae.Section.Override

/-! Section compilers, and the registry that finds them.

A compiler turns the resume's data for one kind of section into a payload: a list
of items, or a text. Without a resume, or without a source of data, the payload is
the empty one of the same shape. A section is found by its identifier or an alias
of it; one that nobody registered compiles to an empty list. -/

namespace Vitae

/-- The shape of a payload. A shape of another name holds items. -/
inductive PayloadShape where
  | items
  | content
  | named (name : String)
deriving DecidableEq, Repr

namespace PayloadShape

def name : PayloadShape → String
  | .items => "items"
  | .content => "content"
  | .named name => name

def ofName (name : String) : PayloadShape :=
  if name = "items" then .items else if name = "content" then .content else .named name

end PayloadShape

/-- What a section shows. -/
inductive Payload where
  | items (type : String) (items : List Fields)
  | content (type : String) (text : Value)

namespace Payload

def toFields : Payload → Fields
  | .items type found => [("type", .str type), ("items", .list (found.map .object))]
  | .content type text => [("type", .str type), ("data", .object [("content", text)])]

end Payload

structure SectionCompiler where
  type : String
  shape : PayloadShape := .items
  /-- The field of the resume that holds the data. -/
  source : Option String := none
  mapper : Option Item.Mapper := none

namespace SectionCompiler

def placeholder (c : SectionCompiler) : Payload :=
  match c.shape with
  | .content => .content c.type (.str "")
  | _ => .items c.type []

def mapRecord (c : SectionCompiler) (record : Value) : Except Misuse Fields :=
  match c.mapper with
  | some m => m.apply record
  | none => .error .noMapper

/-- The items for the data of a resume, before any override. -/
def itemsOf (c : SectionCompiler) (found : Value) : Except Misuse (List Fields) := do
  let records ← if found.truthy then found.elements else .ok []
  records.mapM c.mapRecord

/-- Compiles the data of a resume. The overrides are looked at only where there are
items for them. -/
def compile (c : SectionCompiler) (resume : Value) (overrides : Except Misuse (List Fields)) :
    Except Misuse Payload :=
  match c.source with
  | none => .ok c.placeholder
  | some source => do
    let found := Value.field (← resume.fields) source
    match c.shape with
    | .content => .ok (.content c.type (if found.truthy then found else .str ""))
    | _ =>
      let items ← c.itemsOf found
      .ok (.items c.type (Override.applyAll (← overrides) items))

end SectionCompiler

/-! ### The registry -/

structure SectionRegistry where
  compilers : Keyed String SectionCompiler
  aliases : Keyed String String

namespace SectionRegistry

/-- The compiler of sections that are not registered. -/
def custom : SectionCompiler := ⟨"custom", .items, none, none⟩

def builtinCompilers : Keyed String SectionCompiler :=
  [("experience", ⟨"experience", .items, some "experiences", some .experience⟩),
   ("education", ⟨"education", .items, some "education", some .education⟩),
   ("skills", ⟨"skills", .items, some "skills", some .skill⟩),
   ("languages", ⟨"languages", .items, some "languages", some .language⟩),
   ("projects", ⟨"projects", .items, some "projects", some .project⟩),
   ("certifications", ⟨"certifications", .items, some "certifications", some .certification⟩),
   ("awards", ⟨"awards", .items, some "awards", some .award⟩),
   ("interests", ⟨"interests", .items, some "interests", some .interest⟩),
   ("references", ⟨"references", .items, some "recommendations", some .reference⟩),
   ("summary", ⟨"summary", .content, some "summary", none⟩),
   -- Sections for which resumes hold no data
   ("objective", ⟨"objective", .content, none, none⟩),
   ("volunteer", ⟨"volunteer", .items, none, none⟩),
   ("publications", ⟨"publications", .items, none, none⟩)]

def builtinAliases : Keyed String String :=
  [("experiences", "experience"), ("recommendations", "references")]

/-- The registry used where none is given. -/
def builtin : SectionRegistry := ⟨builtinCompilers, builtinAliases⟩

def register (r : SectionRegistry) (id : String) (c : SectionCompiler) (aliases : List String) :
    SectionRegistry :=
  { compilers := Keyed.set r.compilers id c
    aliases := aliases.foldl (fun known name => Keyed.set known name id) r.aliases }

/-- The identifier that an alias stands for. -/
def canonical (r : SectionRegistry) (id : String) : String := (Keyed.get? r.aliases id).getD id

def has (r : SectionRegistry) (id : String) : Bool := Keyed.has r.compilers (r.canonical id)

def get (r : SectionRegistry) (id : String) : SectionCompiler :=
  (Keyed.get? r.compilers (r.canonical id)).getD custom

/-- Compiles a section, or its placeholder when the resume is null. -/
def compile (r : SectionRegistry) (id : String) (resume : Value)
    (overrides : Except Misuse (List Fields)) : Traced Payload :=
  if resume.isNull then pure (r.get id).placeholder
  else do
    if !r.has id then
      Traced.note .compile ("No compiler for section '" ++ id ++ "', using placeholder")
    Traced.lift ((r.get id).compile resume overrides)

end SectionRegistry

end Vitae
