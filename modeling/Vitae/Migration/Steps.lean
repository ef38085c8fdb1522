import Vitae.Migration.Registry

/-! The steps from the first versions of documents to the current one.

Version 1.0.0 renamed the field of the paper size and two layout types. Version
1.1.0 renamed a density and gave the layout three fields and the document its
item overrides, which a document that lacks them gets with their defaults. -/

namespace Vitae.Migration

/-- Names of layout types before 1.0.0, with the present ones. -/
def renamedLayouts : Keyed String String :=
  [("simple", "single-column"), ("sidebar", "sidebar-left")]

/-- Fields that layouts have from 1.1.0 on. -/
def layoutDefaults : Fields :=
  [("columnDistribution", .str "70-30"),
   ("showPageNumbers", .bool false),
   ("pageNumberPosition", .str "bottom-center")]

/-- Moves the paper size, unless its new field is taken. -/
def movePaper (layout : Fields) : Fields :=
  match Keyed.get? layout "paper" with
  | some paper =>
    if Keyed.has layout "paperSize" then layout
    else Keyed.set (Keyed.erase layout "paper") "paperSize" paper
  | none => layout

/-- Replaces an old layout type. A type that cannot be looked up is a misuse. -/
def renameLayout (layout : Fields) : Except Misuse Fields :=
  match Value.field layout "type" with
  | .str name =>
    match Keyed.get? renamedLayouts name with
    | some present => .ok (Keyed.set layout "type" (.str present))
    | none => .ok layout
  | v => if v.isKey then .ok layout else .error .notAKey

/-- The document with its layout in the form of 1.0.0, where it has one. -/
def toFirst (document : Fields) : Except Misuse Fields :=
  match Keyed.get? document "layout" with
  | some (.object layout) => do
    let layout ← renameLayout (movePaper layout)
    .ok (Keyed.set document "layout" (.object layout))
  | _ => .ok document

/-- Replaces the old name of the density, where there is one. -/
def presentDensity (tokens : Fields) : Fields :=
  match Keyed.get? tokens "spacing" with
  | some (.object spacing) =>
    match Keyed.get? spacing "density" with
    | some (.str "normal") =>
      Keyed.set tokens "spacing" (.object (Keyed.set spacing "density" (.str "comfortable")))
    | _ => tokens
  | _ => tokens

/-- Replaces the density of a document. Tokens that are there have to have fields. -/
def renameDensity (document : Fields) : Except Misuse Fields :=
  match Value.field document "tokens" with
  | .object tokens => .ok (Keyed.set document "tokens" (.object (presentDensity tokens)))
  | v => if v.truthy then .error .noFields else .ok document

/-- A layout with the fields that it lacks. -/
def withDefaults (layout : Fields) : Fields :=
  layoutDefaults.foldl (fun l d => Keyed.setDefault l d.1 d.2) layout

def addLayoutDefaults (document : Fields) : Fields :=
  match Keyed.get? document "layout" with
  | some (.object layout) => Keyed.set document "layout" (.object (withDefaults layout))
  | _ => document

/-- The document in the form of 1.1.0. -/
def toCurrent (document : Fields) : Except Misuse Fields := do
  let document ← renameDensity document
  .ok (Keyed.setDefault (addLayoutDefaults document) "itemOverrides" (.object []))

/-- A step that reshapes a document and marks it with the version it leads to. -/
def reshaping (origin target : String) (reshape : Fields → Except Misuse Fields) : Step where
  origin := origin
  target := target
  apply document := do .ok (.object (stamped target (← reshape document)))

def builtinSteps : List Step :=
  [reshaping "0.9.0" "1.0.0" toFirst, reshaping "1.0.0" "1.1.0" toCurrent]

/-- The registry used where none is given. -/
def builtin : Registry := Registry.ofSteps builtinSteps

end Vitae.Migration
