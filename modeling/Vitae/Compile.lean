import Vitae.Ast.Basic
import Vitae.Document.Validation
import Vitae.Migration.Steps

/-! Compiling a document to a page.

A document is brought to the current version, validated, resolved and placed, in
this order, and the first failure ends the work. A document without a well-formed
version is not migrated, so that validation can say what is wrong with it. -/

namespace Vitae

/-- What a page takes from the clock: the time it was made and how long that took. -/
structure Stamp where
  generatedAt : String
  elapsed : String

/-- What a compilation starts from: a value that is not trusted, or a document that was
read before and is written back as it was given. -/
inductive Draft where
  | raw (v : Value)
  | typed (d : Document)

def Draft.value : Draft → Value
  | .raw v => v
  | .typed d => .object d.given

namespace Compile

/-- Migrates a document that has a well-formed version. -/
def upToDate (migrations : Migration.Registry) (document : Value) : Traced Value :=
  match Migration.Registry.versionOf document with
  | .str version =>
    if Version.isWellFormed version then migrations.migrate document (.str Version.current)
    else pure document
  | _ => pure document

def pagination (target : Target) (layout : Layout) : Option Pagination :=
  match target with
  | .html => none
  | .pdf => some
    { pageBreakBehavior := layout.pageBreakBehavior.get?
      showPageNumbers := layout.showPageNumbers.get?.getD false
      pageNumberPosition := layout.pageNumberPosition.get? }

def globalStyles (colors : ColorStyle) : GlobalStyles :=
  { background := colors.background
    textPrimary := colors.textPrimary
    textSecondary := colors.textSecondary
    accent := colors.primary }

def startText (version : String) (target : String) (preview : Bool) : String :=
  "Compiling DSL " ++ version ++ " for " ++ target ++ " (" ++
    (if preview then "preview" else "resume data") ++ ")"

def resultText (a : Ast) (elapsed : String) : String :=
  let columns := a.page.columns.map fun c => c.id ++ "=" ++ toString c.width ++ "%"
  "Compiled " ++ toString a.sections.length ++ " section(s) into [" ++
    String.intercalate ", " columns ++ "] (" ++ elapsed ++ ")"

/-- Compiles a document that is valid and up to date. -/
def assemble (stamp : Stamp) (target : Target) (resume : Value) (sections : SectionRegistry)
    (d : Document) : Traced Ast := do
  Traced.note .compile (startText d.version target.name resume.isNull)
  let design := d.tokens.resolve
  Traced.tell d.tokens.notices
  Traced.tell (Page.notices d.layout)
  let placed ← Placement.place d design resume sections
  let ast : Ast :=
    { info := ⟨d.version, stamp.generatedAt, target, pagination target d.layout⟩
      page := Page.build d.layout design
      sections := placed
      globalStyles := globalStyles design.colors }
  Traced.tell [Area.compile.record .info (resultText ast stamp.elapsed)]
  pure ast

end Compile

open Compile

/-- Compiles a document of any supported version. A resume that is null gives a
preview, with placeholders for its data. -/
def compile (stamp : Stamp) (document target resume : Value) (migrations : Migration.Registry)
    (sections : SectionRegistry) : Traced Ast :=
  match Target.ofValue? target with
  | none => .fail (.unknownTarget target)
  | some known => do
    let current ← upToDate migrations document
    let valid ← Validation.require (Validation.validate current)
    assemble stamp known resume sections valid

def compileDraft (stamp : Stamp) (draft : Draft) (target resume : Value)
    (migrations : Migration.Registry) (sections : SectionRegistry) : Traced Ast :=
  compile stamp draft.value target resume migrations sections

/-- Compiles with the registries that are built in. -/
def compileBuiltin (stamp : Stamp) (document target resume : Value) : Traced Ast :=
  compile stamp document target resume Migration.builtin .builtin

/-- Validates a document as it is, then compiles a preview of it. -/
def compileChecked (stamp : Stamp) (outcome : Except (List FieldError) Document)
    (target : Value) : Traced Ast := do
  let d ← Validation.require outcome
  compileDraft stamp (.typed d) target .null Migration.builtin .builtin

end Vitae
