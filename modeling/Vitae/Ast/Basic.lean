import Vitae.Section.Placement

/-! The compiled page: everything decided, nothing drawn.

A renderer needs no more than this tree. The html and the pdf target differ only
in the metadata: pdf also carries the settings for printed pages. -/

namespace Vitae

inductive Target where
  | html
  | pdf
deriving DecidableEq, Repr

namespace Target

def name : Target → String
  | .html => "html"
  | .pdf => "pdf"

def all : List Target := [.html, .pdf]

def ofName? (name : String) : Option Target := all.find? fun t => t.name == name

def ofValue? : Value → Option Target
  | .str name => ofName? name
  | _ => none

end Target

/-- Settings for printed pages. -/
structure Pagination where
  pageBreakBehavior : Option String
  showPageNumbers : Bool
  pageNumberPosition : Option String
deriving DecidableEq

structure Meta where
  version : String
  generatedAt : String
  target : Target
  pagination : Option Pagination
deriving DecidableEq

/-- Colours that hold for the whole page. -/
structure GlobalStyles where
  background : Option String
  textPrimary : Option String
  textSecondary : Option String
  accent : Option String
deriving DecidableEq

structure Ast where
  info : Meta
  page : Page
  sections : List PlacedSection
  globalStyles : GlobalStyles

end Vitae
