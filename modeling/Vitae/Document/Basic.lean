import Vitae.Value.Basic

/-! The typed document: how a resume is to look.

A document says which layout it wants, names values for its design, and lists
where its sections go. Nearly everything may be left out, and a field that is left
out differs from one that is null (`Entry`), so that a document can be written as
it was given. Every part keeps the fields it does not know in `extra`. -/

namespace Vitae

/-- A field that may be absent or null. -/
inductive Entry (α : Type) where
  | absent
  | null
  | given (x : α)
deriving DecidableEq, Inhabited

namespace Entry
variable {α : Type}

/-- The value of a field, absent and null being one. -/
def get? : Entry α → Option α
  | .given x => some x
  | _ => none

end Entry

structure Layout where
  type : Entry String := .absent
  paperSize : Entry String := .absent
  margins : Entry String := .absent
  columnDistribution : Entry String := .absent
  pageBreakBehavior : Entry String := .absent
  showPageNumbers : Entry Bool := .absent
  pageNumberPosition : Entry String := .absent
  extra : Fields := []

/-! ### Design -/

structure FontFamily where
  heading : Entry String := .absent
  body : Entry String := .absent
  extra : Fields := []

structure Typography where
  fontFamily : Option FontFamily := none
  fontSize : Entry String := .absent
  headingStyle : Entry String := .absent
  extra : Fields := []

structure TextColors where
  primary : Entry String := .absent
  secondary : Entry String := .absent
  accent : Entry String := .absent
  extra : Fields := []

/-- Colour values. They reach the page as they are. -/
structure Palette where
  primary : Entry String := .absent
  secondary : Entry String := .absent
  background : Entry String := .absent
  surface : Entry String := .absent
  text : Option TextColors := none
  border : Entry String := .absent
  divider : Entry String := .absent
  extra : Fields := []

structure Colors where
  colors : Option Palette := none
  borderRadius : Entry String := .absent
  shadows : Entry String := .absent
  extra : Fields := []

structure Spacing where
  density : Entry String := .absent
  sectionGap : Entry String := .absent
  itemGap : Entry String := .absent
  contentPadding : Entry String := .absent
  extra : Fields := []

structure Tokens where
  typography : Option Typography := none
  colors : Option Colors := none
  spacing : Option Spacing := none
  extra : Fields := []

/-! ### Sections -/

/-- The logical column of a section. -/
inductive Column where
  | fullWidth
  | main
  | sidebar
deriving DecidableEq, Repr

namespace Column

def name : Column → String
  | .fullWidth => "full-width"
  | .main => "main"
  | .sidebar => "sidebar"

def ofName? (name : String) : Option Column :=
  [Column.fullWidth, .main, .sidebar].find? fun c => c.name == name

end Column

/-- Where a section goes. Orders need not be consecutive. -/
structure Section where
  id : String
  visible : Bool
  order : Number
  column : Column
  extra : Fields := []

structure Document where
  version : String
  layout : Layout
  tokens : Tokens
  sections : List Section
  itemOverrides : Option (Keyed String (List Fields)) := none
  extra : Fields := []

namespace Document

/-- The overrides for the items of a section. -/
def overridesFor (d : Document) (id : String) : List Fields :=
  (Keyed.get? (d.itemOverrides.getD []) id).getD []

end Document

end Vitae
