import Vitae.Design.Resolution

/-! The physical page: its size, its margins and its columns.

The layout type decides which columns there are and in which order. Two-column
types share the width as the document's distribution says, a magazine by shares of
its own, and any other type has the main column alone. Unknown names fall back, so
a page can always be built. -/

namespace Vitae

structure PageColumn where
  id : String
  /-- Percent of the width. -/
  width : Nat
  order : Nat
deriving DecidableEq, Repr

/-- Measures in millimetres. -/
structure Page where
  width : Nat
  height : Nat
  margin : Nat
  columns : List PageColumn
  columnGap : Binary64

namespace Page

def mainId : String := "main"

def sidebarId : String := "sidebar"

/-- How the layout types arrange columns. -/
inductive Arrangement where
  | single
  | mainFirst
  | sidebarFirst
  | magazine
deriving DecidableEq

def arrangements : Table Arrangement where
  label := "layout type"
  entries :=
    [("two-column", .mainFirst), ("sidebar-right", .mainFirst), ("sidebar-left", .sidebarFirst),
     ("magazine", .magazine), ("single-column", .single), ("compact", .single)]
  fallback := .single
  shown := "'single-column'"

/-- Whether an arrangement asks for the document's distribution. -/
def Arrangement.distributes : Arrangement → Bool
  | .mainFirst => true
  | .sidebarFirst => true
  | _ => false

def columnsOf (a : Arrangement) (shares : Design.Shares) : List PageColumn :=
  match a with
  | .single => [⟨mainId, 100, 0⟩]
  | .mainFirst => [⟨mainId, shares.main, 0⟩, ⟨sidebarId, shares.sidebar, 1⟩]
  | .sidebarFirst => [⟨sidebarId, shares.sidebar, 0⟩, ⟨mainId, shares.main, 1⟩]
  | .magazine =>
    [⟨mainId, Design.magazineShares.main, 0⟩, ⟨sidebarId, Design.magazineShares.sidebar, 1⟩]

def arrange (type distribution : Option String) : List PageColumn :=
  columnsOf (arrangements.resolve type) (Design.distributions.resolve distribution)

/-- The records of `arrange`: the distribution is looked up only where it is used. -/
def columnNotices (type distribution : Option String) : List Record :=
  arrangements.notices type ++
    if (arrangements.resolve type).distributes then Design.distributions.notices distribution
    else []

/-- Columns for values of any kind. A layout type is compared, so any value will do;
a distribution is looked up. -/
def arrangeValues (type distribution : Value) : Traced (List PageColumn) := do
  let arrangement ← match type with
    | .null => pure arrangements.fallback
    | .str _ => arrangements.lookup type
    | v =>
      Traced.tell [Table.fallbackRecord arrangements.label v arrangements.shown]
      pure arrangements.fallback
  let shares ←
    if arrangement.distributes then Design.distributions.lookup distribution
    else pure Design.distributions.fallback
  pure (columnsOf arrangement shares)

def build (layout : Layout) (design : DesignStyle) : Page :=
  let paper := Design.paperSizes.resolve layout.paperSize.get?
  { width := paper.width
    height := paper.height
    margin := Design.margins.resolve layout.margins.get?
    columns := arrange layout.type.get? layout.columnDistribution.get?
    columnGap := Binary64.ofRatio false design.spacing.sectionGap Design.pixelsPerGap }

def notices (layout : Layout) : List Record :=
  Design.paperSizes.notices layout.paperSize.get? ++ Design.margins.notices layout.margins.get? ++
    columnNotices layout.type.get? layout.columnDistribution.get?

end Page

end Vitae
