import Vitae.Page
import Vitae.Section.Compiler
import Vitae.Section.Style

/-! Placing the sections of a document on its page.

Hidden sections are left out and the others sorted by their order; sections of
equal order keep the order of the document. Each goes to the physical column of
its logical one, with its payload and the styles of the page. -/

namespace Vitae

structure PlacedSection where
  id : String
  columnId : String
  order : Number
  payload : Payload
  styles : SectionStyles

/-- The physical column of a logical one: a page has no column of full width. -/
def Column.pageId : Column → String
  | .fullWidth => Page.mainId
  | .main => Page.mainId
  | .sidebar => Page.sidebarId

/-- The physical column for a value of any kind, the main one for unknown names. -/
def Column.pageIdFor (v : Value) : Except Misuse String :=
  match v with
  | .str name => .ok ((Column.ofName? name).elim Page.mainId Column.pageId)
  | v => if v.isKey then .ok Page.mainId else .error .notAKey

namespace Placement

/-- Whether a section may stand before another. -/
def before (a b : Section) : Bool := !b.order.lt a.order

/-- The visible sections in the order of the page. -/
def visibleSections (d : Document) : List Section :=
  (d.sections.filter Section.visible).mergeSort before

def placeOne (d : Document) (styles : SectionStyles) (resume : Value) (registry : SectionRegistry)
    (s : Section) : Traced PlacedSection := do
  let payload ← registry.compile s.id resume (.ok (d.overridesFor s.id))
  pure ⟨s.id, s.column.pageId, s.order, payload, styles⟩

/-- Places sections one after the other. -/
def placeAll (place : Section → Traced PlacedSection) : List Section → Traced (List PlacedSection)
  | [] => pure []
  | s :: rest => do
    let placed ← place s
    let later ← placeAll place rest
    pure (placed :: later)

/-- The placed sections of a document; a resume that is null gives placeholders. -/
def place (d : Document) (design : DesignStyle) (resume : Value) (registry : SectionRegistry) :
    Traced (List PlacedSection) :=
  placeAll (placeOne d design.sectionStyles resume registry) (visibleSections d)

end Placement

end Vitae
