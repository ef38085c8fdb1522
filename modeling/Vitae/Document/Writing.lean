import Vitae.Document.Basic

/-! Writing a document back.

`Document.given` holds the fields that were given, under their names in camel case;
`Document.full` holds all, the absent ones with their defaults. Unknown fields
follow the known ones in both. -/

namespace Vitae

/-- Which fields to write. -/
inductive Detail where
  | given
  | full
deriving DecidableEq

namespace Writing

def entry {α : Type} (d : Detail) (name : String) (write : α → Value) : Entry α → Fields
  | .absent =>
    match d with
    | .given => []
    | .full => [(name, .null)]
  | .null => [(name, .null)]
  | .given x => [(name, write x)]

def leaf (d : Detail) (name : String) (e : Entry String) : Fields := entry d name .str e

/-- A part that is left out is written in full as one without fields. -/
def part {α : Type} (d : Detail) (name : String) (write : α → Fields) (empty : α) :
    Option α → Fields
  | none =>
    match d with
    | .given => []
    | .full => [(name, .object (write empty))]
  | some x => [(name, .object (write x))]

end Writing

open Writing

def Layout.write (d : Detail) (l : Layout) : Fields :=
  leaf d "type" l.type ++ leaf d "paperSize" l.paperSize ++ leaf d "margins" l.margins ++
    leaf d "columnDistribution" l.columnDistribution ++
    leaf d "pageBreakBehavior" l.pageBreakBehavior ++
    entry d "showPageNumbers" .bool l.showPageNumbers ++
    leaf d "pageNumberPosition" l.pageNumberPosition ++ l.extra

def FontFamily.write (d : Detail) (f : FontFamily) : Fields :=
  leaf d "heading" f.heading ++ leaf d "body" f.body ++ f.extra

def Typography.write (d : Detail) (t : Typography) : Fields :=
  part d "fontFamily" (FontFamily.write d) {} t.fontFamily ++ leaf d "fontSize" t.fontSize ++
    leaf d "headingStyle" t.headingStyle ++ t.extra

def TextColors.write (d : Detail) (c : TextColors) : Fields :=
  leaf d "primary" c.primary ++ leaf d "secondary" c.secondary ++ leaf d "accent" c.accent ++
    c.extra

def Palette.write (d : Detail) (p : Palette) : Fields :=
  leaf d "primary" p.primary ++ leaf d "secondary" p.secondary ++
    leaf d "background" p.background ++ leaf d "surface" p.surface ++
    part d "text" (TextColors.write d) {} p.text ++ leaf d "border" p.border ++
    leaf d "divider" p.divider ++ p.extra

def Colors.write (d : Detail) (c : Colors) : Fields :=
  part d "colors" (Palette.write d) {} c.colors ++ leaf d "borderRadius" c.borderRadius ++
    leaf d "shadows" c.shadows ++ c.extra

def Spacing.write (d : Detail) (s : Spacing) : Fields :=
  leaf d "density" s.density ++ leaf d "sectionGap" s.sectionGap ++ leaf d "itemGap" s.itemGap ++
    leaf d "contentPadding" s.contentPadding ++ s.extra

def Tokens.write (d : Detail) (t : Tokens) : Fields :=
  part d "typography" (Typography.write d) {} t.typography ++
    part d "colors" (Colors.write d) {} t.colors ++
    part d "spacing" (Spacing.write d) {} t.spacing ++ t.extra

def Section.write (s : Section) : Fields :=
  let known : Fields :=
    [("id", .str s.id), ("visible", .bool s.visible), ("order", .ofNumber s.order),
     ("column", .str s.column.name)]
  known ++ s.extra

namespace Document

def overridesValue (overrides : Keyed String (List Fields)) : Value :=
  .object (overrides.map fun e => (.str e.1, .list (e.2.map .object)))

def write (d : Detail) (doc : Document) : Fields :=
  let known : Fields :=
    [("version", .str doc.version), ("layout", .object (doc.layout.write d)),
     ("tokens", .object (doc.tokens.write d)),
     ("sections", .list (doc.sections.map fun s => .object s.write))]
  let overrides : Fields :=
    match doc.itemOverrides, d with
    | some overrides, _ => [("itemOverrides", overridesValue overrides)]
    | none, .given => []
    | none, .full => [("itemOverrides", overridesValue [])]
  known ++ overrides ++ doc.extra

def given (doc : Document) : Fields := doc.write .given

def full (doc : Document) : Fields := doc.write .full

end Document

end Vitae
