import Vitae.Ast.Basic
import Vitae.Json.Writer

/-! The wire form of a compiled page.

Fields have names in camel case that say their units. What a page shows of a resume
is written as `Value.wired` says, so a page can fail to have a form: the first value
without a place, section by section, ends the work. -/

namespace Vitae

def Value.ofNat (n : Nat) : Value := .int n

def Pagination.toValue (p : Pagination) : Value :=
  .object
    [("pageBreakBehavior", .ofText? p.pageBreakBehavior),
     ("showPageNumbers", .bool p.showPageNumbers),
     ("pageNumberPosition", .ofText? p.pageNumberPosition)]

def Meta.toValue (m : Meta) : Value :=
  .object
    [("version", .str m.version), ("generatedAt", .str m.generatedAt),
     ("target", .str m.target.name),
     ("pagination", m.pagination.elim .null Pagination.toValue)]

def PageColumn.toValue (c : PageColumn) : Value :=
  .object [("id", .str c.id), ("widthPercentage", .ofNat c.width), ("order", .ofNat c.order)]

def Page.toValue (p : Page) : Value :=
  .object
    [("widthMm", .ofNat p.width), ("heightMm", .ofNat p.height),
     ("marginTopMm", .ofNat p.margin), ("marginBottomMm", .ofNat p.margin),
     ("marginLeftMm", .ofNat p.margin), ("marginRightMm", .ofNat p.margin),
     ("columns", .list (p.columns.map PageColumn.toValue)), ("columnGapMm", .float p.columnGap)]

def ContainerStyle.toValue (c : ContainerStyle) : Value :=
  .object
    [("backgroundColor", .str "transparent"), ("borderColor", .ofText? c.borderColor),
     ("borderWidthPx", .int 0), ("borderRadiusPx", .ofNat c.borderRadius),
     ("paddingPx", .ofNat c.padding), ("marginBottomPx", .ofNat c.marginBottom),
     ("itemGapPx", .ofNat c.itemGap), ("shadow", .ofText? c.shadow)]

def TextStyle.toFields (t : TextStyle) : Fields :=
  [("fontFamily", .str t.fontFamily), ("fontSizePx", .ofNat t.fontSize),
   ("lineHeight", .float t.lineHeight), ("fontWeight", .ofNat t.fontWeight),
   ("textTransform", .str t.transform), ("textDecoration", .str "none"),
   ("color", .ofText? t.color)]

def TitleStyle.toValue (t : TitleStyle) : Value :=
  let border : Fields :=
    [("borderBottom", .ofText? t.borderBottom), ("borderLeft", .ofText? t.borderLeft),
     ("paddingLeftPx", .ofNat t.paddingLeft)]
  .object (t.text.toFields ++ border)

def SectionStyles.toValue (s : SectionStyles) : Value :=
  .object
    [("container", s.container.toValue), ("title", s.title.toValue),
     ("content", .object s.content.toFields)]

def PlacedSection.toValue (wire : Wire) (s : PlacedSection) : Except WireFault Value := do
  let data ← Value.wiredFields wire Wire.room s.payload.toFields
  .ok (.object
    [("sectionId", .str s.id), ("columnId", .str s.columnId), ("order", .ofNumber s.order),
     ("data", .object data), ("styles", s.styles.toValue)])

def GlobalStyles.toValue (g : GlobalStyles) : Value :=
  .object
    [("background", .ofText? g.background), ("textPrimary", .ofText? g.textPrimary),
     ("textSecondary", .ofText? g.textSecondary), ("accent", .ofText? g.accent)]

def Ast.toValue (wire : Wire) (a : Ast) : Except Failure Value := do
  let sections ← (a.sections.mapM (PlacedSection.toValue wire)).mapError (Failure.unwritable wire)
  .ok (.object
    [("meta", a.info.toValue), ("page", a.page.toValue), ("sections", .list sections),
     ("globalStyles", a.globalStyles.toValue)])

/-- The text of a compiled page, on one line or indented. -/
def Ast.text (a : Ast) (indent : Option Nat) : Except Failure String := do
  .ok (Json.text (.page indent) (← a.toValue .text))

end Vitae
