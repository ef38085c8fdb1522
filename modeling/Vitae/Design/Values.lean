import Vitae.Design.Table

/-! The named values of a design: fonts, sizes, spacing, paper and columns. -/

namespace Vitae.Design

def fontFamilies : Table String where
  label := "font family"
  entries :=
    [("inter", "Inter, system-ui, sans-serif"),
     ("merriweather", "Merriweather, Georgia, serif"),
     ("roboto", "Roboto, Arial, sans-serif"),
     ("open-sans", "Open Sans, Arial, sans-serif"),
     ("playfair-display", "Playfair Display, Georgia, serif"),
     ("source-serif", "Source Serif Pro, Georgia, serif"),
     ("lato", "Lato, Arial, sans-serif"),
     ("poppins", "Poppins, Arial, sans-serif"),
     ("system", "system-ui, -apple-system, Segoe UI, sans-serif")]
  fallback := "Inter, system-ui, sans-serif"
  shown := "'Inter, system-ui, sans-serif'"

/-- Sizes in pixels. -/
structure FontSize where
  base : Nat
  heading : Nat
deriving DecidableEq, Repr

def fontSizes : Table FontSize where
  label := "font size"
  entries := [("sm", ⟨14, 18⟩), ("base", ⟨16, 22⟩), ("lg", ⟨18, 26⟩)]
  fallback := ⟨16, 22⟩
  shown := "mappingproxy(\x7b'base': 16, 'heading': 22\x7d)"

/-- How headings are set. A border is given without its colour, which follows it. -/
structure HeadingStyle where
  weight : Nat
  transform : String
  bottom : Option String
  left : Option String
  padding : Nat
deriving DecidableEq, Repr

def headingStyles : Table HeadingStyle where
  label := "heading style"
  entries :=
    [("bold", ⟨700, "none", none, none, 0⟩),
     ("underline", ⟨600, "none", some "2px solid ", none, 0⟩),
     ("uppercase", ⟨600, "uppercase", none, none, 0⟩),
     ("accent-border", ⟨700, "none", none, some "4px solid ", 12⟩),
     ("minimal", ⟨500, "none", none, none, 0⟩)]
  fallback := ⟨700, "none", none, none, 0⟩
  shown := "mappingproxy(\x7b'font_weight': 700, 'text_transform': 'none', 'border_bottom': None, " ++
    "'border_left': None, 'padding_left': 0\x7d)"

/-- The heading style with the accent colour in its borders. -/
def HeadingStyle.accented (h : HeadingStyle) (accent : String) : HeadingStyle :=
  { h with bottom := h.bottom.map (· ++ accent), left := h.left.map (· ++ accent) }

/-! ### Spacing -/

def spacingEntries : Keyed String Nat := [("xs", 8), ("sm", 12), ("md", 16), ("lg", 24), ("xl", 32)]

def sectionGaps : Table Nat := ⟨"section gap", spacingEntries, 24, "24"⟩

def itemGaps : Table Nat := ⟨"item gap", spacingEntries, 16, "16"⟩

def contentPaddings : Table Nat := ⟨"content padding", spacingEntries, 16, "16"⟩

/-- Densities as counts of quarters by which every spacing is multiplied. -/
def densities : Table Nat where
  label := "density"
  entries := [("compact", 3), ("comfortable", 4), ("spacious", 5), ("relaxed", 6)]
  fallback := 4
  shown := "1"

/-- Pixels times a count of quarters, rounded to the nearest pixel, a half up. -/
def scaled (pixels quarters : Nat) : Nat := (2 * pixels * quarters + 4) / 8

/-- The factor of a density. The whole one is a whole number. -/
def densityFactor (quarters : Nat) : Number :=
  if quarters = 4 then .int 1 else .float (Binary64.ofRatio false quarters 4)

def borderRadii : Table Nat where
  label := "border radius"
  entries := [("none", 0), ("sm", 4), ("md", 8), ("lg", 12), ("full", 9999)]
  fallback := 8
  shown := "8"

def shadows : Table String where
  label := "shadow"
  entries :=
    [("none", "none"),
     ("subtle", "0 1px 2px rgba(0, 0, 0, 0.05)"),
     ("medium", "0 4px 6px -1px rgba(0, 0, 0, 0.1)"),
     ("strong", "0 10px 15px -3px rgba(0, 0, 0, 0.1)")]
  fallback := "none"
  shown := "'none'"

/-! ### The page -/

/-- A size in millimetres. -/
structure Paper where
  width : Nat
  height : Nat
deriving DecidableEq, Repr

def paperSizes : Table Paper where
  label := "paper size"
  entries := [("a4", ⟨210, 297⟩), ("letter", ⟨216, 279⟩), ("legal", ⟨216, 356⟩)]
  fallback := ⟨210, 297⟩
  shown := "'a4'"

/-- Margins in millimetres, the same on all sides. -/
def margins : Table Nat where
  label := "margin size"
  entries := [("compact", 10), ("normal", 15), ("relaxed", 20), ("wide", 25)]
  fallback := 15
  shown := "'normal'"

/-- Shares of the page's width, in percent. -/
structure Shares where
  main : Nat
  sidebar : Nat
deriving DecidableEq, Repr

def distributions : Table Shares where
  label := "column distribution"
  entries :=
    [("50-50", ⟨50, 50⟩), ("60-40", ⟨60, 40⟩), ("65-35", ⟨65, 35⟩), ("70-30", ⟨70, 30⟩)]
  fallback := ⟨70, 30⟩
  shown := "(70, 30)"

/-- The shares of a magazine, whatever the document asks for. -/
def magazineShares : Shares := ⟨60, 40⟩

/-- Pixels of section gap for a millimetre of column gap. -/
def pixelsPerGap : Nat := 4

end Vitae.Design
