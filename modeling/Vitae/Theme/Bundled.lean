import Vitae.Disk.Basic

/-! The themes that come with the program.

Each is a document of the current version without item overrides. They stand in
the directory of bundled themes under their names. -/

namespace Vitae.Theme

/-- A section that is placed in a theme, at its position in the list. -/
structure Slot where
  id : String
  visible : Bool
  column : String

def sectionsOf (slots : List Slot) : Value :=
  .list (slots.zipIdx.map fun (s, order) =>
    .object [("id", .str s.id), ("visible", .bool s.visible), ("order", .int order),
      ("column", .str s.column)])

def texts (fields : Keyed String String) : Fields := fields.map fun f => (.str f.1, .str f.2)

/-- The palette of a theme: primary, secondary, background and surface, the three
colours of text, border and divider. -/
def palette (primary secondary background surface textPrimary textSecondary textAccent line :
    String) : Value :=
  let text := texts [("primary", textPrimary), ("secondary", textSecondary), ("accent", textAccent)]
  .object
    [("primary", .str primary), ("secondary", .str secondary), ("background", .str background),
     ("surface", .str surface), ("text", .object text), ("border", .str line),
     ("divider", .str line)]

/-- The design of a theme. -/
def tokens (heading body fontSize headingStyle : String) (colors : Value)
    (borderRadius shadows : String) (spacing : Keyed String String) : Value :=
  .object
    [("typography", .object
      [("fontFamily", .object (texts [("heading", heading), ("body", body)])),
       ("fontSize", .str fontSize), ("headingStyle", .str headingStyle)]),
     ("colors", .object
      [("colors", colors), ("borderRadius", .str borderRadius), ("shadows", .str shadows)]),
     ("spacing", .object (texts spacing))]

def document (layout : Fields) (tokens sections : Value) : Value :=
  .object
    [("version", .str "1.1.0"), ("layout", .object layout), ("tokens", tokens),
     ("sections", sections), ("itemOverrides", .object [])]

/-- One column, underlined headings with serifs. -/
def classic : Value :=
  document
    [("type", .str "single-column"), ("paperSize", .str "letter"), ("margins", .str "relaxed"),
     ("pageBreakBehavior", .str "avoid-section-break"),
     ("showPageNumbers", .bool true), ("pageNumberPosition", .str "bottom-center")]
    (tokens "merriweather" "source-serif" "base" "underline"
      (palette "#1F2937" "#6B7280" "#FFFFFF" "#FFFFFF" "#111827" "#4B5563" "#1F2937" "#D1D5DB")
      "none" "none"
      [("density", "comfortable"), ("sectionGap", "md"), ("itemGap", "sm"),
       ("contentPadding", "sm")])
    (sectionsOf
      [⟨"summary", true, "full-width"⟩, ⟨"experience", true, "full-width"⟩,
       ⟨"education", true, "full-width"⟩, ⟨"skills", true, "full-width"⟩,
       ⟨"awards", true, "full-width"⟩, ⟨"references", false, "full-width"⟩])

/-- A sidebar on the left, light headings and little space. -/
def minimal : Value :=
  document
    [("type", .str "sidebar-left"), ("paperSize", .str "a4"), ("margins", .str "compact"),
     ("columnDistribution", .str "65-35"), ("pageBreakBehavior", .str "auto"),
     ("showPageNumbers", .bool false), ("pageNumberPosition", .str "bottom-right")]
    (tokens "lato" "lato" "sm" "minimal"
      (palette "#111111" "#777777" "#FFFFFF" "#FAFAFA" "#111111" "#666666" "#111111" "#EEEEEE")
      "sm" "none"
      [("density", "compact"), ("sectionGap", "md"), ("itemGap", "sm"), ("contentPadding", "sm")])
    (sectionsOf
      [⟨"skills", true, "sidebar"⟩, ⟨"languages", true, "sidebar"⟩,
       ⟨"interests", true, "sidebar"⟩, ⟨"summary", true, "main"⟩, ⟨"experience", true, "main"⟩,
       ⟨"education", true, "main"⟩])

/-- Two columns, headings with an accent at their side. -/
def modern : Value :=
  document
    [("type", .str "two-column"), ("paperSize", .str "a4"), ("margins", .str "normal"),
     ("columnDistribution", .str "70-30"), ("pageBreakBehavior", .str "auto"),
     ("showPageNumbers", .bool false), ("pageNumberPosition", .str "bottom-center")]
    (tokens "inter" "inter" "base" "accent-border"
      (palette "#3B82F6" "#64748B" "#FFFFFF" "#F8FAFC" "#0F172A" "#475569" "#3B82F6" "#E2E8F0")
      "md" "subtle"
      [("density", "comfortable"), ("sectionGap", "lg"), ("itemGap", "md"),
       ("contentPadding", "md")])
    (sectionsOf
      [⟨"summary", true, "main"⟩, ⟨"experience", true, "main"⟩, ⟨"projects", true, "main"⟩,
       ⟨"education", true, "main"⟩, ⟨"skills", true, "sidebar"⟩, ⟨"languages", true, "sidebar"⟩,
       ⟨"certifications", true, "sidebar"⟩])

/-- The names of the bundled themes, with their documents. -/
def all : Keyed String Value := [("classic", classic), ("minimal", minimal), ("modern", modern)]

/-- The directories in which the bundled themes stand, from the one that is not named. -/
def bundledPlace : Location := ["resumark", "contexts", "theming", "themes"]

/-- A name that no path can spell, because it holds what parts names. -/
def hidden : String := "/"

/-- A disk with the bundled themes alone, in a directory that only their own root leads
to. -/
def diskWithThemes (working : Location) (workingText : String) : Disk :=
  let bundled := hidden :: bundledPlace
  let start : Disk := ⟨[], working, workingText, bundled⟩
  let directories := (List.range bundled.length).map fun n => bundled.take (n + 1)
  let d := directories.foldl (fun d place => d.put place .directory) start
  all.foldl (fun d theme => d.put (bundled ++ [theme.1 ++ ".yaml"]) (.file (.document theme.2))) d

end Vitae.Theme
