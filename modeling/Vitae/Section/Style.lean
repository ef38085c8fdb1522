import Vitae.Design.Resolution

/-! The styles of a section: its container, its title and its text. They follow
from the design alone, so all sections of a page share them. -/

namespace Vitae

/-- Measures in pixels. The container is transparent and its border has no width. -/
structure ContainerStyle where
  borderColor : Option String
  borderRadius : Nat
  padding : Nat
  marginBottom : Nat
  itemGap : Nat
  shadow : Option String

structure TextStyle where
  fontFamily : String
  fontSize : Nat
  lineHeight : Binary64
  fontWeight : Nat
  transform : String
  color : Option String

structure TitleStyle where
  text : TextStyle
  borderBottom : Option String
  borderLeft : Option String
  paddingLeft : Nat

structure SectionStyles where
  container : ContainerStyle
  title : TitleStyle
  content : TextStyle

namespace DesignStyle

/-- A shadow that is none is left out. -/
def container (d : DesignStyle) : ContainerStyle :=
  { borderColor := d.colors.border
    borderRadius := d.effects.borderRadius
    padding := d.spacing.contentPadding
    marginBottom := d.spacing.sectionGap
    itemGap := d.spacing.itemGap
    shadow := if d.effects.shadow = "none" then none else some d.effects.shadow }

def title (d : DesignStyle) : TitleStyle :=
  let t := d.typography
  { text := ⟨t.headingFont, t.headingSize, t.lineHeight, t.heading.weight, t.heading.transform,
      d.colors.textPrimary⟩
    borderBottom := t.heading.bottom
    borderLeft := t.heading.left
    paddingLeft := t.heading.padding }

def content (d : DesignStyle) : TextStyle :=
  let t := d.typography
  ⟨t.bodyFont, t.baseSize, t.lineHeight, t.bodyWeight, "none", d.colors.textPrimary⟩

def sectionStyles (d : DesignStyle) : SectionStyles := ⟨d.container, d.title, d.content⟩

end DesignStyle

end Vitae
