import Vitae.Design.Values

/-! From the names in a document to concrete design values.

`Tokens.resolve` is total and pure; `Tokens.notices` lists the records of the same
lookups, in the order in which a report shows them. -/

namespace Vitae

structure TypographyStyle where
  headingFont : String
  bodyFont : String
  baseSize : Nat
  headingSize : Nat
  lineHeight : Binary64
  heading : Design.HeadingStyle
  bodyWeight : Nat

/-- Colours as the document gives them. -/
structure ColorStyle where
  primary : Option String
  secondary : Option String
  background : Option String
  surface : Option String
  textPrimary : Option String
  textSecondary : Option String
  textAccent : Option String
  border : Option String
  divider : Option String
deriving DecidableEq

/-- Gaps and padding in pixels, after scaling by the density. -/
structure SpacingStyle where
  sectionGap : Nat
  itemGap : Nat
  contentPadding : Nat
  density : Number
deriving DecidableEq

structure EffectStyle where
  borderRadius : Nat
  shadow : String
deriving DecidableEq

/-- A design in which no name is left. -/
structure DesignStyle where
  typography : TypographyStyle
  colors : ColorStyle
  spacing : SpacingStyle
  effects : EffectStyle

namespace Design

def lineHeight : Binary64 := Binary64.ofRatio false 3 2

def bodyWeight : Nat := 400

end Design

open Design

def Typography.resolve (t : Typography) (accent : Option String) : TypographyStyle :=
  let family := t.fontFamily.getD {}
  let size := fontSizes.resolve t.fontSize.get?
  { headingFont := fontFamilies.resolve family.heading.get?
    bodyFont := fontFamilies.resolve family.body.get?
    baseSize := size.base
    headingSize := size.heading
    lineHeight := lineHeight
    heading := (headingStyles.resolve t.headingStyle.get?).accented (accent.getD "")
    bodyWeight := bodyWeight }

def Typography.notices (t : Typography) : List Record :=
  let family := t.fontFamily.getD {}
  fontSizes.notices t.fontSize.get? ++ headingStyles.notices t.headingStyle.get? ++
    fontFamilies.notices family.heading.get? ++ fontFamilies.notices family.body.get?

def Palette.resolve (p : Palette) : ColorStyle :=
  let text := p.text.getD {}
  { primary := p.primary.get?
    secondary := p.secondary.get?
    background := p.background.get?
    surface := p.surface.get?
    textPrimary := text.primary.get?
    textSecondary := text.secondary.get?
    textAccent := text.accent.get?
    border := p.border.get?
    divider := p.divider.get? }

def Spacing.resolve (s : Spacing) : SpacingStyle :=
  let quarters := densities.resolve s.density.get?
  { sectionGap := scaled (sectionGaps.resolve s.sectionGap.get?) quarters
    itemGap := scaled (itemGaps.resolve s.itemGap.get?) quarters
    contentPadding := scaled (contentPaddings.resolve s.contentPadding.get?) quarters
    density := densityFactor quarters }

def Spacing.notices (s : Spacing) : List Record :=
  densities.notices s.density.get? ++ sectionGaps.notices s.sectionGap.get? ++
    itemGaps.notices s.itemGap.get? ++ contentPaddings.notices s.contentPadding.get?

def Colors.effects (c : Colors) : EffectStyle :=
  { borderRadius := borderRadii.resolve c.borderRadius.get?
    shadow := Design.shadows.resolve c.shadows.get? }

def Colors.notices (c : Colors) : List Record :=
  borderRadii.notices c.borderRadius.get? ++ Design.shadows.notices c.shadows.get?

namespace Tokens

def palette (t : Tokens) : Palette := (t.colors.getD {}).colors.getD {}

def resolve (t : Tokens) : DesignStyle :=
  { typography := (t.typography.getD {}).resolve t.palette.primary.get?
    colors := t.palette.resolve
    spacing := (t.spacing.getD {}).resolve
    effects := (t.colors.getD {}).effects }

def notices (t : Tokens) : List Record :=
  (t.typography.getD {}).notices ++ (t.spacing.getD {}).notices ++ (t.colors.getD {}).notices

end Tokens

end Vitae
