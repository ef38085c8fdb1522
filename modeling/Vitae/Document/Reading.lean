import Vitae.Document.Basic
import Vitae.Document.Fault
import Vitae.Version

/-! Reading a document from a value.

Reading reports every fault, in the order in which the fields are declared, and
not only the first: `Checked` collects them. A field of more than one word has two
names. The one in camel case wins, and then a field under the other name is one of
the unknown fields. These are all kept, and their keys have to be texts. -/

namespace Vitae

/-- A value, or all the faults that were found on the way to it. -/
inductive Checked (α : Type) where
  | ok (x : α)
  | bad (faults : List PlacedFault)

namespace Checked
variable {α β : Type}

def fault (f : Fault) : Checked α := .bad [⟨[], f⟩]

/-- Places the faults of a part under its name. -/
def under (step : String) : Checked α → Checked α
  | .ok x => .ok x
  | .bad faults => .bad (faults.map (PlacedFault.under step))

def both (f : Checked (α → β)) (x : Checked α) : Checked β :=
  match f, x with
  | .ok f, .ok x => .ok (f x)
  | .ok _, .bad faults => .bad faults
  | .bad faults, .ok _ => .bad faults
  | .bad faults, .bad more => .bad (faults ++ more)

instance : Applicative Checked where
  pure := ok
  seq f x := both f (x ())

/-- Reads every element of a list. -/
def each (read : α → Checked β) : List α → Checked (List β)
  | [] => .ok []
  | x :: rest => both (both (.ok List.cons) (read x)) (each read rest)

/-- Reads all items, each under its position. -/
def items (read : Value → Checked α) (values : List Value) : Checked (List α) :=
  each (fun (v, position) => (read v).under (toString position)) values.zipIdx

def toExcept : Checked α → Except (List PlacedFault) α
  | .ok x => .ok x
  | .bad faults => .error faults

end Checked

/-! ### Fields -/

/-- The names of a field. -/
structure FieldName where
  camel : String
  snake : String

namespace FieldName

/-- The name of one word is the same in both cases. -/
def word (name : String) : FieldName := ⟨name, name⟩

/-- The name under which a field is given. -/
def used? (n : FieldName) (fields : Fields) : Option String :=
  if Keyed.has fields n.camel then some n.camel
  else if Keyed.has fields n.snake then some n.snake
  else none

def optional {α : Type} (n : FieldName) (fields : Fields) (absent : α) (read : Value → Checked α) :
    Checked α :=
  match n.used? fields with
  | none => .ok absent
  | some name => (read (Value.field fields name)).under name

def required {α : Type} (n : FieldName) (fields : Fields) (read : Value → Checked α) : Checked α :=
  match n.used? fields with
  | none => (Checked.fault .missing).under n.camel
  | some name => (read (Value.field fields name)).under name

end FieldName

/-- A key in a path. A truth value is a number there. -/
def Key.pathText : Key → String
  | .str s => s
  | .bool b => toString b.toInt
  | key => key.literal

def isKnown (names : List FieldName) (fields : Fields) (key : Key) : Bool :=
  names.any fun n => ((n.used? fields).map Key.str).any (· == key)

def readUnknown (field : Key × Value) : Checked (Key × Value) :=
  match field.1 with
  | .str _ => .ok field
  | key => (Checked.fault .notName).under key.pathText

/-- The fields that are read under none of these names. -/
def unknownFields (names : List FieldName) (fields : Fields) : Checked Fields :=
  Checked.each readUnknown (fields.filter fun f => !isKnown names fields f.1)

namespace Reading

def text : Value → Checked (Entry String)
  | .null => .ok .null
  | .str s => .ok (.given s)
  | _ => .fault .notText

/-- The truth value that a word names, in any case of its letters. -/
def flagOfWord? (word : String) : Option Bool :=
  let lower := word.map Char.toLower
  if ["1", "t", "true", "y", "yes", "on"].contains lower then some true
  else if ["0", "f", "false", "n", "no", "off"].contains lower then some false
  else none

/-- The bound of the whole numbers that can name a truth value. -/
def flagBound : Int := 0x8000000000000000

/-- The truth value that a whole number names. One of more than 64 bits is not of the
kind to name one. -/
def flagOfInt (n : Int) : Checked (Entry Bool) :=
  if n < -flagBound ∨ flagBound ≤ n then .fault .notFlag
  else if n = 0 then .ok (.given false)
  else if n = 1 then .ok (.given true)
  else .fault .unclearFlag

/-- The truth value that a binary number names. A fraction names none, and neither does
a number at or beyond the bound on either side. -/
def flagOfFloat (x : Binary64) : Checked (Entry Bool) :=
  match x.toRat? with
  | some q =>
    if q.den ≠ 1 ∨ q = -flagBound then .fault .notFlag else flagOfInt q.num
  | none => .fault .notFlag

def flag : Value → Checked (Entry Bool)
  | .null => .ok .null
  | .bool b => .ok (.given b)
  | .str s =>
    match flagOfWord? s with
    | some b => .ok (.given b)
    | none => .fault .unclearFlag
  | .int n => flagOfInt n
  | .float x => flagOfFloat x
  | _ => .fault .notFlag

/-- Reads a part from the fields of an object. The part's name is for the fault. -/
def part {α : Type} (name : String) (read : Fields → Checked α) : Value → Checked α
  | .object fields => read fields
  | _ => .fault (.notPart name)

/-- Reads a part that may be left out. -/
def optionalPart {α : Type} (n : FieldName) (fields : Fields) (read : Value → Checked α) :
    Checked (Option α) :=
  n.optional fields none fun v => both some (read v)
where
  both {α β : Type} (f : α → β) (x : Checked α) : Checked β := Checked.both (.ok f) x

def optionalText (n : FieldName) (fields : Fields) : Checked (Entry String) :=
  n.optional fields .absent text

end Reading

open Reading FieldName

namespace Layout

def names : List FieldName :=
  [word "type", ⟨"paperSize", "paper_size"⟩, word "margins",
   ⟨"columnDistribution", "column_distribution"⟩, ⟨"pageBreakBehavior", "page_break_behavior"⟩,
   ⟨"showPageNumbers", "show_page_numbers"⟩, ⟨"pageNumberPosition", "page_number_position"⟩]

def ofFields (fields : Fields) : Checked Layout :=
  Layout.mk <$> optionalText (word "type") fields
    <*> optionalText ⟨"paperSize", "paper_size"⟩ fields
    <*> optionalText (word "margins") fields
    <*> optionalText ⟨"columnDistribution", "column_distribution"⟩ fields
    <*> optionalText ⟨"pageBreakBehavior", "page_break_behavior"⟩ fields
    <*> optional ⟨"showPageNumbers", "show_page_numbers"⟩ fields .absent flag
    <*> optionalText ⟨"pageNumberPosition", "page_number_position"⟩ fields
    <*> unknownFields names fields

def read : Value → Checked Layout := part "LayoutConfig" ofFields

end Layout

namespace FontFamily

def names : List FieldName := [word "heading", word "body"]

def ofFields (fields : Fields) : Checked FontFamily :=
  FontFamily.mk <$> optionalText (word "heading") fields
    <*> optionalText (word "body") fields
    <*> unknownFields names fields

def read : Value → Checked FontFamily := part "FontFamilyTokens" ofFields

end FontFamily

namespace Typography

def names : List FieldName :=
  [⟨"fontFamily", "font_family"⟩, ⟨"fontSize", "font_size"⟩, ⟨"headingStyle", "heading_style"⟩]

def ofFields (fields : Fields) : Checked Typography :=
  Typography.mk <$> optionalPart ⟨"fontFamily", "font_family"⟩ fields FontFamily.read
    <*> optionalText ⟨"fontSize", "font_size"⟩ fields
    <*> optionalText ⟨"headingStyle", "heading_style"⟩ fields
    <*> unknownFields names fields

def read : Value → Checked Typography := part "TypographyTokens" ofFields

end Typography

namespace TextColors

def names : List FieldName := [word "primary", word "secondary", word "accent"]

def ofFields (fields : Fields) : Checked TextColors :=
  TextColors.mk <$> optionalText (word "primary") fields
    <*> optionalText (word "secondary") fields
    <*> optionalText (word "accent") fields
    <*> unknownFields names fields

def read : Value → Checked TextColors := part "TextColors" ofFields

end TextColors

namespace Palette

def names : List FieldName :=
  [word "primary", word "secondary", word "background", word "surface", word "text",
   word "border", word "divider"]

def ofFields (fields : Fields) : Checked Palette :=
  Palette.mk <$> optionalText (word "primary") fields
    <*> optionalText (word "secondary") fields
    <*> optionalText (word "background") fields
    <*> optionalText (word "surface") fields
    <*> optionalPart (word "text") fields TextColors.read
    <*> optionalText (word "border") fields
    <*> optionalText (word "divider") fields
    <*> unknownFields names fields

def read : Value → Checked Palette := part "ColorPalette" ofFields

end Palette

namespace Colors

def names : List FieldName :=
  [word "colors", ⟨"borderRadius", "border_radius"⟩, word "shadows"]

def ofFields (fields : Fields) : Checked Colors :=
  Colors.mk <$> optionalPart (word "colors") fields Palette.read
    <*> optionalText ⟨"borderRadius", "border_radius"⟩ fields
    <*> optionalText (word "shadows") fields
    <*> unknownFields names fields

def read : Value → Checked Colors := part "ColorTokens" ofFields

end Colors

namespace Spacing

def names : List FieldName :=
  [word "density", ⟨"sectionGap", "section_gap"⟩, ⟨"itemGap", "item_gap"⟩,
   ⟨"contentPadding", "content_padding"⟩]

def ofFields (fields : Fields) : Checked Spacing :=
  Spacing.mk <$> optionalText (word "density") fields
    <*> optionalText ⟨"sectionGap", "section_gap"⟩ fields
    <*> optionalText ⟨"itemGap", "item_gap"⟩ fields
    <*> optionalText ⟨"contentPadding", "content_padding"⟩ fields
    <*> unknownFields names fields

def read : Value → Checked Spacing := part "SpacingTokens" ofFields

end Spacing

namespace Tokens

def names : List FieldName := [word "typography", word "colors", word "spacing"]

def ofFields (fields : Fields) : Checked Tokens :=
  Tokens.mk <$> optionalPart (word "typography") fields Typography.read
    <*> optionalPart (word "colors") fields Colors.read
    <*> optionalPart (word "spacing") fields Spacing.read
    <*> unknownFields names fields

def read : Value → Checked Tokens := part "DesignTokens" ofFields

end Tokens

/-! ### Sections and the whole -/

namespace Section

def readId : Value → Checked String
  | .str s => if s = "" then .fault .emptyText else .ok s
  | _ => .fault .notText

/-- Only a truth value itself says whether a section is visible. -/
def readVisible : Value → Checked Bool
  | .bool b => .ok b
  | _ => .fault .notFlag

def readOrder (v : Value) : Checked Number :=
  match v.number? with
  | some n => if n.isFinite then .ok n else .fault .notFinite
  | none => .fault .notNumber

def readColumn : Value → Checked Column
  | .str s =>
    match Column.ofName? s with
    | some c => .ok c
    | none => .fault .notColumn
  | _ => .fault .notColumn

def names : List FieldName := [word "id", word "visible", word "order", word "column"]

def ofFields (fields : Fields) : Checked Section :=
  Section.mk <$> required (word "id") fields readId
    <*> required (word "visible") fields readVisible
    <*> required (word "order") fields readOrder
    <*> required (word "column") fields readColumn
    <*> unknownFields names fields

def read : Value → Checked Section := part "SectionConfig" ofFields

end Section

namespace Document

def readVersion : Value → Checked String
  | .str s => if Version.isAdmitted s then .ok s else .fault .notVersion
  | _ => .fault .notText

def readList {α : Type} (read : Value → Checked α) : Value → Checked (List α)
  | .list items => Checked.items read items
  | _ => .fault .notList

/-- The name of an entry, where all names have to be texts. -/
def readName : Key → Checked String
  | .str s => .ok s
  | key => ((Checked.fault .notText).under "[key]").under key.pathText

/-- An entry with its value read under its name. -/
def readEntry {α : Type} (read : Value → Checked α) (entry : Key × Value) : Checked (String × α) :=
  Checked.both (Checked.both (.ok Prod.mk) (readName entry.1))
    ((read entry.2).under entry.1.pathText)

def readObject : Value → Checked Fields
  | .object fields =>
    Checked.both (.ok fun (found : Keyed String Value) => found.map fun e => (.str e.1, e.2))
      (Checked.each (readEntry .ok) fields)
  | _ => .fault .notObject

def readOverrides : Value → Checked (Option (Keyed String (List Fields)))
  | .object fields =>
    Checked.both (.ok some) (Checked.each (readEntry (readList readObject)) fields)
  | _ => .fault .notObject

def names : List FieldName :=
  [word "version", word "layout", word "tokens", word "sections",
   ⟨"itemOverrides", "item_overrides"⟩]

def ofFields (fields : Fields) : Checked Document :=
  Document.mk <$> required (word "version") fields readVersion
    <*> required (word "layout") fields Layout.read
    <*> required (word "tokens") fields Tokens.read
    <*> required (word "sections") fields (readList Section.read)
    <*> optional ⟨"itemOverrides", "item_overrides"⟩ fields none readOverrides
    <*> unknownFields names fields

def read : Value → Checked Document := part "ResumeDsl" ofFields

end Document

end Vitae
