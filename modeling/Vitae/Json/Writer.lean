import Vitae.Text.Quoted
import Vitae.Value.Basic

/-! Writing JSON.

`Form` holds the choices of a written text: on one line or indented, close or with
blanks behind commas and colons, characters outside ASCII as they are or escaped, the
style of numbers and the words for numbers that are not finite. Dates are written as
texts, and so are keys of every kind: a name is the text that the key would have as a
value. -/

namespace Vitae.Json

structure Form where
  /-- Spaces for each level of nesting; none writes all on one line. -/
  indent : Option Nat
  comma : String
  colon : String
  ascii : Bool
  style : Decimal.Style
  infinity : String
  negativeInfinity : String
  nan : String

/-- Pages: numbers in compact style. All of them are finite. -/
def Form.page (indent : Option Nat) : Form :=
  ⟨indent, ",", if indent.isSome then ": " else ":", false, Decimal.compact, "null", "null", "null"⟩

/-- Documents: indented by two, in ASCII alone. -/
def Form.document : Form :=
  ⟨some 2, ",", ": ", true, Decimal.plain, "Infinity", "-Infinity", "NaN"⟩

/-- Files: one line, with blanks behind commas and colons. -/
def Form.file : Form := ⟨none, ", ", ": ", false, Decimal.plain, "Infinity", "-Infinity", "NaN"⟩

/-- The indentation that a value asks for. Null asks for none. -/
def indentOf : Value → Except Misuse (Option Nat)
  | .null => .ok none
  | .bool b => .ok (some b.toNat)
  | .int n => if 0 ≤ n ∧ n < 0x10000000000000000 then .ok (some n.toNat) else .error .tooLarge
  | _ => .error .notANumber

/-- Answers of one line. -/
def Form.line : Form := ⟨none, ",", ":", false, Decimal.plain, "Infinity", "-Infinity", "NaN"⟩

def unitEscape (n : Nat) : String := "\\u" ++ Text.hex 4 n

/-- A character by code units: two for one outside the basic plane. -/
def unicodeEscape (c : Char) : String :=
  if c.toNat < 0x10000 then unitEscape c.toNat
  else
    let rest := c.toNat - 0x10000
    unitEscape (0xd800 + rest / 0x400) ++ unitEscape (0xdc00 + rest % 0x400)

def charText (ascii : Bool) (c : Char) : String :=
  if c = '"' then "\\\""
  else if c = '\\' then "\\\\"
  else if c = '\n' then "\\n"
  else if c = '\r' then "\\r"
  else if c = '\t' then "\\t"
  else if c = '\x08' then "\\b"
  else if c = '\x0c' then "\\f"
  else if c.toNat < 0x20 || (ascii && 0x7f ≤ c.toNat) then unicodeEscape c
  else c.toString

def textOf (ascii : Bool) (s : String) : String :=
  "\"" ++ String.join (s.toList.map (charText ascii)) ++ "\""

def numberText (form : Form) : Binary64 → String
  | .nan => form.nan
  | .infinite true => form.negativeInfinity
  | .infinite false => form.infinity
  | x => x.text form.style "" ""

def nameOf (form : Form) : Key → String
  | .null => "null"
  | .unset => "null"
  | .bool b => if b then "true" else "false"
  | .int n => toString n
  | .float x => numberText form x
  | .str s => s
  | .date d => d.text
  | .moment m => m.text

/-- The break before an item at some depth. -/
def lineBreak (form : Form) (depth : Nat) : String :=
  match form.indent with
  | none => ""
  | some width => "\n" ++ String.ofList (List.replicate (width * depth) ' ')

/-- Items between brackets, which stand alone when there are none. -/
def enclosed (form : Form) (depth : Nat) (left right : String) (items : List String) : String :=
  if items.isEmpty then left ++ right
  else
    left ++ String.intercalate form.comma (items.map (lineBreak form (depth + 1) ++ ·)) ++
      lineBreak form depth ++ right

mutual

def write (form : Form) (depth : Nat) : Value → String
  | .null => "null"
  | .unset => "null"
  | .bool b => if b then "true" else "false"
  | .int n => toString n
  | .float x => numberText form x
  | .str s => textOf form.ascii s
  | .date d => textOf form.ascii d.text
  | .moment m => textOf form.ascii m.text
  | .list items => enclosed form depth "[" "]" (writeItems form (depth + 1) items)
  | .object fields =>
    enclosed form depth "\x7b" "\x7d" (writeFields form (depth + 1) fields)

def writeItems (form : Form) (depth : Nat) : List Value → List String
  | [] => []
  | v :: rest => write form depth v :: writeItems form depth rest

def writeFields (form : Form) (depth : Nat) : List (Key × Value) → List String
  | [] => []
  | (key, v) :: rest =>
    (textOf form.ascii (nameOf form key) ++ form.colon ++ write form depth v) ::
      writeFields form depth rest

end

/-- The text of a value. -/
def text (form : Form) (v : Value) : String := write form 0 v

/-! ### Files -/

mutual

/-- Whether a file can hold a value: dates and unset have no form there. -/
def isStorable : Value → Bool
  | .unset => false
  | .date _ => false
  | .moment _ => false
  | .list items => areStorable items
  | .object fields => areStorableFields fields
  | _ => true

def areStorable : List Value → Bool
  | [] => true
  | v :: rest => isStorable v && areStorable rest

def areStorableFields : List (Key × Value) → Bool
  | [] => true
  | (_, v) :: rest => isStorable v && areStorableFields rest

end

/-- The text of a value in a file. -/
def fileText (v : Value) : Except Misuse String :=
  if isStorable v then .ok (text .file v) else .error .notWritable

end Vitae.Json
