import Vitae.Misuse

/-! Colours as tags, and the terminal codes they stand for.

A colour is a text of tags such as `<bold><red>`. Each opening tag stands for a code,
a closing tag for a reset and the codes of the tags that stay open. Text outside the
tags stays as it is, and so does a tag behind a backslash. -/

namespace Vitae.Markup

def code (n : Nat) : String := "\x1b[" ++ toString n ++ "m"

def reset : String := code 0

/-! ### Codes of tags -/

/-- Styles by number, in full and as one letter. -/
def styles : List (String × String × Nat) :=
  [("bold", "b", 1), ("dim", "d", 2), ("italic", "i", 3), ("underline", "u", 4),
   ("blink", "l", 5), ("reverse", "v", 7), ("hide", "h", 8), ("strike", "s", 9),
   ("normal", "n", 22)]

/-- The eight colours, in the order of their codes. -/
def hues : List (String × String) :=
  [("black", "k"), ("red", "r"), ("green", "g"), ("yellow", "y"), ("blue", "e"),
   ("magenta", "m"), ("cyan", "c"), ("white", "w")]

/-- The place of a hue, in full or as one letter. -/
def hue? (tag : String) : Option Nat := hues.findIdx? fun h => h.1 == tag || h.2 == tag

/-- The place of a hue that is light or not, counted from `plain` or from `light`. -/
def hueCode? (plain light : Nat) (dash letter tag : String) : Option Nat :=
  match hue? tag.toLower with
  | some n => some (plain + n)
  | none =>
    match hues.findIdx? fun h => dash ++ h.1 == tag.toLower || letter ++ h.2 == tag.toLower with
    | some n => some (light + n)
    | none => none

/-- Lower case is for the foreground. -/
def foreground? (tag : String) : Option Nat :=
  if tag.toLower = tag then hueCode? 30 90 "light-" "l" tag else none

/-- Upper case is for the background. -/
def background? (tag : String) : Option Nat :=
  if tag.toUpper = tag then hueCode? 40 100 "light-" "l" tag else none

/-- A number of one byte in decimal digits, as it is written. -/
def byte? (text : String) : Option String :=
  match text.toNat? with
  | some n => if n ≤ 255 && text.all Char.isDigit then some text else none
  | none => none

def hexDigit? (c : Char) : Option Nat :=
  if c.isDigit then some (c.toNat - '0'.toNat)
  else if 'a' ≤ c ∧ c ≤ 'f' then some (c.toNat - 'a'.toNat + 10)
  else if 'A' ≤ c ∧ c ≤ 'F' then some (c.toNat - 'A'.toNat + 10)
  else none

/-- Three bytes in hexadecimal; three digits stand for six. -/
def hexBytes? (text : String) : Option (List String) :=
  match text.toList with
  | '#' :: digits =>
    let pairs (ds : List Nat) : Option (List String) :=
      match ds with
      | [a, b, c] => some ([(a, b), (c, a), (b, c)].map fun p => toString (p.1 * 16 + p.2))
      | [a, b, c, d, e, f] =>
        some ([(a, b), (c, d), (e, f)].map fun p => toString (p.1 * 16 + p.2))
      | _ => none
    (digits.mapM hexDigit?).bind pairs
  | _ => none

/-- A colour of the larger palettes: a number, three hexadecimal bytes, or three
decimal ones. -/
def extended? (base color : String) : Option String :=
  match byte? color with
  | some n => some ("\x1b[" ++ base ++ ";5;" ++ n ++ "m")
  | none =>
    let bytes :=
      match hexBytes? color with
      | some bytes => some bytes
      | none =>
        let parts := color.splitOn ","
        if parts.length = 3 then parts.mapM byte? else none
    bytes.map fun bytes => "\x1b[" ++ base ++ ";2;" ++ String.intercalate ";" bytes ++ "m"

/-- The code of a colour that is named for one ground. -/
def grounded? (ground color : String) : Option String :=
  if ground = "fg" then
    match foreground? color.toLower with
    | some n => some (code n)
    | none => extended? "38" color
  else
    match background? color.toUpper with
    | some n => some (code n)
    | none => extended? "48" color

/-- The code of an opening tag. -/
def tagCode? (tag : String) : Option String :=
  match styles.find? fun s => s.1 == tag || s.2.1 == tag with
  | some style => some (code style.2.2)
  | none =>
    match foreground? tag, background? tag with
    | some n, _ => some (code n)
    | none, some n => some (code n)
    | none, none =>
      match tag.toList with
      | ['f', 'g'] | ['b', 'g'] => none
      | 'f' :: 'g' :: ' ' :: color => grounded? "fg" (String.ofList color)
      | 'b' :: 'g' :: ' ' :: color => grounded? "bg" (String.ofList color)
      | _ => none

/-! ### Texts with tags -/

/-- A piece of a text behind an opening angle bracket: a tag and what follows it, if
the piece starts with one. -/
structure Mark where
  closing : Bool
  tag : String
  rest : String

def isBlank (c : Char) : Bool := c.isWhitespace || c == '\x0b' || c == '\x0c'

/-- The text of a tag has no blanks, except one after the name of a ground. -/
def isTag (tag : List Char) : Bool :=
  let bare (cs : List Char) : Bool := !cs.any isBlank
  match tag with
  | 'f' :: 'g' :: c :: color => if isBlank c then bare color else bare tag
  | 'b' :: 'g' :: c :: color => if isBlank c then bare color else bare tag
  | _ => bare tag

def mark? (piece : String) : Option Mark :=
  let cs := piece.toList
  let (closing, body) :=
    match cs with
    | '/' :: body => (true, body)
    | body => (false, body)
  let tag := body.takeWhile (· != '>')
  match body.drop tag.length with
  | _ :: rest => if isTag tag then some ⟨closing, String.ofList tag, String.ofList rest⟩ else none
  | [] => none

/-- The codes so far, and the tags that are open, innermost first. -/
structure Expansion where
  text : String
  opened : List (String × String)

def Mark.markup (m : Mark) : String := "<" ++ (if m.closing then "/" else "") ++ m.tag ++ ">"

def Expansion.leave (e : Expansion) (m : Mark) : Except TagFault Expansion :=
  match e.opened with
  | (tag, _) :: outer =>
    if m.tag = "" || m.tag = tag then
      .ok ⟨e.text ++ reset ++ String.join (outer.reverse.map (·.2)) ++ m.rest, outer⟩
    else if outer.any fun o => o.1 == m.tag then .error (.crossed m.markup)
    else .error (.unopened m.markup)
  | [] => .error (.unopened m.markup)

def Expansion.enter (e : Expansion) (m : Mark) : Except TagFault Expansion :=
  if m.tag = "level" || m.tag = "lvl" then .error .circular
  else
    match tagCode? m.tag with
    | some codes => .ok ⟨e.text ++ codes ++ m.rest, (m.tag, codes) :: e.opened⟩
    | none => .error (.unknown m.markup)

/-- Reads on behind an opening angle bracket. -/
def Expansion.step (e : Expansion) (piece : String) : Except TagFault Expansion :=
  match mark? piece with
  | none => .ok { e with text := e.text ++ "<" ++ piece }
  | some m =>
    if e.text.endsWith "\\" then
      .ok { e with text := (e.text.dropEnd 1).toString ++ m.markup ++ m.rest }
    else if m.closing then e.leave m
    else e.enter m

/-- The codes that a colour stands for. -/
def expand (color : String) : Except TagFault String :=
  match color.trimAscii.toString.splitOn "<" with
  | [] => .ok ""
  | first :: pieces => do
    let done ← pieces.foldlM Expansion.step ⟨first, []⟩
    .ok done.text

end Vitae.Markup
