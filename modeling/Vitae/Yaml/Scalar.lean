import Vitae.Yaml.Fault

/-! The texts of scalars: quoted, plain and in blocks.

Every reader starts at the first character of a scalar and returns its text and the
place behind it. Lines are folded: a single line break within a text is a space, and of
several the first is dropped; blanks around a break do not count. Recursion is on the
count of characters that are left. -/

namespace Vitae.Yaml.Scalar

def found (expectation : String) (c : Char) : String :=
  expectation ++ ", but found " ++ Text.quoted c.toString

/-- The text that stands for a break and the breaks behind it. -/
def folded (first : Char) (more : String) : String :=
  if first != '\n' then first.toString ++ more else if more = "" then " " else more

/-! ### Quoted -/

def quotedFault (start : Mark) (problem : String) (mark : Mark) : Fault :=
  .during .tokens "while scanning a quoted scalar" start problem mark

def escapeFault (start : Mark) (problem : String) (mark : Mark) : Fault :=
  .during .tokens "while scanning a double-quoted scalar" start problem mark

/-- The breaks of empty lines, and the place of the next character that is no blank. No
line in quotes may part documents. -/
def quotedBreaks (start : Mark) : (fuel : Nat) → String → Cursor → Except Fault (String × Cursor)
  | 0, read, c => .ok (read, c)
  | fuel + 1, read, c =>
    if c.isAnySeparator then
      .error (quotedFault start "found unexpected document separator" c.mark)
    else
      let c := c.skip fun x => x == ' ' || x == '\t'
      match c.lineBreak? with
      | some (x, c) => quotedBreaks start fuel (read.push x) c
      | none => .ok (read, c)

/-- Blanks within quotes, and what they stand for. -/
def quotedBlanks (start : Mark) (c : Cursor) : Except Fault (String × Cursor) :=
  let blanks := c.run fun x => x == ' ' || x == '\t'
  let c := c.advance blanks.length
  if c.rest.isEmpty then .error (quotedFault start "found unexpected end of stream" c.mark)
  else
    match c.lineBreak? with
    | some (x, c) => do
      let (more, c) ← quotedBreaks start (c.size + 1) "" c
      .ok (folded x more, c)
    | none => .ok (String.ofList blanks, c)

/-- Characters with an escape of their own. -/
def escapes : List (Char × Char) :=
  [('0', '\x00'), ('a', '\x07'), ('b', '\x08'), ('t', '\t'), ('\t', '\t'), ('n', '\n'),
   ('v', '\x0b'), ('f', '\x0c'), ('r', '\r'), ('e', '\x1b'), (' ', ' '), ('"', '"'),
   ('\\', '\\'), ('/', '/'), ('N', '\x85'), ('_', '\xa0'), ('L', '\u2028'), ('P', '\u2029')]

/-- How many digits the code of a character has, behind each of three letters. -/
def codeWidth? : Char → Option Nat
  | 'x' => some 2
  | 'u' => some 4
  | 'U' => some 8
  | _ => none

/-- The character of a code with so many hexadecimal digits, and the place behind them. The codes
of two halves, one after the other, are no code of the character that the pair would be. -/
def codeAt (start : Mark) (c : Cursor) (width : Nat) : Except Fault (Char × Cursor) := do
  let expectation := "expected escape sequence of " ++ toString width ++ " hexadecimal numbers"
  let more (code ahead : Nat) : Except Fault Nat :=
    match hexValue? (c.peek ahead) with
    | some digit => .ok (16 * code + digit)
    | none => .error (escapeFault start (found expectation (c.peek ahead)) c.mark)
  let code ← (List.range width).foldlM more 0
  if code.isValidChar then .ok (Char.ofNat code, c.advance width) else .error (.noCharacter code)

/-- What an escape stands for; the place is that behind the backslash. -/
def escaped (start : Mark) (c : Cursor) : Except Fault (String × Cursor) :=
  match (escapes.find? fun e => e.1 == c.head), codeWidth? c.head, c.lineBreak? with
  | some (_, x), _, _ => .ok (x.toString, c.next)
  | none, some width, _ => do
    let (x, c) ← codeAt start c.next width
    .ok (x.toString, c)
  | none, none, some (_, c) => quotedBreaks start (c.size + 1) "" c
  | none, none, none =>
    let problem := "found unknown escape character " ++ Text.quoted c.head.toString
    .error (escapeFault start problem c.mark)

/-- Reads on to the closing mark. -/
def quotedTail (mark : Char) (start : Mark) :
    (fuel : Nat) → String → Cursor → Except Fault (String × Cursor)
  | 0, read, c => .ok (read, c)
  | fuel + 1, read, c =>
    let x := c.head
    if x == '\'' && mark == '\'' && c.peek 1 == '\'' then
      quotedTail mark start fuel (read.push x) (c.advance 2)
    else if x == mark then .ok (read, c.next)
    else if x == '\\' && mark == '"' then do
      let (more, c) ← escaped start c.next
      quotedTail mark start fuel (read ++ more) c
    else if isBlankOrEnd x then do
      let (more, c) ← quotedBlanks start c
      quotedTail mark start fuel (read ++ more) c
    else quotedTail mark start fuel (read.push x) c.next

def quoted (c : Cursor) : Except Fault (String × Cursor) :=
  quotedTail c.head c.mark (c.size + 1) "" c.next

/-! ### Plain -/

def isFlowMark (c : Char) : Bool := c == ',' || c == '[' || c == ']' || c == '\x7b' || c == '\x7d'

/-- Whether a plain scalar ends before the next character. -/
def endsPlain (inFlow : Bool) (x next : Char) : Bool :=
  isBlankOrEnd x || (x == ':' && (isBlankOrEnd next || (inFlow && isFlowMark next))) ||
    (inFlow && (x == '?' || isFlowMark x))

/-- The characters up to where a plain scalar has a blank or ends. -/
def plainRun (inFlow : Bool) : List Char → List Char
  | [] => []
  | x :: rest =>
    if endsPlain inFlow x (rest.head?.getD '\x00') then [] else x :: plainRun inFlow rest

/-- The breaks behind a first one, and whether documents are parted there. -/
def plainBreaks : (fuel : Nat) → String → Cursor → String × Cursor × Bool
  | 0, read, c => (read, c, false)
  | fuel + 1, read, c =>
    let c := c.skip (· == ' ')
    match c.lineBreak? with
    | some (x, c) =>
      if c.isAnySeparator then (read.push x, c, true) else plainBreaks fuel (read.push x) c
    | none => (read, c, false)

/-- Blanks behind a part of a plain scalar: what they stand for, the place behind them and
whether a line ended. Where documents are parted they stand for nothing. -/
def plainBlanks (c : Cursor) : String × Cursor × Bool :=
  let blanks := c.run (· == ' ')
  let c := c.advance blanks.length
  match c.lineBreak? with
  | none => (String.ofList blanks, c, false)
  | some (x, c) =>
    if c.isAnySeparator then ("", c, true)
    else
      let (more, c, parted) := plainBreaks (c.size + 1) "" c
      (if parted then "" else folded x more, c, true)

/-- A plain scalar as read. -/
structure Plain where
  text : String
  cursor : Cursor
  /-- Where its last part ends. -/
  stop : Mark
  /-- Whether the place behind it is in another line. -/
  newLine : Bool

/-- Reads on; `blanks` is what stands before the next part. -/
def plainTail (inFlow : Bool) (indent : Int) : (fuel : Nat) → String → Plain → Plain
  | 0, _, p => p
  | fuel + 1, blanks, p =>
    let part := plainRun inFlow p.cursor.rest
    if p.cursor.head == '#' || part.isEmpty then p
    else
      let c := p.cursor.advance part.length
      let (more, behind, newLine) := plainBlanks c
      let p := ⟨p.text ++ blanks ++ String.ofList part, behind, c.mark, newLine⟩
      if more = "" || (!inFlow && decide ((behind.column : Int) < indent)) then p
      else plainTail inFlow indent fuel more p

/-- A plain scalar; outside of flow collections it goes on in lines that are further in
than what is around it. -/
def plain (inFlow : Bool) (indent : Int) (c : Cursor) : Plain :=
  plainTail inFlow (indent + 1) (c.size + 1) "" ⟨"", c, c.mark, false⟩

/-! ### Blocks -/

def blockContext : String := "while scanning a block scalar"

def blockFault (start : Mark) (problem : String) (mark : Mark) : Fault :=
  .during .tokens blockContext start problem mark

/-- What is kept of the breaks at the end of a block. -/
inductive Chomping where
  | strip
  | clip
  | keep
deriving DecidableEq

def chompingOf? : Char → Option Chomping
  | '+' => some .keep
  | '-' => some .strip
  | _ => none

/-- A digit that says how far a block is further in. -/
def increment? (start : Mark) (c : Cursor) : Except Fault (Option Nat × Cursor) :=
  if c.head == '0' then
    .error (blockFault start
      "expected indentation indicator in the range 1-9, but found 0" c.mark)
  else if isDecimal c.head then .ok (some (c.head.toNat - '0'.toNat), c.next)
  else .ok (none, c)

/-- The two indicators of a block, in any order. -/
def indicators (start : Mark) (c : Cursor) : Except Fault (Chomping × Option Nat × Cursor) := do
  let (chomping, increment, c) ←
    match chompingOf? c.head with
    | some chomping => do
      let (increment, c) ← increment? start c.next
      .ok (chomping, increment, c)
    | none => do
      let (increment, c) ← increment? start c
      match increment, chompingOf? c.head with
      | some _, some chomping => .ok (chomping, increment, c.next)
      | _, _ => .ok (.clip, increment, c)
  if isSpaceOrEnd c.head then .ok (chomping, increment, c)
  else
    .error (blockFault start
      (found "expected chomping or indentation indicators" c.head) c.mark)

/-- Passes the rest of a line that holds a comment at most. -/
def restOfLine (context : String) (start : Mark) (c : Cursor) : Except Fault Cursor :=
  let c := c.skip (· == ' ')
  let c := if c.head == '#' then c.skip fun x => !isLineEnd x else c
  if isLineEnd c.head then .ok ((c.lineBreak?.map (·.2)).getD c)
  else
    .error (.during .tokens context start
      (found "expected a comment or a line break" c.head) c.mark)

/-- The empty lines before a block whose indentation is not given: their breaks, and how
far in the text starts. -/
def leadingLines : (fuel : Nat) → String → (deepest : Nat) → Cursor → String × Nat × Cursor
  | 0, read, deepest, c => (read, deepest, c)
  | fuel + 1, read, deepest, c =>
    if c.head == ' ' then leadingLines fuel read (max deepest (c.column + 1)) c.next
    else
      match c.lineBreak? with
      | some (x, c) => leadingLines fuel (read.push x) deepest c
      | none => (read, deepest, c)

/-- Passes the spaces up to a column. -/
def toColumn (indent : Nat) (c : Cursor) : Cursor :=
  c.advance (min (indent - c.column) (c.run (· == ' ')).length)

/-- The empty lines within a block. -/
def emptyLines (indent : Nat) : (fuel : Nat) → String → Cursor → String × Cursor
  | 0, read, c => (read, c)
  | fuel + 1, read, c =>
    let c := toColumn indent c
    match c.lineBreak? with
    | some (x, c) => emptyLines indent fuel (read.push x) c
    | none => (read, c)

def isBlank (c : Char) : Bool := c == ' ' || c == '\t'

/-- A block as read: its text, the break of its last line, the empty lines behind. -/
structure Block where
  text : String
  ending : String
  lines : String
  cursor : Cursor

/-- Reads the lines of a block. In a folded one the break between two lines that do not
start with a blank is a space. -/
def blockLines (fold : Bool) (indent : Nat) : (fuel : Nat) → Block → Block
  | 0, b => b
  | fuel + 1, b =>
    let c := b.cursor
    if c.column != indent || c.rest.isEmpty then b
    else
      let line := c.run fun x => !isLineEnd x
      let behind := c.advance line.length
      let text := b.text ++ b.lines ++ String.ofList line
      let (ending, behind) :=
        match behind.lineBreak? with
        | some (x, c) => (x.toString, c)
        | none => ("", behind)
      let (lines, behind) := emptyLines indent (behind.size + 1) "" behind
      if behind.column == indent && !behind.rest.isEmpty then
        let folds := fold && ending == "\n" && !isBlank c.head && !isBlank behind.head
        let join := if !folds then ending else if lines = "" then " " else ""
        blockLines fold indent fuel ⟨text ++ join, "", lines, behind⟩
      else ⟨text, ending, lines, behind⟩

/-- A block scalar in a collection of this indentation. -/
def block (fold : Bool) (around : Int) (c : Cursor) : Except Fault (String × Cursor) := do
  let start := c.mark
  let (chomping, increment, c) ← indicators start c.next
  let c ← restOfLine blockContext start c
  let least := max 1 (around + 1).toNat
  let (lines, indent, c) :=
    match increment with
    | none =>
      let (lines, deepest, c) := leadingLines (c.size + 1) "" 0 c
      (lines, max least deepest, c)
    | some increment =>
      let indent := least + increment - 1
      let (lines, c) := emptyLines indent (c.size + 1) "" c
      (lines, indent, c)
  let b := blockLines fold indent (c.size + 1) ⟨"", "", lines, c⟩
  let text :=
    match chomping with
    | .strip => b.text
    | .clip => b.text ++ b.ending
    | .keep => b.text ++ b.ending ++ b.lines
  .ok (text, b.cursor)

end Vitae.Yaml.Scalar
