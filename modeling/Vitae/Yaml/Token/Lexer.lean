import Vitae.Keyed
import Vitae.Yaml.Property
import Vitae.Yaml.Token

/-! Cutting a text into tokens.

Whether a scalar is a key shows only at the colon behind it. Until then it is a possible
key, one for each level of flow collections, and the tokens from it on are not settled
(`Lexer.settled`). A key has to end in the line it starts in, within 1024 characters.

`Token.lex` reads a whole text. Where it finds a fault it returns the tokens that were
settled before, because what reads the tokens may find another fault in those. -/

namespace Vitae.Yaml

/-- A token that is a key if a colon follows. -/
structure PossibleKey where
  /-- How many tokens stand before it. -/
  number : Nat
  /-- Whether it stands where a block mapping needs a key. -/
  required : Bool
  mark : Mark

structure Lexer where
  cursor : Cursor
  /-- The tokens so far, the latest first, and their count. -/
  tokens : List Token
  count : Nat
  /-- How many flow collections are open. -/
  level : Nat
  /-- The columns of the open block collections, the innermost first. -/
  indent : Int
  indents : List Int
  keyAllowed : Bool
  keys : Keyed Nat PossibleKey
  finished : Bool

namespace Lexer

def ofText (text : String) : Lexer :=
  ⟨.ofText text, [], 0, 0, -1, [], true, [], false⟩

def inFlow (l : Lexer) : Bool := l.level != 0

def mark (l : Lexer) : Mark := l.cursor.mark

/-! ### Tokens -/

def emit (l : Lexer) (kind : Token.Kind) (start stop : Mark) : Lexer :=
  { l with tokens := ⟨kind, start, stop⟩ :: l.tokens, count := l.count + 1 }

/-- A token that takes no characters. -/
def emitHere (l : Lexer) (kind : Token.Kind) : Lexer := l.emit kind l.mark l.mark

/-- A token that is the next `width` characters. -/
def emitChars (l : Lexer) (kind : Token.Kind) (width : Nat) : Lexer :=
  let behind := l.cursor.advance width
  { l.emit kind l.mark behind.mark with cursor := behind }

/-- A token that was read up to a place. -/
def emitTo (l : Lexer) (kind : Token.Kind) (behind : Cursor) : Lexer :=
  { l.emit kind l.mark behind.mark with cursor := behind }

/-- Puts a token in front of the one that has `number` tokens before it. -/
def insertBefore (l : Lexer) (number : Nat) (kind : Token.Kind) (mark : Mark) : Lexer :=
  let later := l.count - number
  { l with
    tokens := l.tokens.take later ++ ⟨kind, mark, mark⟩ :: l.tokens.drop later
    count := l.count + 1 }

/-! ### Possible keys -/

def missingValue (key : PossibleKey) (mark : Mark) : Fault :=
  .during .tokens "while scanning a simple key" key.mark "could not find expected ':'" mark

def longestKey : Nat := 1024

def isStale (l : Lexer) (key : PossibleKey) : Bool :=
  key.mark.line != l.mark.line || decide (longestKey < l.mark.index - key.mark.index)

/-- Drops the keys that can no longer be ones. -/
def dropStale (l : Lexer) : Except Fault Lexer :=
  match l.keys.find? fun k => l.isStale k.2 && k.2.required with
  | some (_, key) => .error (missingValue key l.mark)
  | none => .ok { l with keys := l.keys.filter fun k => !l.isStale k.2 }

/-- Drops the key of this level. -/
def dropKey (l : Lexer) : Except Fault Lexer :=
  match Keyed.get? l.keys l.level with
  | some key =>
    if key.required then .error (missingValue key l.mark)
    else .ok { l with keys := Keyed.erase l.keys l.level }
  | none => .ok l

/-- Takes the next token for a possible key. -/
def saveKey (l : Lexer) : Except Fault Lexer :=
  if l.keyAllowed then do
    let required := !l.inFlow && l.indent == l.cursor.column
    let key := ⟨l.count, required, l.mark⟩
    let l ← l.dropKey
    .ok { l with keys := Keyed.set l.keys l.level key }
  else .ok l

/-- How many tokens come for certain as they are. -/
def settled (l : Lexer) : Nat := l.keys.foldl (fun least k => min least k.2.number) l.count

/-! ### Indentation -/

/-- Closes the block collections that are further in than a column. -/
def unwind (column : Int) : List Int → Lexer → Lexer
  | [], l => l
  | outer :: rest, l =>
    if column < l.indent then
      unwind column rest { l.emitHere .blockEnd with indent := outer, indents := rest }
    else l

def unwindTo (l : Lexer) (column : Int) : Lexer :=
  if l.inFlow then l else unwind column l.indents l

/-- Opens a block collection at a column, if that is further in. -/
def isDeeper (l : Lexer) (column : Nat) : Bool := decide (l.indent < column)

def indentTo (l : Lexer) (column : Nat) : Lexer :=
  { l with indents := l.indent :: l.indents, indent := column }

/-- Opens a block collection here, if this is further in than what is around. -/
def openBlock (l : Lexer) (kind : Token.Kind) : Lexer :=
  if l.isDeeper l.cursor.column then (l.indentTo l.cursor.column).emitHere kind else l

/-! ### One token -/

/-- Passes blanks, comments and line breaks. -/
def toNext : (fuel : Nat) → Lexer → Lexer
  | 0, l => l
  | fuel + 1, l =>
    let c := l.cursor.skip (· == ' ')
    let c := if c.head == '#' then c.skip fun x => !isLineEnd x else c
    match c.lineBreak? with
    | some (_, c) =>
      toNext fuel { l with cursor := c, keyAllowed := l.keyAllowed || !l.inFlow }
    | none => { l with cursor := c }

/-- Passes a byte order mark at the start of the text. -/
def passMark (l : Lexer) : Lexer :=
  if l.mark.index == 0 && l.cursor.head == '\ufeff' then { l with cursor := l.cursor.next } else l

def refuse (l : Lexer) (problem : String) : Except Fault Lexer :=
  .error (.simple .tokens problem l.mark)

def finish (l : Lexer) : Except Fault Lexer := do
  let l ← (l.unwindTo (-1)).dropKey
  .ok { l.emitHere .streamEnd with keyAllowed := false, keys := [], finished := true }

def directive (l : Lexer) : Except Fault Lexer := do
  let l ← (l.unwindTo (-1)).dropKey
  let (d, behind) ← Property.directive l.cursor
  let l := l.emit (.directive d.name d.version d.shorthand) l.mark d.stop
  .ok { l with cursor := behind, keyAllowed := false }

def separator (l : Lexer) (kind : Token.Kind) : Except Fault Lexer := do
  let l ← (l.unwindTo (-1)).dropKey
  .ok ({ l with keyAllowed := false }.emitChars kind 3)

def openFlow (l : Lexer) (kind : Token.Kind) : Except Fault Lexer := do
  let l ← l.saveKey
  .ok ({ l with level := l.level + 1, keyAllowed := true }.emitChars kind 1)

def closeFlow (l : Lexer) (kind : Token.Kind) : Except Fault Lexer := do
  let l ← l.dropKey
  .ok ({ l with level := l.level - 1, keyAllowed := false }.emitChars kind 1)

def flowEntry (l : Lexer) : Except Fault Lexer := do
  let l ← { l with keyAllowed := true }.dropKey
  .ok (l.emitChars .flowEntry 1)

def blockEntry (l : Lexer) : Except Fault Lexer := do
  if !l.inFlow && !l.keyAllowed then l.refuse "sequence entries are not allowed here"
  else
    let l := if l.inFlow then l else l.openBlock .blockSequenceStart
    let l ← { l with keyAllowed := true }.dropKey
    .ok (l.emitChars .blockEntry 1)

/-- A key that is marked as one. -/
def key (l : Lexer) : Except Fault Lexer := do
  if !l.inFlow && !l.keyAllowed then l.refuse "mapping keys are not allowed here"
  else
    let l := if l.inFlow then l else l.openBlock .blockMappingStart
    let l ← { l with keyAllowed := !l.inFlow }.dropKey
    .ok (l.emitChars .key 1)

/-- The colon behind a key, which makes the possible key of this level one. -/
def value (l : Lexer) : Except Fault Lexer := do
  match Keyed.get? l.keys l.level with
  | some key =>
    let l := { l with keys := Keyed.erase l.keys l.level, keyAllowed := false }
    let l := l.insertBefore key.number .key key.mark
    let l :=
      if !l.inFlow && l.isDeeper key.mark.column then
        (l.indentTo key.mark.column).insertBefore key.number .blockMappingStart key.mark
      else l
    .ok (l.emitChars .value 1)
  | none =>
    if !l.inFlow && !l.keyAllowed then l.refuse "mapping values are not allowed here"
    else
      let l := if l.inFlow then l else l.openBlock .blockMappingStart
      let l ← { l with keyAllowed := !l.inFlow }.dropKey
      .ok (l.emitChars .value 1)

def reference (l : Lexer) : Except Fault Lexer := do
  let l ← l.saveKey
  let (name, behind) ← Property.name "while scanning an alias" l.cursor
  .ok ({ l with keyAllowed := false }.emitTo (.reference name) behind)

def anchor (l : Lexer) : Except Fault Lexer := do
  let l ← l.saveKey
  let (name, behind) ← Property.name "while scanning an anchor" l.cursor
  .ok ({ l with keyAllowed := false }.emitTo (.anchor name) behind)

def tag (l : Lexer) : Except Fault Lexer := do
  let l ← l.saveKey
  let ((handle, suffix), behind) ← Property.tag l.cursor
  .ok ({ l with keyAllowed := false }.emitTo (.tag handle suffix) behind)

def block (l : Lexer) (fold : Bool) : Except Fault Lexer := do
  let l ← { l with keyAllowed := true }.dropKey
  let (text, behind) ← Scalar.block fold l.indent l.cursor
  .ok (l.emitTo (.scalar text false) behind)

def quoted (l : Lexer) : Except Fault Lexer := do
  let l ← l.saveKey
  let (text, behind) ← Scalar.quoted l.cursor
  .ok ({ l with keyAllowed := false }.emitTo (.scalar text false) behind)

def plain (l : Lexer) : Except Fault Lexer := do
  let l ← l.saveKey
  let p := Scalar.plain l.inFlow l.indent l.cursor
  let l := l.emit (.scalar p.text true) l.mark p.stop
  .ok { l with cursor := p.cursor, keyAllowed := p.newLine }

/-- Characters that start no plain scalar. -/
def indicators : List Char := "-?:,[]\x7b\x7d#&*!|>'\"%@\x60".toList

def startsPlain (l : Lexer) : Bool :=
  let x := l.cursor.head
  !(isBlankOrEnd x || indicators.contains x) ||
    (!isBlankOrEnd (l.cursor.peek 1) && (x == '-' || (!l.inFlow && (x == '?' || x == ':'))))

/-- Reads the token that starts here. -/
def atToken (l : Lexer) : Except Fault Lexer :=
  let c := l.cursor
  let x := c.head
  let alone := isBlankOrEnd (c.peek 1)
  if c.rest.isEmpty then l.finish
  else if x == '%' && c.column == 0 then l.directive
  else if c.column == 0 && c.isSeparator '-' then l.separator .documentStart
  else if c.column == 0 && c.isSeparator '.' then l.separator .documentEnd
  else if x == '[' then l.openFlow .flowSequenceStart
  else if x == '\x7b' then l.openFlow .flowMappingStart
  else if x == ']' then l.closeFlow .flowSequenceEnd
  else if x == '\x7d' then l.closeFlow .flowMappingEnd
  else if x == ',' then l.flowEntry
  else if x == '-' && alone then l.blockEntry
  else if x == '?' && (l.inFlow || alone) then l.key
  else if x == ':' && (l.inFlow || alone) then l.value
  else if x == '*' then l.reference
  else if x == '&' then l.anchor
  else if x == '!' then l.tag
  else if (x == '|' || x == '>') && !l.inFlow then l.block (x == '>')
  else if x == '\'' || x == '"' then l.quoted
  else if l.startsPlain then l.plain
  else
    .error (.marked .tokens (some ⟨"while scanning for the next token", none⟩)
      ⟨"found character " ++ Text.quoted x.toString ++ " that cannot start any token", some l.mark⟩)

def readNext (l : Lexer) : Except Fault Lexer := do
  let l ← (toNext (l.cursor.size + 1) l.passMark).dropStale
  (l.unwindTo l.cursor.column).atToken

/-- Reads all tokens; with a fault, those that were settled before it. -/
def readAll : (fuel : Nat) → Lexer → List Token × Option Fault
  | 0, l => (l.tokens.reverse, none)
  | fuel + 1, l =>
    if l.finished then (l.tokens.reverse, none)
    else
      match l.dropStale with
      | .error fault => (l.tokens.reverse.take l.settled, some fault)
      | .ok l =>
        match l.readNext with
        | .error fault => (l.tokens.reverse.take l.settled, some fault)
        | .ok l => readAll fuel l

end Lexer

/-- The tokens of a text, and the fault that ends them, if there is one. -/
def Token.lex (text : String) : List Token × Option Fault :=
  (Lexer.ofText text).readAll (text.length + 2)

end Vitae.Yaml
