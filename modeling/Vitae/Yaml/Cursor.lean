/-! A place in a text, and the classes of characters that decide how reading goes on.

A `Cursor` holds the rest of a text and the mark of its first character: how many
characters, lines and columns are behind it. Behind the last character stands one of
code zero, which no readable text holds. -/

namespace Vitae.Yaml

structure Mark where
  index : Nat
  line : Nat
  column : Nat
deriving DecidableEq, Repr, Inhabited

def isBreak (c : Char) : Bool :=
  c == '\n' || c == '\r' || c == '\x85' || c == '\u2028' || c == '\u2029'

def isEnd (c : Char) : Bool := c == '\x00'

def isLineEnd (c : Char) : Bool := isEnd c || isBreak c

def isSpaceOrEnd (c : Char) : Bool := c == ' ' || isLineEnd c

def isBlankOrEnd (c : Char) : Bool := c == '\t' || isSpaceOrEnd c

def isDecimal (c : Char) : Bool := '0' ≤ c && c ≤ '9'

def hexValue? (c : Char) : Option Nat :=
  if '0' ≤ c ∧ c ≤ '9' then some (c.toNat - '0'.toNat)
  else if 'a' ≤ c ∧ c ≤ 'f' then some (c.toNat - 'a'.toNat + 10)
  else if 'A' ≤ c ∧ c ≤ 'F' then some (c.toNat - 'A'.toNat + 10)
  else none

/-- Letters, digits, hyphen and low line, in ASCII. -/
def isWordChar (c : Char) : Bool := c.isAlphanum || c == '-' || c == '_'

/-- The mark behind a character. A return before a line feed does not end a line, and a
byte order mark takes no column. -/
def Mark.after (m : Mark) (c : Char) (next : Option Char) : Mark :=
  if c == '\r' && next == some '\n' then { m with index := m.index + 1, column := m.column + 1 }
  else if isBreak c then ⟨m.index + 1, m.line + 1, 0⟩
  else if c == '\ufeff' then { m with index := m.index + 1 }
  else { m with index := m.index + 1, column := m.column + 1 }

structure Cursor where
  rest : List Char
  mark : Mark
  /-- The length of the whole text, which bounds the walks over it. -/
  size : Nat

namespace Cursor

def ofText (text : String) : Cursor := ⟨text.toList, ⟨0, 0, 0⟩, text.length⟩

def peek (c : Cursor) (ahead : Nat) : Char := (c.rest[ahead]?).getD '\x00'

def head (c : Cursor) : Char := c.peek 0

def column (c : Cursor) : Nat := c.mark.column

def next (c : Cursor) : Cursor :=
  match c.rest with
  | [] => c
  | x :: rest => { c with rest := rest, mark := c.mark.after x rest.head? }

def advance : Nat → Cursor → Cursor
  | 0, c => c
  | count + 1, c => advance count c.next

/-- The characters from here on that are in a class. -/
def run (c : Cursor) (inClass : Char → Bool) : List Char := c.rest.takeWhile inClass

def skip (c : Cursor) (inClass : Char → Bool) : Cursor := c.advance (c.run inClass).length

/-- Passes a line break, if one is here: the text it stands for, which is a line feed but
for the two separators of Unicode, and the place behind it. -/
def lineBreak? (c : Cursor) : Option (Char × Cursor) :=
  let x := c.head
  if x == '\r' && c.peek 1 == '\n' then some ('\n', c.advance 2)
  else if x == '\u2028' || x == '\u2029' then some (x, c.next)
  else if isBreak x then some ('\n', c.next)
  else none

/-- Whether a line of three such characters, which parts documents, is here. -/
def isSeparator (c : Cursor) (x : Char) : Bool :=
  c.peek 0 == x && c.peek 1 == x && c.peek 2 == x && isBlankOrEnd (c.peek 3)

def isAnySeparator (c : Cursor) : Bool := c.isSeparator '-' || c.isSeparator '.'

@[simp] theorem rest_next (c : Cursor) : c.next.rest = c.rest.tail := by
  cases h : c.rest <;> simp [next, h]

theorem rest_advance (count : Nat) (c : Cursor) :
    (c.advance count).rest = c.rest.drop count := by
  induction count generalizing c with
  | zero => rfl
  | succ count ih => simp [advance, ih, List.drop_tail]

theorem rest_skip (c : Cursor) (inClass : Char → Bool) :
    (c.skip inClass).rest = c.rest.dropWhile inClass := by
  rw [skip, rest_advance, run]
  induction c.rest with
  | nil => rfl
  | cons x rest ih => by_cases h : inClass x <;> simp [h, ih]

end Cursor

end Vitae.Yaml
