import Vitae.Value.Basic

/-! Reading JSON.

The order of fields is kept, a whole number keeps all its digits and a number
with a fraction or an exponent is rounded once. A field that is given twice
keeps its first place and its last value. A lone surrogate escape, which names no
character, is read as the replacement character.

Recursion is on the count of values still allowed, which the length of the text
bounds. -/

namespace Vitae.Json

def isBlank (c : Char) : Bool := c == ' ' || c == '\t' || c == '\n' || c == '\r'

def skipBlank (cs : List Char) : List Char := cs.dropWhile isBlank

def hexDigit? (c : Char) : Option Nat :=
  if '0' ≤ c ∧ c ≤ '9' then some (c.toNat - '0'.toNat)
  else if 'a' ≤ c ∧ c ≤ 'f' then some (c.toNat - 'a'.toNat + 10)
  else if 'A' ≤ c ∧ c ≤ 'F' then some (c.toNat - 'A'.toNat + 10)
  else none

def hex4? (a b c d : Char) : Option Nat := do
  let a ← hexDigit? a
  let b ← hexDigit? b
  let c ← hexDigit? c
  let d ← hexDigit? d
  some (((a * 16 + b) * 16 + c) * 16 + d)

def escaped? : Char → Option Char
  | '"' => some '"'
  | '\\' => some '\\'
  | '/' => some '/'
  | 'b' => some '\x08'
  | 'f' => some '\x0c'
  | 'n' => some '\n'
  | 'r' => some '\r'
  | 't' => some '\t'
  | _ => none

def isHigh (n : Nat) : Bool := 0xd800 ≤ n && n < 0xdc00

def isLow (n : Nat) : Bool := 0xdc00 ≤ n && n < 0xe000

def replacement : Char := Char.ofNat 0xfffd

/-- The character of a code unit that is not the first of a pair. -/
def unitChar (n : Nat) : Char := if isHigh n || isLow n then replacement else Char.ofNat n

def pairChar (high low : Nat) : Char :=
  Char.ofNat (0x10000 + (high - 0xd800) * 0x400 + (low - 0xdc00))

/-- Reads a text after its opening quote. `read` holds its characters backwards. -/
def textTail (read : List Char) : List Char → Option (String × List Char)
  | [] => none
  | '"' :: rest => some (String.ofList read.reverse, rest)
  | '\\' :: 'u' :: a :: b :: c :: d :: rest =>
    match hex4? a b c d with
    | none => none
    | some unit =>
      match rest with
      | '\\' :: 'u' :: e :: f :: g :: h :: after =>
        match hex4? e f g h with
        | some low =>
          if isHigh unit && isLow low then textTail (pairChar unit low :: read) after
          else textTail (unitChar unit :: read) ('\\' :: 'u' :: e :: f :: g :: h :: after)
        | none => none
      | rest => textTail (unitChar unit :: read) rest
  | '\\' :: c :: rest =>
    match escaped? c with
    | some c => textTail (c :: read) rest
    | none => none
  | c :: rest => textTail (c :: read) rest

/-! ### Numbers -/

def isNumberChar (c : Char) : Bool :=
  ('0' ≤ c && c ≤ '9') || c == '-' || c == '+' || c == '.' || c == 'e' || c == 'E'

/-- The value of a run of digits; no digits are zero. -/
def natOf? (cs : List Char) : Option Nat :=
  cs.foldlM (fun n c => if '0' ≤ c ∧ c ≤ '9' then some (10 * n + (c.toNat - '0'.toNat)) else none) 0

def exponentOf? : List Char → Option Int
  | '-' :: cs => (natOf? cs).map fun n => -(n : Int)
  | '+' :: cs => (natOf? cs).map fun n => (n : Int)
  | cs => (natOf? cs).map fun n => (n : Int)

/-- The value of a number's characters after its sign. -/
def unsignedOf? (negative : Bool) (cs : List Char) : Option Value := do
  let isExponent (c : Char) : Bool := c == 'e' || c == 'E'
  let whole := cs.takeWhile fun c => c != '.' && !isExponent c
  let afterWhole := cs.drop whole.length
  let fraction := match afterWhole with
    | '.' :: rest => rest.takeWhile fun c => !isExponent c
    | _ => []
  let afterFraction := afterWhole.dropWhile fun c => !isExponent c
  let digits ← natOf? (whole ++ fraction)
  if whole.isEmpty then none
  else if afterWhole.isEmpty then some (.int (if negative then -digits else digits))
  else
    let exponent ← match afterFraction with
      | [] => some 0
      | _ :: rest => exponentOf? rest
    some (.float (Binary64.ofDecimal negative digits (exponent - fraction.length)))

def numberOf? : List Char → Option Value
  | '-' :: cs => unsignedOf? true cs
  | cs => unsignedOf? false cs

/-! ### Values -/

/-- A literal word, if the text starts with it. -/
def word? (cs : List Char) : Option (Value × List Char) :=
  match cs with
  | 'n' :: 'u' :: 'l' :: 'l' :: rest => some (.null, rest)
  | 't' :: 'r' :: 'u' :: 'e' :: rest => some (.bool true, rest)
  | 'f' :: 'a' :: 'l' :: 's' :: 'e' :: rest => some (.bool false, rest)
  | _ => none

mutual

def value : Nat → List Char → Option (Value × List Char)
  | 0, _ => none
  | fuel + 1, cs =>
    match skipBlank cs with
    | '"' :: rest => (textTail [] rest).map fun (s, rest) => (.str s, rest)
    | '[' :: rest =>
      match skipBlank rest with
      | ']' :: rest => some (.list [], rest)
      | rest => items fuel [] rest
    | '\x7b' :: rest =>
      match skipBlank rest with
      | '\x7d' :: rest => some (.object [], rest)
      | rest => fields fuel [] rest
    | cs =>
      match word? cs with
      | some found => some found
      | none =>
        let run := cs.takeWhile isNumberChar
        (numberOf? run).map fun v => (v, cs.drop run.length)

/-- Reads items from one on; `read` holds the earlier ones backwards. -/
def items : Nat → List Value → List Char → Option (Value × List Char)
  | 0, _, _ => none
  | fuel + 1, read, cs =>
    match value fuel cs with
    | none => none
    | some (v, rest) =>
      match skipBlank rest with
      | ',' :: rest => items fuel (v :: read) rest
      | ']' :: rest => some (.list (v :: read).reverse, rest)
      | _ => none

def fields : Nat → Fields → List Char → Option (Value × List Char)
  | 0, _, _ => none
  | fuel + 1, read, cs =>
    match skipBlank cs with
    | '"' :: rest =>
      match textTail [] rest with
      | none => none
      | some (name, rest) =>
        match skipBlank rest with
        | ':' :: rest =>
          match value fuel rest with
          | none => none
          | some (v, rest) =>
            match skipBlank rest with
            | ',' :: rest => fields fuel (Keyed.set read name v) rest
            | '\x7d' :: rest => some (.object (Keyed.set read name v), rest)
            | _ => none
        | _ => none
    | _ => none

end

/-- The value of a whole text. -/
def read (text : String) : Option Value :=
  let cs := text.toList
  match value (cs.length + 1) cs with
  | some (v, rest) => if (skipBlank rest).isEmpty then some v else none
  | none => none

end Vitae.Json
