import Vitae.Number.Decimal
import Vitae.Yaml.Fault

/-! The numbers that plain words stand for.

A whole number is written in base ten, in base two, eight or sixteen behind a mark, or in
base sixty with colons; a fraction has a point or an exponent, or names an infinity or
not-a-number. Low lines may part digits. `isWhole` and `isFraction` say which words are
numbers by their form, `whole` and `fraction` what they are; a few forms are no number
for all that, such as a lone point with low lines. -/

namespace Vitae.Yaml.Number

def isSign (c : Char) : Bool := c == '-' || c == '+'

def isDigitOrLine (c : Char) : Bool := isDecimal c || c == '_'

def unsigned (cs : List Char) : List Char :=
  match cs with
  | c :: rest => if isSign c then rest else cs
  | [] => []

/-! ### Forms -/

/-- Whether a word is some characters of a class, and how many at least. -/
def isRun (least : Nat) (inClass : Char → Bool) (cs : List Char) : Bool :=
  decide (least ≤ cs.length) && cs.all inClass

/-- Whether a word starts with a digit that `first` admits and has digits behind it. -/
def isDigits (first : Char → Bool) : List Char → Bool
  | c :: rest => isDecimal c && first c && rest.all isDigitOrLine
  | [] => false

/-- One or two digits below sixty. -/
def isSixtieth (cs : List Char) : Bool :=
  match cs with
  | [a] => isDecimal a
  | [a, b] => isDecimal a && a ≤ '5' && isDecimal b
  | _ => false

/-- The parts of a word between its colons. -/
def parts : List Char → List (List Char)
  | [] => [[]]
  | c :: rest =>
    if c == ':' then [] :: parts rest
    else
      match parts rest with
      | [] => [[c]]
      | part :: later => (c :: part) :: later

def isSixties (first : Char → Bool) (cs : List Char) : Bool :=
  match parts cs with
  | head :: part :: later => isDigits first head && (part :: later).all isSixtieth
  | _ => false

def isWhole (word : List Char) : Bool :=
  let cs := unsigned word
  let isHex (c : Char) : Bool := (hexValue? c).isSome || c == '_'
  match cs with
  | ['0'] => true
  | '0' :: 'b' :: digits => isRun 1 (fun c => c == '0' || c == '1' || c == '_') digits
  | '0' :: 'x' :: digits => isRun 1 isHex digits
  | '0' :: digits => isRun 1 (fun c => isDigitOrLine c && c != '8' && c != '9') digits
  | cs => isDigits (· != '0') cs || isSixties (· != '0') cs

/-- An exponent behind its letter. Only some forms need its sign. -/
def isExponent (needsSign : Bool) : List Char → Bool
  | c :: rest =>
    if isSign c then isRun 1 isDecimal rest else !needsSign && isRun 1 isDecimal (c :: rest)
  | [] => false

def isExponentMark (c : Char) : Bool := c == 'e' || c == 'E'

/-- Nothing, or an exponent with its letter. -/
def endsFraction (needsSign : Bool) : List Char → Bool
  | [] => true
  | c :: rest => isExponentMark c && isExponent needsSign rest

def infinities : List String := [".inf", ".Inf", ".INF"]

def nans : List String := [".nan", ".NaN", ".NAN"]

def isFraction (word : List Char) : Bool :=
  let cs := unsigned word
  let head := cs.takeWhile fun c => c != '.' && !isExponentMark c
  let behind := cs.drop head.length
  infinities.contains (String.ofList cs) || nans.contains (String.ofList word) ||
    match behind with
    | '.' :: rest =>
      let digits := rest.takeWhile isDigitOrLine
      let tail := rest.drop digits.length
      if word.head? == some '.' then !digits.isEmpty && endsFraction true tail
      else
        (isDigits (fun _ => true) head && endsFraction false tail) ||
          (isSixties (fun _ => true) head && tail.isEmpty)
    | _ :: rest => isDigits (fun _ => true) head && isExponent false rest
    | [] => false

/-! ### Values -/

/-- The value of digits in a base. -/
def digitsIn (base : Nat) (cs : List Char) : Except Fault Nat :=
  let more (n : Nat) (c : Char) : Option Nat :=
    (hexValue? c).bind fun digit => if digit < base then some (base * n + digit) else none
  match cs.foldlM more 0, cs with
  | some n, _ :: _ => .ok n
  | _, _ => .error (.noNumber (some base) (String.ofList cs))

/-- The value of a part of a whole number in base ten or sixty. -/
def partValue (cs : List Char) : Except Fault Nat :=
  if Fault.longestNumber < cs.length then .error (.noNumber (some 10) (String.ofList cs))
  else digitsIn 10 cs

def signed (word : List Char) (n : Nat) : Int := if word.head? == some '-' then -n else n

/-- The whole number that a word is. -/
def whole (word : List Char) : Except Fault Int := do
  let word := word.filter (· != '_')
  let size ←
    match unsigned word with
    | ['0'] => .ok 0
    | '0' :: 'b' :: digits => digitsIn 2 digits
    | '0' :: 'x' :: digits => digitsIn 16 digits
    | '0' :: digits => digitsIn 8 ('0' :: digits)
    | cs => (parts cs).foldlM (fun (n : Nat) part => do .ok (60 * n + (← partValue part))) 0
  .ok (signed word size)

/-- A decimal with a point, an exponent, both or neither. -/
def decimal (cs : List Char) : Except Fault Binary64 := do
  let fault := Fault.noNumber none (String.ofList (cs.map Char.toLower))
  let mantissa := cs.takeWhile fun c => !isExponentMark c
  let whole := mantissa.takeWhile (· != '.')
  let places := mantissa.drop (whole.length + 1)
  let digits ← (digitsIn 10 (whole ++ places)).mapError fun _ => fault
  let exponent : Int ←
    match cs.drop (mantissa.length + 1) with
    | [] => .ok 0
    | tail => do
      let size ← (digitsIn 10 (unsigned tail)).mapError fun _ => fault
      .ok (signed tail size)
  .ok (Binary64.ofDecimal false digits (exponent - places.length))

def negated : Binary64 → Binary64
  | .finite negative mantissa exponent => .finite (!negative) mantissa exponent
  | .infinite negative => .infinite (!negative)
  | .nan => .nan

/-- A number of base sixty: each part and each sum is rounded. -/
def sixties (cs : List Char) : Except Fault Binary64 := do
  let values ← (parts cs).mapM decimal
  let add (sum : Binary64 × Nat) (value : Binary64) : Binary64 × Nat :=
    match sum.1.toRat?, value.toRat? with
    | some s, some v =>
      let product := Binary64.ofRat (v * sum.2)
      match product.toRat? with
      | some p => (Binary64.ofRat (s + p), 60 * sum.2)
      | none => (product, 60 * sum.2)
    | none, _ => (sum.1, 60 * sum.2)
    | _, none => (value, 60 * sum.2)
  .ok (values.reverse.foldl add (.zero, 1)).1

/-- The binary number that a word is. -/
def fraction (word : List Char) : Except Fault Binary64 := do
  let word := word.filter (· != '_')
  let cs := unsigned word
  let size ←
    if infinities.contains (String.ofList cs) then .ok (.infinite false)
    else if nans.contains (String.ofList cs) then .ok .nan
    else if cs.contains ':' then sixties cs
    else decimal cs
  .ok (if word.head? == some '-' then negated size else size)

end Vitae.Yaml.Number
