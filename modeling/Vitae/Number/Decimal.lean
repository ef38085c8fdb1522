import Vitae.Number.Basic

/-! Decimal texts of binary numbers.

`Decimal.shortest` finds the fewest digits that read back as the number, and of
those the nearest; it tests, for one digit after another, the two neighbours of
the number on the grid of that many digits. `Style` says how digits are laid
out: where positional form ends and how an exponent is spelled. `plain` is the
style of messages and documents, `compact` the style of serialized pages. The
other direction, `Binary64.ofDecimal`, reads a decimal with a single rounding. -/

namespace Vitae

/-- The number `digits * 10 ^ exponent`. -/
structure Decimal where
  digits : Nat
  exponent : Int
deriving DecidableEq, Repr

namespace Decimal

/-- The count of decimal digits, none for zero. -/
def digitCount (n : Nat) : Nat := if n = 0 then 0 else (Nat.toDigits 10 n).length

/-- The same value without trailing zeros. At most `room` zeros are dropped. -/
def trim (room : Nat) (d : Decimal) : Decimal :=
  match room with
  | 0 => d
  | room + 1 =>
    if d.digits ≠ 0 ∧ d.digits % 10 = 0 then trim room ⟨d.digits / 10, d.exponent + 1⟩ else d

/-- Numerator and denominator of a whole number times a power of a base. -/
def powered (n base : Nat) (exponent : Int) : Nat × Nat :=
  (n * Nat.pow base exponent.toNat, Nat.pow base (-exponent).toNat)

/-- The power of ten just above `mantissa * 2 ^ exponent`. No number of the
format is below `10 ^ (-400)`. -/
def magnitude (mantissa : Nat) (exponent : Int) : Int :=
  let (n, d) := powered mantissa 2 exponent
  (digitCount (n * Nat.pow 10 400 / d) : Int) - 400

/-- The numbers that read back as `mantissa * 2 ^ exponent`, in quarters of its
last place: the halves on each side, or a quarter below a power of two. The ends
belong to it when the mantissa is even. -/
structure Reach where
  low : Nat
  high : Nat
  inclusive : Bool

def reach (mantissa : Nat) (exponent : Int) : Reach :=
  { low :=
      if mantissa = Nat.pow 2 52 ∧ Binary64.leastExponent < exponent then 4 * mantissa - 1
      else 4 * mantissa - 2
    high := 4 * mantissa + 2
    inclusive := mantissa % 2 == 0 }

/-- Whether `num / den` of quarters is in reach. -/
def Reach.holds (r : Reach) (num den : Nat) : Bool :=
  if r.inclusive then decide (r.low * den ≤ num) && decide (num ≤ r.high * den)
  else decide (r.low * den < num) && decide (num < r.high * den)

/-- The nearest decimal of `count` digits that reads back, if one does. -/
def onGrid (mantissa : Nat) (exponent : Int) (count : Nat) : Option Decimal :=
  let step := magnitude mantissa exponent - count
  -- `one` is a step of the grid, in quarters of the last place
  let (tenNum, tenDen) := powered 1 10 step
  let (twoNum, twoDen) := powered 1 2 (exponent - 2)
  let oneNum := tenNum * twoDen
  let oneDen := tenDen * twoNum
  let target := 4 * mantissa * oneDen
  let below := target / oneNum
  let above := below + 1
  let r := reach mantissa exponent
  let low := r.holds (below * oneNum) oneDen
  let high := r.holds (above * oneNum) oneDen
  let lowGap := target - below * oneNum
  let highGap := above * oneNum - target
  if low && high then
    some ⟨if lowGap < highGap then below
      else if highGap < lowGap then above
      else if below % 2 = 0 then below else above, step⟩
  else if low then some ⟨below, step⟩
  else if high then some ⟨above, step⟩
  else none

/-- The fewest digits that read back as a positive number. Seventeen always do. -/
def shortest (mantissa : Nat) (exponent : Int) : Decimal :=
  let found := (List.range 17).findSome? fun count => onGrid mantissa exponent (count + 1)
  trim 20 (found.getD ⟨0, 0⟩)

/-! ### Layout -/

/-- How digits become text. `point` is the place of the decimal point counted from
the first digit; positional form is used for points in `low < point ≤ high`. -/
structure Style where
  low : Int
  high : Int
  /-- The least count of digits in an exponent. -/
  width : Nat

/-- Positional from `0.0001` up to below `10 ^ 16`, exponents as `e-07` and `e+16`. -/
def plain : Style := ⟨-4, 16, 2⟩

/-- Positional from `0.00001` up to below `10 ^ 16`, exponents as `e-7` and `e+16`. -/
def compact : Style := ⟨-5, 16, 1⟩

def zeros (count : Nat) : String := String.ofList (List.replicate count '0')

def padded (width n : Nat) : String :=
  let text := toString n
  zeros (width - text.length) ++ text

/-- The text of a positive decimal, always with a point or an exponent. -/
def text (style : Style) (d : Decimal) : String :=
  let digits := (Nat.toDigits 10 d.digits)
  let count := digits.length
  let point : Int := count + d.exponent
  if style.low < point ∧ point ≤ style.high then
    if point ≤ 0 then "0." ++ zeros (-point).toNat ++ String.ofList digits
    else if (count : Int) ≤ point then
      String.ofList digits ++ zeros (point - count).toNat ++ ".0"
    else
      String.ofList (digits.take point.toNat) ++ "." ++ String.ofList (digits.drop point.toNat)
  else
    let exponent := point - 1
    let sign := if exponent < 0 then "-" else "+"
    let tail := if count = 1 then "" else "." ++ String.ofList (digits.drop 1)
    String.ofList (digits.take 1) ++ tail ++ "e" ++ sign ++ padded style.width exponent.natAbs

end Decimal

namespace Binary64

/-- The text of a number. Infinities and not-a-number have none in a document, so
the caller names them. -/
def text (style : Decimal.Style) (infinity nan : String) : Binary64 → String
  | .nan => nan
  | .infinite negative => (if negative then "-" else "") ++ infinity
  | .finite negative mantissa exponent =>
    (if negative then "-" else "") ++
      if mantissa = 0 then "0.0" else (Decimal.shortest mantissa exponent).text style

/-- The number nearest to `digits * 10 ^ exponent`. Beyond 400 places on either
side of the point the answer is known without the power. -/
def ofDecimal (negative : Bool) (digits : Nat) (exponent : Int) : Binary64 :=
  if digits = 0 then .finite negative 0 leastExponent
  else
    let point : Int := Decimal.digitCount digits + exponent
    if 400 < point then .infinite negative
    else if point < -400 then .finite negative 0 leastExponent
    else
      let (n, d) := Decimal.powered digits 10 exponent
      ofRatio negative n d

end Binary64

/-- The text of a number in a document or a message. -/
def Number.text : Number → String
  | .int n => toString n
  | .float x => x.text Decimal.plain "inf" "nan"

end Vitae
