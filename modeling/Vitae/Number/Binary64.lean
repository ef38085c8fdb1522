/-! Binary floating-point numbers of 64 bits, as exact data.

A finite number is a sign, a whole mantissa and a power of two, so that its
value is a fraction (`toRat?`) and every operation is exact arithmetic followed
by one rounding. `ofRatio` is that rounding: to the nearest number that the
format holds, a tie going to the even mantissa, and to infinity beyond the
largest. Reading a decimal, converting an integer and adding two numbers all
round through it. -/

namespace Vitae

/-- A finite number is `mantissa * 2 ^ exponent` with a sign of its own, so that
zero has two forms. Numbers made by `ofRatio` are in normal form: the mantissa is
below `2 ^ 53`, and it is below `2 ^ 52` only at the least exponent. -/
inductive Binary64 where
  | finite (negative : Bool) (mantissa : Nat) (exponent : Int)
  | infinite (negative : Bool)
  | nan
deriving DecidableEq, Inhabited, Repr

namespace Binary64

/-- The exponent of the smallest positive number. -/
def leastExponent : Int := -1074

/-- The exponent of the largest finite numbers. -/
def greatestExponent : Int := 971

def zero : Binary64 := .finite false 0 leastExponent

/-- The whole number nearest to `num / den`, a tie going to the even one. -/
def roundToEven (num den : Nat) : Nat :=
  let quotient := num / den
  let rest := num % den
  if 2 * rest < den then quotient
  else if den < 2 * rest then quotient + 1
  else if quotient % 2 = 0 then quotient else quotient + 1

/-- Numerator and denominator of `num / den` divided by `2 ^ exponent`. -/
def scaled (num den : Nat) (exponent : Int) : Nat × Nat :=
  (num * Nat.pow 2 (-exponent).toNat, den * Nat.pow 2 exponent.toNat)

/-- The exponent at which the mantissa of `num / den` has 53 bits, or the least
exponent when that is larger. -/
def exponentFor (num den : Nat) : Int :=
  let estimate : Int := (num.log2 : Int) - (den.log2 : Int) - 52
  let (n, d) := scaled num den estimate
  let exponent := if n / d < Nat.pow 2 52 then estimate - 1 else estimate
  max exponent leastExponent

/-- The number nearest to `num / den`, for a positive denominator. -/
def ofRatio (negative : Bool) (num den : Nat) : Binary64 :=
  if num = 0 then .finite negative 0 leastExponent
  else
    let exponent := exponentFor num den
    let (n, d) := scaled num den exponent
    let mantissa := roundToEven n d
    let (mantissa, exponent) :=
      if mantissa = Nat.pow 2 53 then (Nat.pow 2 52, exponent + 1) else (mantissa, exponent)
    if greatestExponent < exponent then .infinite negative
    else .finite negative mantissa exponent

def ofRat (q : Rat) : Binary64 := ofRatio (decide (q < 0)) q.num.natAbs q.den

def ofInt (n : Int) : Binary64 := ofRatio (decide (n < 0)) n.natAbs 1

/-- The exact value of a finite number. -/
def toRat? : Binary64 → Option Rat
  | .finite negative mantissa exponent =>
    let (num, den) := scaled mantissa 1 (-exponent)
    let size : Rat := mkRat num den
    some (if negative then -size else size)
  | _ => none

def isFinite : Binary64 → Bool
  | .finite .. => true
  | _ => false

def isZero : Binary64 → Bool
  | .finite _ mantissa _ => mantissa == 0
  | _ => false

end Binary64

end Vitae
