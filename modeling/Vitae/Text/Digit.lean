/-! Decimal digits of every script.

A decimal digit is a character of general category Nd. Such characters come in rows
of ten, from the zero of a script to its nine, so a table lists the zeros. The
category grows with the standard: `isDigit` is that of version 14, `isRecentDigit`
that of version 16, which has ten more rows. -/

namespace Vitae.Text

/-- The code points of the characters of value zero in version 14. -/
def digitZeros : List Nat := [
  48, 1632, 1776, 1984, 2406, 2534, 2662, 2790, 2918, 3046, 3174, 3302, 3430, 3558, 3664,
  3792, 3872, 4160, 4240, 6112, 6160, 6470, 6608, 6784, 6800, 6992, 7088, 7232, 7248,
  42528, 43216, 43264, 43472, 43504, 43600, 44016, 65296, 66720, 68912, 69734, 69872,
  69942, 70096, 70384, 70736, 70864, 71248, 71360, 71472, 71904, 72016, 72784, 73040,
  73120, 92768, 92864, 93008, 120782, 120792, 120802, 120812, 120822, 123200, 123632,
  125264, 130032]

/-- The code points of the zeros that versions 15 and 16 add. -/
def addedZeros : List Nat := [
  68928, 71376, 71386, 72688, 73552, 90416, 93552, 118000, 124144, 124401]

/-- Whether a character is in one of the rows that start with these zeros. -/
def isInRows (zeros : List Nat) (c : Char) : Bool :=
  zeros.any fun first => first ≤ c.toNat && c.toNat < first + 10

def isDigit (c : Char) : Bool := isInRows digitZeros c

def isRecentDigit (c : Char) : Bool := isDigit c || isInRows addedZeros c

theorem isRecentDigit_of_isDigit {c : Char} (h : isDigit c = true) : isRecentDigit c = true := by
  simp [isRecentDigit, h]

/-- The ten digits of ASCII, with their value. -/
def asciiDigit? (c : Char) : Option Nat :=
  if '0' ≤ c ∧ c ≤ '9' then some (c.toNat - '0'.toNat) else none

end Vitae.Text
