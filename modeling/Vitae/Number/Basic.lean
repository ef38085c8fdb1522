import Vitae.Number.Binary64

/-! Numbers of a document: whole numbers of any size, and binary fractions.

The two kinds stay apart, because a document that says `1` does not say `1.0`,
but they compare by value: `Number.lt` and `Number.same` place both on one line
with an infinity at each end. Not-a-number is unordered and differs from
itself. -/

namespace Vitae

inductive Number where
  | int (n : Int)
  | float (x : Binary64)
deriving DecidableEq, Inhabited, Repr

/-- A place on the number line, its two ends included. -/
inductive Place where
  | below
  | at (q : Rat)
  | above
deriving DecidableEq

def Place.lt : Place → Place → Bool
  | .below, .below => false
  | .below, _ => true
  | .at p, .at q => decide (p < q)
  | .at _, .above => true
  | _, _ => false

namespace Number

/-- Where a number stands; not-a-number stands nowhere. -/
def place? : Number → Option Place
  | .int n => some (.at n)
  | .float (.infinite negative) => some (if negative then .below else .above)
  | .float x => x.toRat?.map .at

def lt (a b : Number) : Bool :=
  match a.place?, b.place? with
  | some p, some q => p.lt q
  | _, _ => false

/-- Equality of values, whichever kind holds them. -/
def same (a b : Number) : Bool :=
  match a.place?, b.place? with
  | some p, some q => decide (p = q)
  | _, _ => false

def isFinite : Number → Bool
  | .int _ => true
  | .float x => x.isFinite

def isZero : Number → Bool
  | .int n => n == 0
  | .float x => x.isZero

/-- Why a number cannot be rounded to a whole one. -/
inductive RoundingFault where
  | tooLarge
  | notANumber
deriving DecidableEq, Repr

/-- The nearest whole number, a half going up. The half is added in binary
arithmetic first, so a number without room for it is rounded twice. -/
def roundHalfUp : Number → Except RoundingFault Int
  | .int n => go (Binary64.ofInt n)
  | .float x => go x
where
  go (x : Binary64) : Except RoundingFault Int :=
    match x with
    | .nan => .error .notANumber
    | x =>
      match x.toRat? with
      | none => .error .tooLarge
      | some q =>
        match (Binary64.ofRat (q + mkRat 1 2)).toRat? with
        | none => .error .tooLarge
        | some r => .ok r.floor

end Number

end Vitae
