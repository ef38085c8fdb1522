import Vitae.Calendar.Date

/-! A date with a time of day and, if known, its offset from universal time.

Two moments with an offset are the same when they are the same instant; one without
is only the same as another without (`Moment.same`). Messages write an offset down
to its last part that is not zero, serialized pages to the minute. -/

namespace Vitae

/-- A time of day, or a length below a day, down to the microsecond. -/
structure Clock where
  hour : Nat
  minute : Nat
  second : Nat
  micro : Nat
deriving DecidableEq, Inhabited

namespace Clock

def seconds (c : Clock) : Nat := 3600 * c.hour + 60 * c.minute + c.second

def micros (c : Clock) : Nat := 1000000 * c.seconds + c.micro

/-- The hours and minutes of a count of seconds. -/
def minuteText (seconds : Nat) : String :=
  Decimal.padded 2 (seconds / 3600) ++ ":" ++ Decimal.padded 2 (seconds / 60 % 60)

def fractionText (micro : Nat) : String :=
  if micro = 0 then "" else "." ++ Decimal.padded 6 micro

/-- Hours, minutes and seconds, with microseconds when there are any. -/
def text (c : Clock) : String :=
  minuteText c.seconds ++ ":" ++ Decimal.padded 2 c.second ++ fractionText c.micro

end Clock

structure Moment where
  date : Date
  clock : Clock
  /-- Microseconds by which the clock is ahead of universal time. -/
  offset : Option Int
deriving DecidableEq, Inhabited

namespace Moment

/-- What tells moments apart: a place in universal time, or date and clock alone. -/
inductive Standing where
  | instant (micros : Int)
  | unplaced (date : Date) (clock : Clock)
deriving DecidableEq

def microsPerDay : Int := 86400000000

def standing (m : Moment) : Standing :=
  match m.offset with
  | some offset => .instant (microsPerDay * m.date.count + m.clock.micros - offset)
  | none => .unplaced m.date m.clock

def same (a b : Moment) : Bool := a.standing == b.standing

/-! ### Texts -/

def signText (n : Int) : String := if n < 0 then "-" else "+"

/-- An offset in hours and minutes, with seconds and their fraction when there are any. -/
def offsetText (offset : Int) : String :=
  let seconds := offset.natAbs / 1000000
  let micro := offset.natAbs % 1000000
  let tail :=
    if seconds % 60 = 0 ∧ micro = 0 then ""
    else ":" ++ Decimal.padded 2 (seconds % 60) ++ Clock.fractionText micro
  signText offset ++ Clock.minuteText seconds ++ tail

/-- An offset on a page: whole seconds, rounded down, shown without their last part.
Universal time has a letter. -/
def pageOffsetText (offset : Int) : String :=
  let seconds := offset.fdiv 1000000
  if seconds = 0 then "Z" else signText seconds ++ Clock.minuteText seconds.natAbs

/-- Date and time on either side of a separator, then the offset. -/
def textWith (separator : String) (showOffset : Int → String) (m : Moment) : String :=
  m.date.text ++ separator ++ m.clock.text ++ (m.offset.map showOffset).getD ""

/-- The form of data. -/
def text : Moment → String := textWith "T" offsetText

/-- The form of running text. -/
def display : Moment → String := textWith " " offsetText

/-- The form of serialized pages. -/
def pageText : Moment → String := textWith "T" pageOffsetText

end Moment

end Vitae
