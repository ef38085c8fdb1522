import Vitae.Number.Decimal

/-! Calendar dates of the years 1 to 9999.

A `Date` carries the proof that its day exists, so no operation has to check it
again. Days are also counted from the first of January of year 1, which is a
Monday; the week calendar, whose years have 52 or 53 whole weeks, is a count of
days from the Monday of week 1. -/

namespace Vitae

namespace Calendar

def isLeap (year : Nat) : Bool :=
  year % 4 == 0 && (year % 100 != 0 || year % 400 == 0)

def daysInMonth (year month : Nat) : Nat :=
  if month = 2 then if isLeap year then 29 else 28
  else if month = 4 ∨ month = 6 ∨ month = 9 ∨ month = 11 then 30
  else 31

def isReal (year month day : Nat) : Bool :=
  decide (1 ≤ year) && decide (year ≤ 9999) && decide (1 ≤ month) && decide (month ≤ 12) &&
    decide (1 ≤ day) && decide (day ≤ daysInMonth year month)

/-- Days before the first of January of a year. -/
def daysBeforeYear (year : Nat) : Nat :=
  let past := year - 1
  365 * past + past / 4 - past / 100 + past / 400

end Calendar

structure Date where
  year : Nat
  month : Nat
  day : Nat
  real : Calendar.isReal year month day = true
deriving DecidableEq

namespace Date

def of? (year month day : Nat) : Option Date :=
  if h : Calendar.isReal year month day = true then some ⟨year, month, day, h⟩ else none

instance : Inhabited Date := ⟨1, 1, 1, by decide⟩

/-- The month and day of the day with this number in its year, counted from 0. -/
def monthAndDay (year number : Nat) : Nat × Nat :=
  go 11 1 number
where
  go : Nat → Nat → Nat → Nat × Nat
    | 0, month, rest => (month, rest + 1)
    | left + 1, month, rest =>
      let length := Calendar.daysInMonth year month
      if rest < length then (month, rest + 1) else go left (month + 1) (rest - length)

/-- The date of a day counted from 1, the first of January of year 1. Years come
in cycles of 400, 100, 4 and 1; the last day of a cycle belongs to it. -/
def ofCount? (count : Nat) : Option Date :=
  let number := count - 1
  let inGreat := number % 146097
  let century := min 3 (inGreat / 36524)
  let inCentury := inGreat - century * 36524
  let inFour := inCentury % 1461
  let single := min 3 (inFour / 365)
  let year := number / 146097 * 400 + century * 100 + inCentury / 1461 * 4 + single + 1
  let (month, day) := monthAndDay year (inFour - single * 365)
  if count = 0 then none else of? year month day

/-- The count of days up to a date, the first of January of year 1 being day 1. -/
def count (d : Date) : Nat :=
  let months := (List.range (d.month - 1)).map fun m => Calendar.daysInMonth d.year (m + 1)
  Calendar.daysBeforeYear d.year + months.foldl (· + ·) 0 + d.day

/-! ### Weeks -/

/-- The weekday of the first of January, Monday being 0. -/
def firstWeekday (year : Nat) : Nat := Calendar.daysBeforeYear year % 7

def weeksInYear (year : Nat) : Nat :=
  if firstWeekday year = 3 ∨ (firstWeekday year = 2 ∧ Calendar.isLeap year) then 53 else 52

/-- The count of days up to the Monday of week 1, the week of the first Thursday. -/
def weekOneMonday (year : Nat) : Nat :=
  let first := Calendar.daysBeforeYear year + 1
  let weekday := firstWeekday year
  if 3 < weekday then first + 7 - weekday else first - weekday

def ofWeek? (year week day : Nat) : Option Date :=
  if 1 ≤ year ∧ 1 ≤ week ∧ week ≤ weeksInYear year ∧ 1 ≤ day ∧ day ≤ 7 then
    ofCount? (weekOneMonday year + 7 * (week - 1) + (day - 1))
  else none

/-- Year, month and day in four, two and two digits. -/
def text (d : Date) : String :=
  Decimal.padded 4 d.year ++ "-" ++ Decimal.padded 2 d.month ++ "-" ++ Decimal.padded 2 d.day

end Date

end Vitae
