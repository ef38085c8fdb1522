import Vitae.Calendar.Moment
import Vitae.Text.Digit

/-! Reading dates in the interchange formats of ISO 8601.

A text is a date, and after one separator character, which may be any, a time.
The date is a calendar date or a week date, each with or without hyphens; the
time has hours, minutes and seconds with or without colons, a fraction after a
point or a comma, and an offset. `Moment.ofIso?` reads all of it.

Where the date ends is decided by its form alone (`dateLength`). A time is read
to the end of its text, or to the sign of its offset; before that sign one
character of ASCII more is let pass (`Reading.clean` tells the two apart). The
character of code zero counts as an end of text. -/

namespace Vitae.IsoText

/-- Reads exactly `count` digits. -/
def digits (count : Nat) (cs : List Char) (value : Nat) : Option (Nat × List Char) :=
  match count, cs with
  | 0, cs => some (value, cs)
  | _ + 1, [] => none
  | count + 1, c :: rest =>
    match Text.asciiDigit? c with
    | some d => digits count rest (10 * value + d)
    | none => none

def isDigitAt (cs : List Char) (i : Nat) : Bool :=
  match cs[i]? with
  | some c => (Text.asciiDigit? c).isSome
  | none => false

/-! ### Dates -/

/-- How many characters the date takes. In a week date with a hyphen after the
week, a digit two places on means that the hyphen is the separator. In one without
hyphens the digits that follow tell: a time has an even number of them. -/
def dateLength (cs : List Char) : Nat :=
  if cs.length = 7 then 7
  else if cs[4]? = some '-' then
    if cs[5]? = some 'W' then
      if cs[8]? = some '-' then if isDigitAt cs 10 then 8 else 10 else 8
    else 10
  else if cs[4]? = some 'W' then
    let stop := 7 + ((cs.drop 7).takeWhile fun c => (Text.asciiDigit? c).isSome).length
    if stop < 9 then stop else if stop % 2 = 0 then 7 else 8
  else 8

/-- Drops a hyphen, if hyphens are in use. -/
def hyphen (used : Bool) (cs : List Char) : Option (List Char) :=
  if used then
    match cs with
    | '-' :: rest => some rest
    | _ => none
  else some cs

/-- A week date after its year; the day of the week is Monday if left out. -/
def weekDate (hyphens : Bool) (year : Nat) (cs : List Char) : Option Date := do
  let (week, rest) ← digits 2 cs 0
  if rest.isEmpty then Date.ofWeek? year week 1
  else
    let rest ← hyphen hyphens rest
    let (day, _) ← digits 1 rest 0
    Date.ofWeek? year week day

def date (cs : List Char) : Option Date := do
  let (year, rest) ← digits 4 cs 0
  let hyphens := rest.head? == some '-'
  let rest ← hyphen hyphens rest
  match rest with
  | 'W' :: rest => weekDate hyphens year rest
  | rest =>
    let (month, rest) ← digits 2 rest 0
    let rest ← hyphen hyphens rest
    let (day, _) ← digits 2 rest 0
    Date.of? year month day

/-! ### Times -/

/-- A time as read. `clean` says that nothing was left over. -/
structure Reading where
  clock : Clock
  clean : Bool

def isEnd (c : Char) : Bool := c.toNat == 0

/-- The fraction of a second: six digits count, more are dropped. -/
def fraction (clock : Clock) (cs : List Char) : Option Reading := do
  let count := min 6 cs.length
  let (value, rest) ← digits count cs 0
  let rest := rest.dropWhile fun c => (Text.asciiDigit? c).isSome
  let clean := match rest with
    | [] => true
    | c :: _ => isEnd c
  some ⟨{ clock with micro := value * Nat.pow 10 (6 - count) }, clean⟩

/-- The parts of a time in reading order. -/
inductive Part where
  | hour
  | minute
  | second

def Part.put (part : Part) (value : Nat) (clock : Clock) : Clock :=
  match part with
  | .hour => { clock with hour := value }
  | .minute => { clock with minute := value }
  | .second => { clock with second := value }

/-- Reads the parts of a time, then a fraction. A part may be the last; the
character after the hours tells whether colons are in use. -/
def parts (colons : Bool) (clock : Clock) : List Part → List Char → Option Reading
  | [], cs => fraction clock cs
  | part :: later, cs => do
    let (value, rest) ← digits 2 cs 0
    let clock := part.put value clock
    match rest with
    | [] => some ⟨clock, true⟩
    | [c] => if c.toNat < 128 then some ⟨clock, isEnd c⟩ else none
    | c :: rest =>
      let colons := match part with
        | .hour => c == ':'
        | _ => colons
      if colons && c == ':' then parts colons clock later rest
      else if c == '.' || c == ',' then fraction clock rest
      else if colons then none
      else parts colons clock later (c :: rest)

def time (cs : List Char) : Option Reading :=
  parts false ⟨0, 0, 0, 0⟩ [.hour, .minute, .second] cs

/-- An offset after its sign, in microseconds. It is shorter than a day, and one
shorter than a second is none. -/
def offset (negative : Bool) (cs : List Char) : Option Int := do
  let reading ← time cs
  let seconds := reading.clock.seconds
  if reading.clean && decide (seconds < 86400) then
    let size : Int := if seconds = 0 then 0 else reading.clock.micros
    some (if negative then -size else size)
  else none

def isSign (c : Char) : Bool := c == '+' || c == '-'

/-- A time of day, and its offset if it has one. -/
def clockAndOffset (cs : List Char) : Option (Clock × Option Int) := do
  let reading ← time (cs.takeWhile fun c => !isSign c)
  let clock := reading.clock
  if decide (clock.hour < 24) && decide (clock.minute < 60) && decide (clock.second < 60) then
    match cs.dropWhile fun c => !isSign c with
    | [] => if reading.clean then some (clock, none) else none
    | sign :: rest =>
      let zone ← offset (sign == '-') rest
      some (clock, some zone)
  else none

/-- Writes the letter of universal time as an offset. -/
def spelledOut (cs : List Char) : List Char :=
  cs.flatMap fun c => if c = 'Z' then ['+', '0', '0', ':', '0', '0'] else [c]

end Vitae.IsoText

namespace Vitae

open IsoText in
/-- Reads a whole text. No form is shorter than seven characters. -/
def Moment.ofIso? (text : String) : Option Moment := do
  let cs := spelledOut text.toList
  if cs.length < 7 then none
  else
    let stop := dateLength cs
    let day ← IsoText.date (cs.take stop)
    match cs.drop stop with
    | [] => some ⟨day, ⟨0, 0, 0, 0⟩, none⟩
    | _ :: rest =>
      let (clock, zone) ← clockAndOffset rest
      some ⟨day, clock, zone⟩

/-- The date of a text in any of the forms, its time left out. -/
def Date.ofIso? (text : String) : Option Date := (Moment.ofIso? text).map Moment.date

end Vitae
