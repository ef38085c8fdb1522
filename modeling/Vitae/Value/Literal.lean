import Vitae.Text.Quoted
import Vitae.Value.Basic

/-! Values in messages.

`Value.literal` shows a value so that its kind can be seen: a text is quoted and
a date names its parts. `Value.display` is for running text: a text stands for
itself. Inside a list or an object both show literals. -/

namespace Vitae

namespace Value

/-- Parts in brackets after a name. -/
def call (name : String) (parts : List String) : String :=
  name ++ "(" ++ String.intercalate ", " parts ++ ")"

/-- A length of time by its parts that are not zero. The days alone may be negative. -/
def durationLiteral (micros : Int) : String :=
  let days := micros.fdiv Moment.microsPerDay
  let rest := micros.fmod Moment.microsPerDay
  let parts := [("days", days), ("seconds", rest / 1000000), ("microseconds", rest % 1000000)]
  call "datetime.timedelta"
    ((parts.filter fun p => p.2 != 0).map fun p => p.1 ++ "=" ++ toString p.2)

def zoneLiteral (offset : Int) : String :=
  if offset = 0 then "datetime.timezone.utc"
  else call "datetime.timezone" [durationLiteral offset]

/-- Date and time down to the last part that is not zero, or to the minute, and the
offset. -/
def momentLiteral (m : Moment) : String :=
  let c := m.clock
  let tail := if c.micro ≠ 0 then [c.second, c.micro] else if c.second ≠ 0 then [c.second] else []
  let parts := [m.date.year, m.date.month, m.date.day, c.hour, c.minute] ++ tail
  let zone := m.offset.map fun offset => "tzinfo=" ++ zoneLiteral offset
  call "datetime.datetime" (parts.map toString ++ zone.toList)

end Value

def Key.literal : Key → String
  | .null => "None"
  | .unset => "UNSET"
  | .bool true => "True"
  | .bool false => "False"
  | .int n => toString n
  | .float x => (Number.float x).text
  | .str s => Text.quoted s
  | .date d => Value.call "datetime.date" ([d.year, d.month, d.day].map toString)
  | .moment m => Value.momentLiteral m

namespace Value

mutual

def literal : Value → String
  | .list items => "[" ++ String.intercalate ", " (literalItems items) ++ "]"
  | .object fields => "\x7b" ++ String.intercalate ", " (literalFields fields) ++ "\x7d"
  | v => (v.key?.map Key.literal).getD ""

def literalItems : List Value → List String
  | [] => []
  | v :: rest => literal v :: literalItems rest

def literalFields : List (Key × Value) → List String
  | [] => []
  | (name, v) :: rest => (name.literal ++ ": " ++ literal v) :: literalFields rest

end

def display : Value → String
  | .str s => s
  | .date d => d.text
  | .moment m => m.display
  | v => literal v

end Value

def Key.display (k : Key) : String := k.value.display

end Vitae
