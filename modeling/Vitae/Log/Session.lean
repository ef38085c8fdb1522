import Vitae.Disk.Path
import Vitae.Log.Colors
import Vitae.Value.Literal

/-! Log sessions.

A session writes its records to a file, from `DEBUG` on, and shows them on the
console from a threshold on. It opens with a header that says where it comes from:
program and name, the surroundings, and the facts that are known. `Session.lines` and
`Session.shown` are functions of the entries alone, so a session is what was recorded. -/

namespace Vitae

/-- A level of an entry: a named one, or a severity without a name. -/
inductive Rank where
  | named (level : Level)
  | numbered (severity : Nat)
deriving DecidableEq, Repr

namespace Rank

def label : Rank → String
  | .named level => level.name
  | .numbered severity => "Level " ++ toString severity

def severity : Rank → Nat
  | .named level => level.severity
  | .numbered severity => severity

def ofInt (n : Int) : Except Misuse Rank :=
  if n < 0 then .error (.negativeLevel n) else .ok (.numbered n.toNat)

/-- The rank that a value names, or is as a number. -/
def ofValue : Value → Except Misuse Rank
  | .str name =>
    match Level.ofName? name with
    | some level => .ok (.named level)
    | none => .error (.unknownLevel name)
  | .int n => ofInt n
  | .bool b => ofInt b.toInt
  | _ => .error .notALevel

end Rank

/-- What a session takes from its surroundings. -/
structure Surroundings where
  command : String
  workingDirectory : String
  runtime : String

namespace Session

structure Entry where
  rank : Rank
  message : String
deriving DecidableEq, Repr

def Entry.ofRecord (r : Record) : Entry := ⟨.named r.level, r.message⟩

def program : String := "resumark 0.1.0"

/-- The lines of a header. Facts that are null are left out. -/
def headerLines (s : Surroundings) (name : String) (facts : Fields) : List String :=
  [program ++ " [" ++ name ++ "]",
   "Command: " ++ s.command,
   "Working directory: " ++ s.workingDirectory,
   "Python: " ++ s.runtime] ++
    (facts.filter fun f => !f.2.isNull).map fun f => f.1.display ++ ": " ++ f.2.display

def rule : String := String.ofList (List.replicate 80 '=')

/-- The entries that open a session. -/
def header (s : Surroundings) (name : String) (facts : Fields) : List Entry :=
  (rule :: headerLines s name facts ++ [rule]).map fun line => ⟨.named .debug, line⟩

/-- Fills a label up to the width of a column. -/
def column (width : Nat) (label : String) : String :=
  label ++ String.ofList (List.replicate (width - label.length) ' ')

def labelWidth : Nat := 7

end Session

structure Session where
  file : Path
  /-- The least severity that the console shows. -/
  threshold : Nat
  colors : LevelColors
  entries : List Session.Entry

namespace Session

/-- How a session is set up. -/
structure Setup where
  /-- The name of the session, and of its file. -/
  name : String
  facts : Fields
  palette : LevelColors
  policy : Fields
  threshold : Value

def start (around : Surroundings) (directory : Path) (setup : Setup) : Except Misuse Session := do
  let colors ← LevelColors.layer setup.palette setup.policy
  let threshold ← Rank.ofValue setup.threshold
  .ok
    { file := directory.below (setup.name ++ ".log")
      threshold := threshold.severity
      colors := colors
      entries := header around setup.name setup.facts }

def emit (s : Session) (entries : List Entry) : Session :=
  { s with entries := s.entries ++ entries }

def fileText (e : Entry) : String := column labelWidth e.rank.label ++ " | " ++ e.message

def consoleText (colors : LevelColors) (e : Entry) : String :=
  let codes := (Keyed.get? colors e.rank.label).getD ""
  let paint (text : String) : String := codes ++ text ++ Markup.reset
  paint (column labelWidth e.rank.label) ++ " | " ++ paint e.message

/-- The lines of the file. A message of several lines takes as many. -/
def lines (s : Session) : List String :=
  (s.entries.filter fun e => decide (Level.debug.severity ≤ e.rank.severity)).flatMap fun e =>
    (fileText e).splitOn "\n"

/-- The texts on the console. -/
def shown (s : Session) (entries : List Entry) : List String :=
  (entries.filter fun e => decide (s.threshold ≤ e.rank.severity)).map (consoleText s.colors)

/-! ### Areas -/

def nameOf : Area → String
  | .schema => "schema"
  | .compile => "compile"
  | .theme => "theme"

/-- The colours of an area: what is watched there stands out. -/
def policyOf : Area → Fields
  | .schema => [("WARNING", .str "<bold><yellow>")]
  | .compile => [("INFO", .str "<cyan>")]
  | .theme => [("INFO", .str "<blue>")]

/-- The facts of a compilation, with the target in front. -/
def withTarget (target : Value) (facts : Fields) : Fields :=
  Keyed.setAll [("Target", target)] facts

def setupOf (area : Area) (palette : LevelColors) (facts : Fields) (threshold : Value) : Setup :=
  ⟨nameOf area, facts, palette, policyOf area, threshold⟩

end Session

end Vitae
