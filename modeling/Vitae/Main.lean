import Std.Time.DateTime.Timestamp
import Vitae.CommandLine.Run

/-! The program: looks at the part of the disk that a command may use, runs the command
on it, and shows and saves what comes of it. All that is decided is decided in
`CommandLine.run`. -/

namespace Vitae.CommandLine

/-! ### Looking at the disk -/

def textOf (place : Location) : String := "/" ++ String.intercalate "/" place

/-- The names of the files in a directory, if it is one. -/
def entriesOf? (place : Location) : IO (Option (List String)) := do
  try
    let here ← IO.currentDir
    let entries ← (here / textOf place).readDir
    return some (entries.toList.map (·.fileName))
  catch _ => return none

/-- The text of a file, if there is one. -/
def textAt? (place : Location) : IO (Option String) := do
  try
    return some (← IO.FS.readFile (textOf place))
  catch
    | .noFileOrDirectory .. => return none
    | .inappropriateType .. => return none
    | .invalidArgument .. => return none
    | e => throw e

/-- What stands at a place. -/
def nodeAt? (place : Location) : IO (Option Disk.Node) := do
  if (← entriesOf? place).isSome then return some .directory
  return (← textAt? place).map fun text => .file (.text text)

/-- A disk with what stands at a place. -/
def noted (disk : Disk) (place : Location) : IO Disk := do
  if (disk.nodeAt? place).isSome then return disk
  return ((← nodeAt? place).map (disk.put place)).getD disk

/-- A disk with all places on the way of a path. -/
def notedWay (disk : Disk) (p : Path) : IO Disk := do
  let mut disk := disk
  let mut place := disk.rootLocation p.root
  for name in p.names do
    place := if name = ".." then place.dropLast else place ++ [name]
    disk ← noted disk place
  return disk

/-- The paths that a command may look at. -/
def pathsOf (env : Environment) (c : Command) : List Path :=
  let log := (setup? c).toList.map fun setup => logDirectory env setup.1
  let named :=
    match c with
    | .help => []
    | .validate document _ _ => [document]
    | .compile document _ resume output _ _ => document :: resume.toList ++ output.toList
    | .merge base overrides output _ =>
      let themes := Theme.suffixes.map fun suffix => env.themes.below (base ++ suffix)
      Path.ofText base :: overrides :: themes ++ output.toList
    | .themes => [env.themes]
  named ++ log

/-- The disk, as far as a command may look at it. -/
def diskFor (env : Environment) (working : Path) (command : Option Command) : IO Disk := do
  let mut disk := Theme.diskWithThemes working.names working.text
  disk ← notedWay disk working
  for p in (command.map (pathsOf env)).getD [] do disk ← notedWay disk p
  if let some .themes := command then
    let names ← (disk.locate env.themes).toOption.bindM entriesOf?
    for name in names.getD [] do disk ← notedWay disk (env.themes.below name)
  return disk

/-! ### The clock -/

def twoDigits (n : Nat) : String := if n < 10 then "0" ++ toString n else toString n

/-- The time as an ISO text, and as the name of a directory. -/
def clockTexts : IO (String × String) := do
  let now ← Std.Time.Timestamp.now
  let millis := now.toMillisecondsSinceUnixEpoch.val.toNat
  let seconds := millis / 1000
  let date := (Date.ofCount? (seconds / 86400 + 719163)).map Date.text
  let day := date.getD "1970-01-01"
  let clock := [seconds % 86400 / 3600, seconds % 3600 / 60, seconds % 60].map twoDigits
  let fraction := String.ofList ((toString (1000 + millis % 1000)).toList.drop 1)
  return (day ++ "T" ++ String.intercalate ":" clock ++ "." ++ fraction ++ "Z",
    String.join (day.splitOn "-") ++ "_" ++ String.join clock)

/-- A time in milliseconds with one place. -/
def millisText (nanos : Nat) : String :=
  let tenths := (nanos + 50000) / 100000
  toString (tenths / 10) ++ "." ++ toString (tenths % 10) ++ "ms"

def environment : IO Environment := do
  let themes := (← IO.getEnv "RESUMARK_THEMES_PATH").map Path.ofText
  let (generatedAt, time) ← clockTexts
  return {
    stamp := ⟨generatedAt, millisText 0⟩
    time := time
    around := ⟨"", (← IO.currentDir).toString, "Lean 4"⟩
    themes := themes.getD ⟨.bundled, []⟩ }

/-- Runs a command and times it. A command only reads its disk, so one that succeeded is
run again to show the time that it took. -/
def timed (env : Environment) (disk : Disk) (arguments : List String) : IO Outcome := do
  let start ← IO.monoNanosNow
  let first ← IO.lazyPure fun _ => run env disk arguments
  let stop ← if first.status = 0 then IO.monoNanosNow else pure start
  let stamp := { env.stamp with elapsed := millisText (stop - start) }
  IO.lazyPure fun _ => run { env with stamp := stamp } disk arguments

/-- Makes the directory or writes the file that stands at a place of a disk. -/
def saveNode (place : Location) : Disk.Node → IO Unit
  | .directory => IO.FS.createDirAll (textOf place)
  | .file (.text text) => IO.FS.writeFile (textOf place) text
  | .file (.document _) => pure ()

/-- Shows and saves what came of a command. -/
def deliverOutcome (before : Disk) (outcome : Outcome) : IO Unit := do
  for (place, node) in outcome.disk.changesFrom before do saveNode place node
  for line in outcome.reports do IO.eprintln line
  IO.print outcome.answer
  if let some failure := outcome.crash then IO.eprintln failure.message

def execute (arguments : List String) : IO UInt32 := do
  let here ← environment
  let around := { here.around with command := String.intercalate " " arguments }
  let env := { here with around := around }
  let disk ← diskFor env (Path.ofText around.workingDirectory) (Command.parse arguments)
  let outcome ← timed env disk arguments
  deliverOutcome disk outcome
  return UInt32.ofNat outcome.status

end Vitae.CommandLine

def main (arguments : List String) : IO UInt32 := Vitae.CommandLine.execute arguments
