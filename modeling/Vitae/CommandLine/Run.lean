import Vitae.Ast.Encoding
import Vitae.CommandLine.Command
import Vitae.CommandLine.Job
import Vitae.Compile
import Vitae.Json.Writer
import Vitae.Log.Session
import Vitae.Theme.Bundled
import Vitae.Theme.Merge
import Vitae.Theme.Store

/-! Running a command.

`run` is a function from a disk and arguments to an `Outcome`: the answer, the lines to
the user, the disk that the command leaves behind and the exit status. A command with a log opens a
session first and records into it; without one, records are dropped. -/

namespace Vitae.CommandLine

/-- What a command takes from where it runs. -/
structure Environment where
  stamp : Stamp
  /-- The time in the names of log directories. -/
  time : String
  around : Surroundings
  /-- The directory of themes. -/
  themes : Path

structure Outcome where
  /-- 0 for success, 1 for a failure, 2 for arguments that are no use of the program. -/
  status : Nat
  answer : String
  reports : List String
  disk : Disk
  /-- A failure that no command tells of. -/
  crash : Option Failure

/-! ### Parts of commands -/

/-- Failures of a document are told; all others are crashes. -/
def told : Failure → Option (List String)
  | .invalid headline errors => some [Failure.invalidText headline errors]
  | .unsupported origin target reason => some [Failure.unsupportedText origin target reason]
  | _ => none

def missingText (p : Path) : String := "File not found: " ++ p.text

def loadDocument (disk : Disk) (p : Path) : Job Value := do
  if ← Job.ofExcept ((disk.has p).mapError Failure.disk) then Job.ofExcept (disk.load p)
  else .refuse [missingText p]

/-- Prints a text, or saves it where an output is given. -/
def deliver (disk : Disk) (text : String) (output : Option Path) : Job Unit :=
  match output with
  | none => .print text
  | some p =>
    let text := text ++ "\n"
    match disk.create p (.text text) with
    | .error f => .crash (.disk f)
    | .ok _ => do
      .act (.save p text)
      .report ("✓ Saved: " ++ p.text)

/-! ### Commands -/

/-- A document of a named version is migrated first. -/
def migrated (document : Value) : Job Value :=
  match Migration.Registry.versionOf document with
  | .str _ => .ofTraced told (Migration.builtin.migrate document (.str Version.current))
  | _ => pure document

def validate (disk : Disk) (file : Path) (upToDate : Bool) : Job Unit := do
  let document ← loadDocument disk file
  let document ← if upToDate then migrated document else pure document
  match Validation.validate document with
  | .ok d => .print ("✓ Valid (version " ++ d.version ++ ")")
  | .error errors =>
    .ofTraced (fun _ => none) (.tell (Validation.records errors))
    .refuse (("✗ " ++ toString errors.length ++ " error(s)") :: errors.map FieldError.line)

/-- The resume data of a compilation, null without a file. -/
def loadResume (disk : Disk) (resume : Option Path) : Job Value :=
  match resume with
  | none => pure .null
  | some p => loadDocument disk p

def compileFile (env : Environment) (disk : Disk) (file : Path) (target : String)
    (resume output : Option Path) : Job Unit := do
  let document ← loadDocument disk file
  let data ← loadResume disk resume
  let ast ← Job.ofTraced told (compileBuiltin env.stamp document (.str target) data)
  let text ← Job.ofTraced told (.ofExcept (ast.text (some 2)))
  deliver disk text output

/-- A theme, or a document in a file. -/
def baseOf (env : Environment) (disk : Disk) (base : String) : Job Value := do
  let themes := Theme.Directory.ofPath env.themes
  let found ← Job.ofTraced (fun _ => none) (themes.get disk (.str base)).2
  match found with
  | some style => pure style
  | none => loadDocument disk (Path.ofText base)

def mergeFiles (env : Environment) (disk : Disk) (base : String) (overrides : Path)
    (output : Option Path) : Job Unit := do
  let base ← baseOf env disk base
  let overrides ← loadDocument disk overrides
  match base.merge overrides with
  | .ok merged => deliver disk (Json.text .document (.object merged)) output
  | .error m => .crash (.misuse m)

/-- The line of a theme: its name and the type of its layout. -/
def themeLine (id : String) (theme : Value) : Except Misuse String := do
  let layout ← ((Keyed.get? (← theme.fields) "layout").getD (.object [])).fields
  let type := (Keyed.get? layout "type").getD (.str "?")
  .ok (Session.column 12 id ++ " " ++ type.display)

def printThemes (disk : Disk) (d : Theme.Directory) : List String → Job Unit
  | [] => pure ()
  | id :: rest => do
    let (d, found) := d.get disk (.str id)
    let theme := (← Job.ofTraced (fun _ => none) found).getD .null
    match themeLine id theme with
    | .ok line => .print line
    | .error m => .crash (.misuse m)
    printThemes disk d rest

def listThemes (env : Environment) (disk : Disk) : Job Unit := do
  let d := Theme.Directory.ofPath env.themes
  match ← Job.ofExcept ((d.ids disk).mapError Failure.disk) with
  | [] => .report ("No themes found in " ++ env.themes.text)
  | ids => printThemes disk d ids

/-! ### Sessions -/

def logDirectory (env : Environment) (command : String) : Path :=
  Path.ofText ("outs/logs/" ++ command ++ "_" ++ env.time)

/-- The log session of a command, if it opens one. -/
def setup? : Command → Option (String × Session.Setup)
  | .validate document upToDate true =>
    some ("validate", Session.setupOf .schema .vivid
      [("DSL file", .str document.text), ("DSL version", .str Version.current),
       ("Migrate", .bool upToDate)] (.str "INFO"))
  | .compile document target resume _ log verbose =>
    if log || verbose then
      some ("compile", Session.setupOf .compile .vivid
        (Session.withTarget (.str target)
          [("DSL file", .str document.text),
           ("Resume data", .str ((resume.map Path.text).getD "none (preview)")),
           ("DSL version", .str Version.current)])
        (.str (if verbose then "DEBUG" else "INFO")))
    else none
  | .merge base overrides _ true =>
    some ("merge", Session.setupOf .theme .vivid
      [("Base", .str base), ("Overrides", .str overrides.text)] (.str "INFO"))
  | _ => none

/-- The work of a command, after its session is open. -/
def work (env : Environment) (disk : Disk) : Command → Job Unit
  | .help => pure ()
  | .validate document upToDate _ => validate disk document upToDate
  | .compile document target resume output _ _ =>
    compileFile env disk document target resume output
  | .merge base overrides output _ => mergeFiles env disk base overrides output
  | .themes => listThemes env disk

/-- What a command refuses before it opens a session. -/
def refusal? : Command → Option String
  | .compile _ target _ _ _ _ =>
    if (Target.ofValue? (.str target)).isSome then none
    else some ("Unknown target '" ++ target ++ "'. Available: html, pdf")
  | _ => none

/-! ### Outcomes -/

def Outcome.empty (status : Nat) (disk : Disk) : Outcome := ⟨status, "", [], disk, none⟩

/-- A disk with a text saved. What keeps it from being saved was found before. -/
def saved (disk : Disk) (p : Path) (text : String) : Disk :=
  (disk.create p (.text text)).toOption.getD disk

/-- What an act adds to an outcome. Records go to the session, if there is one. -/
def Outcome.add (session : Option Session) (o : Outcome) : Act → Outcome
  | .record r =>
    match session with
    | some s => { o with reports := o.reports ++ s.shown [.ofRecord r] }
    | none => o
  | .print text => { o with answer := o.answer ++ text ++ "\n" }
  | .report text => { o with reports := o.reports ++ [text] }
  | .save path text => { o with disk := saved o.disk path text }

def recordOf? : Act → Option Session.Entry
  | .record r => some (.ofRecord r)
  | _ => none

/-- The text of a session's log once the acts of a job are in it. -/
def logText (s : Session) (acts : List Act) : String :=
  String.join ((s.emit (acts.filterMap recordOf?)).lines.map (· ++ "\n"))

/-- An outcome whose session log is on the disk. -/
def Outcome.logged (session : Option Session) (acts : List Act) (o : Outcome) : Outcome :=
  match session with
  | some s => { o with disk := saved o.disk s.file (logText s acts) }
  | none => o

def Outcome.ofJob (session : Option Session) (disk : Disk) (job : Job Unit) : Outcome :=
  let opening :=
    match session with
    | some s => s.shown s.entries ++ ["Log: " ++ s.file.text]
    | none => []
  let start := { Outcome.empty 0 disk with reports := opening }
  let done := (job.acts.foldl (Outcome.add session) start).logged session job.acts
  match job.result with
  | .ok () => done
  | .error .refused => { done with status := 1 }
  | .error (.crashed f) => { done with status := 1, crash := some f }

/-- Opens a session and its file. -/
def openSession (env : Environment) (disk : Disk) (name : String) (setup : Session.Setup) :
    Except Failure (Session × Disk) := do
  let session ← (Session.start env.around (logDirectory env name) setup).mapError Failure.misuse
  let disk ← (disk.create session.file (.text "")).mapError Failure.disk
  .ok (session, disk)

def perform (env : Environment) (disk : Disk) (c : Command) : Outcome :=
  match refusal? c with
  | some text => { Outcome.empty 1 disk with reports := [text] }
  | none =>
    match setup? c with
    | none => .ofJob none disk (work env disk c)
    | some (name, setup) =>
      match openSession env disk name setup with
      | .ok (session, disk) => .ofJob (some session) disk (work env disk c)
      | .error f => { Outcome.empty 1 disk with crash := some f }

def run (env : Environment) (disk : Disk) (arguments : List String) : Outcome :=
  match Command.parse arguments with
  | some c => perform env disk c
  | none => .empty 2 disk

end Vitae.CommandLine
