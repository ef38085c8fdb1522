import Vitae.CommandLine.Arguments
import Vitae.Disk.Path

/-! The commands, and the arguments that call for each. -/

namespace Vitae.CommandLine

inductive Command where
  /-- Asks for help, whatever else is given. -/
  | help
  | validate (document : Path) (upToDate log : Bool)
  | compile (document : Path) (target : String) (resume output : Option Path) (log verbose : Bool)
  /-- The base is a theme or a file. -/
  | merge (base : String) (overrides : Path) (output : Option Path) (log : Bool)
  | themes
deriving Repr

namespace Command

def helpOption : String × Effect := ("--help", .set "help" true)

def logOption : String × Effect := ("--log", .set "log" true)

def outputOption : String × Effect := ("--output", .take "output")

def validateGrammar : Grammar :=
  { long := [helpOption, logOption, ("--migrate", .set "migrate" true),
      ("--no-migrate", .set "migrate" false)]
    short := [] }

def compileGrammar : Grammar :=
  { long := [helpOption, logOption, outputOption, ("--target", .take "target"),
      ("--resume", .take "resume"), ("--verbose", .set "verbose" true)]
    short := [('t', .take "target"), ('r', .take "resume"), ('o', .take "output"),
      ('v', .set "verbose" true)] }

def mergeGrammar : Grammar :=
  { long := [helpOption, logOption, outputOption], short := [('o', .take "output")] }

def themesGrammar : Grammar := { long := [helpOption], short := [] }

/-- The path that an argument is. No path holds the character of code zero. -/
def pathOf? (argument : String) : Option Path :=
  let path := Path.ofText argument
  if path.hasZero then none else some path

/-- The path that an option gives, if it is given; none when it is no path. -/
def optionPath? (a : Arguments) (name : String) : Option (Option Path) :=
  match a.value? name with
  | none => some none
  | some argument => (pathOf? argument).map some

def ofValidate (a : Arguments) : Option Command :=
  match a.operands with
  | [document] => do
    some (.validate (← pathOf? document) (a.flag "migrate" true) (a.flag "log" false))
  | _ => none

def ofCompile (a : Arguments) : Option Command :=
  match a.operands with
  | [document] => do
    let document ← pathOf? document
    let resume ← optionPath? a "resume"
    let output ← optionPath? a "output"
    some (.compile document ((a.value? "target").getD "html") resume output (a.flag "log" false)
      (a.flag "verbose" false))
  | _ => none

def ofMerge (a : Arguments) : Option Command :=
  match a.operands with
  | [base, overrides] => do
    some (.merge base (← pathOf? overrides) (← optionPath? a "output") (a.flag "log" false))
  | _ => none

def ofThemes (a : Arguments) : Option Command := if a.operands.isEmpty then some .themes else none

/-- A command from its arguments. A call for help comes before what is missing. -/
def ofArguments (g : Grammar) (make : Arguments → Option Command) (arguments : List String) :
    Option Command := do
  let a ← g.read .empty arguments
  if a.flag "help" false then some .help else make a

def ofName (name : String) (arguments : List String) : Option Command :=
  match name with
  | "validate" => ofArguments validateGrammar ofValidate arguments
  | "compile" => ofArguments compileGrammar ofCompile arguments
  | "merge" => ofArguments mergeGrammar ofMerge arguments
  | "themes" => ofArguments themesGrammar ofThemes arguments
  | _ => none

/-- The command that arguments call for; none when they are no use of the program. -/
def parse (arguments : List String) : Option Command :=
  match arguments with
  | "--help" :: _ => some .help
  | "--" :: name :: rest => ofName name rest
  | name :: rest => ofName name rest
  | [] => none

end Command

end Vitae.CommandLine
