import Vitae.Keyed

/-! Reading the arguments of a command.

A grammar lists the options of a command. `Grammar.read` sorts arguments into options
and operands: options may stand among the operands, a lone `--` ends them, the value of
a long option follows `=` or is the next argument, and short options share one argument.
An option that takes a value takes whatever comes next. -/

namespace Vitae.CommandLine

/-- What an option does: it sets a flag, or takes a value. -/
inductive Effect where
  | set (flag : String) (on : Bool)
  | take (name : String)
deriving DecidableEq, Repr

structure Grammar where
  /-- Options by their names, with two hyphens. -/
  long : List (String × Effect)
  /-- Options by their letters. -/
  short : List (Char × Effect)

/-- Arguments, sorted. -/
structure Arguments where
  flags : Keyed String Bool
  values : Keyed String String
  operands : List String
deriving Repr

namespace Arguments

def empty : Arguments := ⟨[], [], []⟩

def setFlag (a : Arguments) (flag : String) (on : Bool) : Arguments :=
  { a with flags := Keyed.set a.flags flag on }

def setValue (a : Arguments) (name value : String) : Arguments :=
  { a with values := Keyed.set a.values name value }

def addOperands (a : Arguments) (more : List String) : Arguments :=
  { a with operands := a.operands ++ more }

/-- Whether a flag is set, and whether it is when it is not given. -/
def flag (a : Arguments) (name : String) (unset : Bool) : Bool :=
  (Keyed.get? a.flags name).getD unset

def value? (a : Arguments) (name : String) : Option String := Keyed.get? a.values name

end Arguments

/-- How far one argument goes. -/
inductive Progress where
  | done (a : Arguments)
  /-- An option still takes its value. -/
  | waiting (a : Arguments) (name : String)

namespace Grammar

def longEffect? (g : Grammar) (name : String) : Option Effect :=
  (g.long.find? fun o => o.1 == name).map (·.2)

def shortEffect? (g : Grammar) (letter : Char) : Option Effect :=
  (g.short.find? fun o => o.1 == letter).map (·.2)

/-- An argument that names a long option, with the value that it carries. -/
def readLong (a : Arguments) (effect : Effect) (value : Option String) : Option Progress :=
  match effect, value with
  | .take name, some value => some (.done (a.setValue name value))
  | .take name, none => some (.waiting a name)
  | .set flag on, none => some (.done (a.setFlag flag on))
  | .set _ _, some _ => none

/-- The letters of short options. The rest behind a letter that takes a value is that
value. -/
def readShort (g : Grammar) (a : Arguments) : List Char → Option Progress
  | [] => some (.done a)
  | letter :: rest =>
    match g.shortEffect? letter with
    | none => none
    | some (.set flag on) => g.readShort (a.setFlag flag on) rest
    | some (.take name) =>
      if rest.isEmpty then some (.waiting a name)
      else some (.done (a.setValue name (String.ofList rest)))

/-- The name and the value of an argument, parted by the first `=`. -/
def parts (argument : String) : String × Option String :=
  let cs := argument.toList
  let name := cs.takeWhile (· != '=')
  match cs.drop name.length with
  | [] => (argument, none)
  | _ :: value => (String.ofList name, some (String.ofList value))

/-- An argument that starts with a hyphen. -/
def readOption (g : Grammar) (a : Arguments) (argument : String) : Option Progress :=
  let (name, value) := parts argument
  match g.longEffect? name with
  | some effect => readLong a effect value
  | none =>
    if argument.startsWith "--" then none else g.readShort a (argument.toList.drop 1)

def isOption (argument : String) : Bool :=
  argument.startsWith "-" && decide (1 < argument.length)

mutual

/-- Sorts arguments; none when an option is unknown or lacks its value. -/
def read (g : Grammar) (a : Arguments) : List String → Option Arguments
  | [] => some a
  | argument :: rest =>
    if argument = "--" then some (a.addOperands rest)
    else if isOption argument then
      match g.readOption a argument with
      | none => none
      | some (.done a) => g.read a rest
      | some (.waiting a name) => g.readValue a name rest
    else g.read (a.addOperands [argument]) rest

/-- Reads on where an option takes the next argument. -/
def readValue (g : Grammar) (a : Arguments) (name : String) : List String → Option Arguments
  | [] => none
  | value :: rest => g.read (a.setValue name value) rest

end

end Grammar

end Vitae.CommandLine
