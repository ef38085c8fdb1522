/-! Paths as texts and as places.

A path is a list of names from a root: the working directory, the top of the disk,
or the directory of the bundled themes. Its text has single slashes and no names
that stand for the same place; a name that leads upward is kept, because where it
leads depends on the disk. The top has a second text of two slashes, which is kept
too. -/

namespace Vitae

inductive Root where
  | working
  | top
  /-- The top, written with two slashes. -/
  | doubled
  /-- The directory of the bundled themes, which has a text of its own. -/
  | bundled
deriving DecidableEq, Repr

structure Path where
  root : Root
  names : List String
deriving DecidableEq, Repr

namespace Path

def bundledText : String := "<themes>"

def rootOf (text : String) : Root :=
  match (text.toList.takeWhile (· == '/')).length with
  | 0 => .working
  | 2 => .doubled
  | _ => .top

def ofText (text : String) : Path :=
  { root := rootOf text
    names := ((text.toList.splitOn '/').map String.ofList).filter fun name =>
      name ≠ "" && name ≠ "." }

def text (p : Path) : String :=
  let tail := String.intercalate "/" p.names
  match p.root with
  | .working => if p.names.isEmpty then "." else tail
  | .top => "/" ++ tail
  | .doubled => "//" ++ tail
  | .bundled => if p.names.isEmpty then bundledText else bundledText ++ "/" ++ tail

/-- A path below another. One that starts at the top stays where it is. -/
def below (p : Path) (text : String) : Path :=
  let q := ofText text
  if q.root = .working then { p with names := p.names ++ q.names } else q

/-- The last name of a path. -/
def name (p : Path) : String := (p.names.getLast?).getD ""

/-- The directory that a path is in, as a path. -/
def parent (p : Path) : Path := { p with names := p.names.dropLast }

/-- The names of a path where each that leads upward takes back the one before it. -/
def straight (names : List String) : List String :=
  names.foldl (fun done name => if name = ".." then done.dropLast else done ++ [name]) []

/-- The text of a path from the top on, for a working directory of this text. -/
def fullText (working : String) (p : Path) : String :=
  let q : Path := { p with names := straight p.names }
  match q.root with
  | .working => String.intercalate "/" (working :: q.names)
  | _ => q.text

/-- Whether a path holds the character of code zero, which no name may hold. -/
def hasZero (p : Path) : Bool := p.names.any fun name => name.contains '\x00'

/-! ### Suffixes -/

/-- Where the last point of a name stands, if it parts a stem from a suffix: not at
either end. -/
def suffixPoint? (name : String) : Option Nat :=
  let cs := name.toList
  match cs.reverse.findIdx? (· == '.') with
  | none => none
  | some fromEnd =>
    let place := cs.length - 1 - fromEnd
    if 0 < place && 0 < fromEnd then some place else none

def stem (name : String) : String :=
  match suffixPoint? name with
  | none => name
  | some place => String.ofList (name.toList.take place)

def suffix (name : String) : String :=
  match suffixPoint? name with
  | none => ""
  | some place => String.ofList (name.toList.drop place)

end Path

end Vitae
