import Vitae.Disk.Content
import Vitae.Disk.Path
import Vitae.Failure

/-! A disk, as far as the program looks at it.

A disk is a tree of directories and files, kept as the list of its places; a place is
the list of names that leads to it from the top. A path is followed name by name, and
every name but the last has to be that of a directory (`Disk.walk`). Operations fail as
those of a system do, with the path that they were asked for. -/

namespace Vitae

abbrev Location := List String

namespace Disk

inductive Node where
  | directory
  | file (content : Content)

end Disk

structure Disk where
  nodes : Keyed Location Disk.Node
  /-- The working directory, and the text that messages give it. -/
  working : Location
  workingText : String
  /-- The directory of the bundled themes. -/
  bundled : Location

namespace Disk

def nodeAt? (d : Disk) (place : Location) : Option Node :=
  if place.isEmpty then some .directory else Keyed.get? d.nodes place

def isDirectoryAt (d : Disk) (place : Location) : Bool :=
  match d.nodeAt? place with
  | some .directory => true
  | _ => false

def put (d : Disk) (place : Location) (node : Node) : Disk :=
  { d with nodes := Keyed.set d.nodes place node }

/-! ### Places -/

/-- How long a name and a path may be, in bytes. -/
def longestName : Nat := 255

def longestPath : Nat := 4095

def rootLocation (d : Disk) : Root → Location
  | .working => d.working
  | .top => []
  | .doubled => []
  | .bundled => d.bundled

/-- The place that a name leads to from a directory. -/
def step (d : Disk) (place : Location) (name : String) : Except Obstacle Location :=
  if !d.isDirectoryAt place then .error .notADirectory
  else if name = ".." then .ok place.dropLast
  else if longestName < name.utf8ByteSize then .error .nameTooLong
  else if (d.nodeAt? (place ++ [name])).isSome then .ok (place ++ [name])
  else .error .missing

def walk (d : Disk) (place : Location) (names : List String) : Except Obstacle Location :=
  names.foldlM d.step place

/-- Why no system call takes a path. -/
def refusal? (p : Path) : Option Obstacle :=
  if p.hasZero then some .zeroCharacter
  else if longestPath < p.text.utf8ByteSize then some .nameTooLong
  else none

def locate (d : Disk) (p : Path) : Except Obstacle Location :=
  match refusal? p with
  | some obstacle => .error obstacle
  | none => d.walk (d.rootLocation p.root) p.names

/-- The place of a path, if there is one. Only a name that is too long is a fault. -/
def find? (d : Disk) (p : Path) : Except DiskFault (Option Location) :=
  match d.locate p with
  | .ok place => .ok (some place)
  | .error .nameTooLong => .error ⟨.nameTooLong, p.text⟩
  | .error _ => .ok none

/-- Whether there is a file or a directory. -/
def has (d : Disk) (p : Path) : Except DiskFault Bool := (d.find? p).map Option.isSome

/-- The names in a directory; none if there is no such directory. -/
def namesIn (d : Disk) (p : Path) : Except DiskFault (List String) := do
  match ← d.find? p with
  | none => .ok []
  | some place =>
    if !d.isDirectoryAt place then .ok []
    else
      .ok (d.nodes.filterMap fun n =>
        if n.1.dropLast == place && !n.1.isEmpty then n.1.getLast? else none)

/-- What a file holds. A fault names the whole path. -/
def content (d : Disk) (p : Path) : Except DiskFault Content :=
  let fault (obstacle : Obstacle) : DiskFault := ⟨obstacle, p.fullText d.workingText⟩
  match d.locate p with
  | .error obstacle => .error (fault obstacle)
  | .ok place =>
    match d.nodeAt? place with
    | some (.file content) => .ok content
    | some .directory => .error (fault .isADirectory)
    | none => .error (fault .missing)

/-- The document in a file, as far as it has no references in it (`Content.asDocument`). -/
def load (d : Disk) (p : Path) : Except Failure Value := do
  let content ← (d.content p).mapError Failure.disk
  (content.asDocument (p.fullText d.workingText)).mapError Failure.content

/-! ### Changes -/

/-- The directory for a new entry at the end of a path, and the name of the entry, none
where the path leads to a directory by itself. -/
def slot (d : Disk) (p : Path) : Except Obstacle (Location × Option String) := do
  let parent ← d.locate p.parent
  if !d.isDirectoryAt parent then .error .notADirectory
  else
    match p.names.getLast? with
    | none => .ok (parent, none)
    | some name =>
      if name = ".." then .ok (parent, none)
      else if longestName < name.utf8ByteSize then .error .nameTooLong
      else .ok (parent, some name)

/-- Writes a file in a directory that is there. -/
def save (d : Disk) (p : Path) (content : Content) : Except DiskFault Disk :=
  let fault (obstacle : Obstacle) : DiskFault := ⟨obstacle, p.text⟩
  match refusal? p, d.slot p with
  | some obstacle, _ => .error (fault obstacle)
  | none, .error obstacle => .error (fault obstacle)
  | none, .ok (_, none) => .error (fault .isADirectory)
  | none, .ok (parent, some name) =>
    let place := parent ++ [name]
    if d.isDirectoryAt place then .error (fault .isADirectory)
    else .ok (d.put place (.file content))

def delete (d : Disk) (p : Path) : Except DiskFault Disk :=
  let fault (obstacle : Obstacle) : DiskFault := ⟨obstacle, p.text⟩
  match d.locate p with
  | .error obstacle => .error (fault obstacle)
  | .ok place =>
    if d.isDirectoryAt place then .error (fault .isADirectory)
    else .ok { d with nodes := Keyed.erase d.nodes place }

/-- Makes one directory, in one that is there. -/
def makeDirectory (d : Disk) (p : Path) : Except Obstacle Disk := do
  let (parent, name) ← d.slot p
  match name with
  | none => .error .taken
  | some name =>
    let place := parent ++ [name]
    if (d.nodeAt? place).isSome then .error .taken else .ok (d.put place .directory)

/-- A disk on which a directory was made, or where it is there already. -/
def orThere (d : Disk) (p : Path) (made : Except Obstacle Disk) : Except DiskFault Disk :=
  match made with
  | .ok d => .ok d
  | .error obstacle =>
    match d.locate p with
    | .ok place => if d.isDirectoryAt place then .ok d else .error ⟨obstacle, p.text⟩
    | .error _ => .error ⟨obstacle, p.text⟩

/-- Makes a directory and those on the way to it. The way is at most `depth` names long. -/
def makeDirectories (d : Disk) (depth : Nat) (p : Path) : Except DiskFault Disk :=
  match d.makeDirectory p, depth with
  | .error .missing, depth + 1 => do
    let d ← d.makeDirectories depth p.parent
    d.orThere p (d.makeDirectory p)
  | made, _ => d.orThere p made

/-- Writes a file, and makes the directories on the way to it. -/
def create (d : Disk) (p : Path) (content : Content) : Except DiskFault Disk := do
  (← d.makeDirectories p.names.length p.parent).save p content

/-- What another disk does not have, or has otherwise. -/
def changesFrom (d before : Disk) : List (Location × Node) :=
  d.nodes.filter fun (place, node) =>
    match before.nodeAt? place, node with
    | some .directory, .directory => false
    | some (.file (.text old)), .file (.text new) => old ≠ new
    | some (.file (.document _)), .file (.document _) => false
    | _, _ => true

end Disk

end Vitae
