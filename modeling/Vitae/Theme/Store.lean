import Vitae.Disk.Basic
import Vitae.Log.Record
import Vitae.Value.Equality
import Vitae.Value.Literal

/-! Where themes come from.

A directory of themes holds one document per file and remembers what it has read:
`Directory.get` answers a theme that was read before without looking at the disk,
until `Directory.cleared`. Reading can fail after the directory has changed, so the
directory is returned beside the outcome. A caller may also list its themes itself
(`Source.listed`). -/

namespace Vitae.Theme

/-- The suffixes of theme files, in the order in which they are tried. -/
def suffixes : List String := [".yaml", ".yml"]

structure Directory where
  path : Path
  /-- The themes that were read, by identifier. -/
  cache : List (Value × Value)

namespace Directory

def ofPath (path : Path) : Directory := ⟨path, []⟩

def cached? (d : Directory) (id : Value) : Option Value :=
  (d.cache.find? fun entry => entry.1.alike id).map (·.2)

/-- Whether a theme was read. Lists and objects are no identifiers. -/
def isCached (d : Directory) (id : Value) : Except Misuse Bool :=
  if id.isKey then .ok (d.cached? id).isSome else .error .notAKey

/-- The first of some paths that is there. -/
def firstOf (disk : Disk) : List Path → Except DiskFault (Option Path)
  | [] => .ok none
  | p :: rest => do if ← disk.has p then .ok (some p) else firstOf disk rest

/-- The file of a theme. -/
def file? (d : Directory) (disk : Disk) (id : Value) : Except DiskFault (Option Path) :=
  firstOf disk (suffixes.map fun suffix => d.path.below (id.display ++ suffix))

def cleared (d : Directory) : Directory := { d with cache := [] }

/-- The identifiers of all themes on the disk, in order. Two files of one stem count
twice. -/
def ids (d : Directory) (disk : Disk) : Except DiskFault (List String) := do
  let names := (← disk.namesIn d.path).filter fun name => suffixes.contains (Path.suffix name)
  .ok ((names.map Path.stem).mergeSort fun a b => decide (a ≤ b))

/-- The record of a theme that was read from a file. -/
def loadedText (id : Value) (file : String) : String :=
  "Loaded theme '" ++ id.display ++ "' from " ++ file

/-- Reads a theme from the disk and remembers it. -/
def read (d : Directory) (disk : Disk) (id : Value) : Directory × Traced (Option Value) :=
  match d.file? disk id with
  | .error f => (d, .fail (.disk f))
  | .ok none =>
    (d, do
      Traced.note .theme ("No theme file for '" ++ id.display ++ "' in " ++ d.path.text)
      pure none)
  | .ok (some file) =>
    match disk.load file with
    | .error f => (d, .fail f)
    | .ok document =>
      ({ d with cache := (id, document) :: d.cache }, do
        Traced.note .theme (loadedText id file.text)
        pure (some document))

/-- The document of a theme, if there is one. -/
def get (d : Directory) (disk : Disk) (id : Value) : Directory × Traced (Option Value) :=
  if id.isKey then
    match d.cached? id with
    | some document => (d, pure (some document))
    | none => d.read disk id
  else (d, .fail (.misuse .notAKey))

end Directory

inductive Source where
  | directory (d : Directory)
  /-- Themes that a caller lists by name. One that is null is not there. -/
  | listed (documents : Fields)

namespace Source

def get (s : Source) (disk : Disk) (id : Value) : Source × Traced (Option Value) :=
  match s with
  | .directory d =>
    let (d, found) := d.get disk id
    (.directory d, found)
  | .listed documents =>
    match id.key? with
    | some key => (s, pure ((Keyed.get? documents key).filter fun document => !document.isNull))
    | none => (s, .fail (.misuse .notAKey))

/-- The directory that was searched, for a message. -/
def searched : Source → Option String
  | .directory d => some d.path.text
  | .listed _ => none

end Source

end Vitae.Theme
