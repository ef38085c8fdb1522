import Vitae.Log.Record
import Vitae.Value.Equality
import Vitae.Version

/-! Steps between versions, and the chains that they form.

A registry holds at most one step from each version, so from any version there is
one walk (`Registry.route`): it ends when the goal is met, at a version without a
step, or on returning to a version it has seen. Every step that the walk leaves
behind is dropped from those still ahead, which bounds it.

`Registry.migrate` runs the steps of a route over a document. A step may do
anything; the document that it returns counts only if it bears the version that
the step declares. -/

namespace Vitae

/-- One version increment. Versions are kept as they were written. -/
structure Step where
  origin : String
  target : String
  apply : Fields → Except Misuse Value

/-- The version a step declares for its result. -/
def Step.result (s : Step) : String := Version.normal s.target

/-- Why a walk does not meet its goal. -/
inductive Impasse where
  | noStep (version : String)
  | circular (version next : String)
deriving DecidableEq, Repr

def Impasse.text : Impasse → String
  | .noStep version => "no migration registered from '" ++ version ++ "'"
  | .circular version next =>
    "circular migration chain at '" ++ version ++ "' -> '" ++ next ++ "'"

namespace Migration

/-- A document marked with a version. -/
def stamped (version : String) (document : Fields) : Fields :=
  Keyed.set document "version" (.str version)

/-- Steps under the normal form of the version they start from. -/
structure Registry where
  steps : Keyed String Step

namespace Registry

def empty : Registry := ⟨[]⟩

/-- Adds a step; an earlier one from the same version gives way. -/
def register (r : Registry) (s : Step) : Registry :=
  ⟨Keyed.set r.steps (Version.normal s.origin) s⟩

def registerAll (r : Registry) (steps : List Step) : Registry := steps.foldl register r

def ofSteps (steps : List Step) : Registry := empty.registerAll steps

/-- The versions at either end of a step, each once, in ascending order. -/
def knownVersions (r : Registry) : List String :=
  let all := Keyed.keys r.steps ++ r.steps.map fun e => e.2.result
  let once := all.foldl (fun seen v => if seen.contains v then seen else v :: seen) []
  once.mergeSort fun a b => !decide (b < a)

/-- The rest of the walk from a version on, after the versions `seen`. -/
def walk (goal : String → Bool) (ahead : Keyed String Step) (seen : List String)
    (version : String) : Except Impasse (List String) :=
  if goal version then .ok [version]
  else
    match _found : Keyed.get? ahead version with
    | none => .error (.noStep version)
    | some step =>
      let next := step.result
      if (version :: seen).contains next then .error (.circular version next)
      else
        match walk goal (Keyed.erase ahead version) (version :: seen) next with
        | .ok rest => .ok (version :: rest)
        | .error e => .error e
termination_by ahead.length
decreasing_by exact Keyed.length_erase_lt _found

def route (r : Registry) (goal : String → Bool) (origin : String) :
    Except Impasse (List String) :=
  walk goal r.steps [] origin

/-- The versions from one to another, both included, in normal form. -/
def path (r : Registry) (origin target : String) : Except Failure (List String) :=
  match r.route (· == Version.normal target) (Version.normal origin) with
  | .ok versions => .ok versions
  | .error e => .error (.unsupported (.str origin) (.str target) (some e.text))

/-- The path between values that may be no texts. There are no steps from such a
value, so it only leads to what it is alike to, and no text leads to it. -/
def pathOf (r : Registry) (origin target : Value) : Except Failure (List Value) :=
  let unsupported (e : Impasse) : Failure := .unsupported origin target (some e.text)
  match origin with
  | .str s =>
    let goal (version : String) : Bool := (Version.normalValue target).alike (.str version)
    match r.route goal (Version.normal s) with
    | .ok versions => .ok (versions.map Value.str)
    | .error e => .error (unsupported e)
  | v =>
    if !v.isKey then .error (.misuse .notAKey)
    else if v.alike (Version.normalValue target) then .ok [v]
    else .error (unsupported (.noStep v.display))

/-- Whether there is a path. A value that cannot be looked up is still a misuse. -/
def canMigrate (r : Registry) (origin target : Value) : Except Misuse Bool :=
  match r.pathOf origin target with
  | .ok _ => .ok true
  | .error (.misuse m) => .error m
  | .error _ => .ok false

/-- Whether documents of a version can be compiled. -/
def supports (r : Registry) (version : Value) : Except Misuse Bool :=
  match version with
  | .str _ => r.canMigrate version (.str Version.current)
  | _ => .ok false

/-! ### Running a chain -/

/-- What a step produced, when it is not a document of the declared version. -/
def producedText (v : Value) : String :=
  match v with
  | .object fields => (Value.field fields "version").display
  | v => v.kind

/-- The fields of a step's result, if it bears the declared version. -/
def stamped? (version : String) (v : Value) : Option Fields :=
  match v with
  | .object fields =>
    match Value.field fields "version" with
    | .str s => if s = version then some fields else none
    | _ => none
  | _ => none

/-- The record of a step that was applied. -/
def stepText (origin target : String) : String := "Migrated DSL " ++ origin ++ " -> " ++ target

/-- Runs the steps from each version of a path but the last. -/
def run (r : Registry) (failure : String → Failure) :
    List String → Fields → Traced Fields
  | [], fields => pure fields
  | version :: later, fields =>
    match later, Keyed.get? r.steps version with
    | [], _ => pure fields
    | _ :: _, none => .fail (failure (Impasse.noStep version).text)
    | _ :: _, some step => do
      let produced ← Traced.lift (step.apply fields)
      match stamped? step.result produced with
      | none =>
        .fail (failure ("step " ++ version ++ " -> " ++ step.result ++ " produced version '" ++
          producedText produced ++ "'"))
      | some fields =>
        Traced.note .schema (stepText version step.result)
        r.run failure later fields

/-- The version that a value bears, null when it is no object or bears none. -/
def versionOf : Value → Value
  | .object fields => Value.field fields "version"
  | _ => .null

/-- Brings a document to a version. One that bears it already is returned as it is. -/
def migrate (r : Registry) (document target : Value) : Traced Value :=
  let version := versionOf document
  if version.alike target then pure document
  else
    match document, version with
    | .object fields, .str s => do
      let versions ← Traced.ofExcept (r.pathOf version target)
      let path := versions.map Value.display
      Traced.note .schema ("Migration path: " ++ String.intercalate " -> " path)
      let start := path.headD s
      let failure (reason : String) : Failure := .unsupported version target (some reason)
      let result ← r.run failure path (stamped start fields)
      pure (.object result)
    | _, _ =>
      .fail (.unsupported (.str version.literal) target (some "document has no version string"))

end Registry

end Migration

end Vitae
