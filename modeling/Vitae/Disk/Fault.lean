import Vitae.Text.Quoted
import Vitae.Yaml.Fault

/-! Why a file cannot be used: because of where it is, or of what it holds. -/

namespace Vitae

/-- What is in the way of using a path. -/
inductive Obstacle where
  | missing
  /-- Something stands where a directory should be made. -/
  | taken
  /-- A file stands where a directory should be. -/
  | notADirectory
  | isADirectory
  | nameTooLong
  /-- The path holds the character of code zero. -/
  | zeroCharacter
deriving DecidableEq, Repr

namespace Obstacle

/-- The number and the words by which systems report an obstacle. -/
def report? : Obstacle → Option (Nat × String)
  | .missing => some (2, "No such file or directory")
  | .taken => some (17, "File exists")
  | .notADirectory => some (20, "Not a directory")
  | .isADirectory => some (21, "Is a directory")
  | .nameTooLong => some (36, "File name too long")
  | .zeroCharacter => none

end Obstacle

/-- An obstacle and the path that meets it, as a text. -/
structure DiskFault where
  obstacle : Obstacle
  path : String
deriving DecidableEq, Repr

def DiskFault.message (f : DiskFault) : String :=
  match f.obstacle.report? with
  | some (number, words) =>
    "[Errno " ++ toString number ++ "] " ++ words ++ ": " ++ Text.quoted f.path
  | none => "embedded null byte"

/-- Why the text of a file is no document. -/
inductive ContentFault where
  | unreadable (source : Yaml.Source) (fault : Yaml.Fault)
  /-- The text holds a lone value of this kind. -/
  | lone (kind : String)
  /-- The text holds a lone text that holds a lone value. -/
  | loneWithin
  /-- A field below this path has no key. -/
  | noKey (path : String)
  | tooDeep

def ContentFault.message : ContentFault → String
  | .unreadable source fault => source.faultText fault
  | .lone kind => "Invalid loaded object type: " ++ kind
  | .noKey path =>
    "Incompatible key type 'NoneType'\n    full_key: " ++ path ++ "\n    object_type=dict"
  | _ => ""

end Vitae
