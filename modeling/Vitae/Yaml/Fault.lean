import Vitae.Text.Quoted
import Vitae.Yaml.Cursor

/-! What can be wrong with a text of a document.

A fault says at which stage it was found, what was being read, from where on, and what
was found instead. Its text names the source, and for a text that is at hand shows the
line with the place. -/

namespace Vitae.Yaml

/-- What a fault is about: characters, tokens, their order, the nodes that they make or
the values that nodes stand for. -/
inductive Stage where
  | tokens
  | order
  | nodes
  | values
deriving DecidableEq, Repr

/-- A clause of a report, with the place that it is about. -/
structure Clause where
  text : String
  mark : Option Mark := none
deriving DecidableEq, Repr

inductive Fault where
  /-- A character that no text may hold, and where it stands. -/
  | unprintable (c : Char) (position : Nat)
  | marked (stage : Stage) (context : Option Clause) (problem : Clause)
  /-- The code of no character. Half of a pair has such a code: texts here are of characters alone,
  so one with a half is not read, and what a program makes of it that keeps halves is left open. -/
  | noCharacter (code : Nat)
  /-- Digits that are no number after all, or too many of them. -/
  | noNumber (base : Option Nat) (digits : String)
  /-- A word that stands for no value here: none of its explicit tag, or one that refers to other
  parts of its document or beyond it. Such references are not followed; what they give is left
  open. -/
  | noMember (word : String)
  /-- A collection that holds itself. -/
  | endless
deriving DecidableEq, Repr

namespace Fault

/-- A fault with what was being read and what was found. -/
def during (stage : Stage) (context : String) (start : Mark) (problem : String) (mark : Mark) :
    Fault :=
  .marked stage (some ⟨context, some start⟩) ⟨problem, some mark⟩

def simple (stage : Stage) (problem : String) (mark : Mark) : Fault :=
  .marked stage none ⟨problem, some mark⟩

/-- How many digits a whole number may have in base ten. -/
def longestNumber : Nat := 4300

def numberText (base : Nat) (digits : String) : String :=
  if base = 10 ∧ longestNumber < digits.length then
    "Exceeds the limit (" ++ toString longestNumber ++
      " digits) for integer string conversion: value has " ++ toString digits.length ++
      " digits; use sys.set_int_max_str_digits() to increase the limit"
  else "invalid literal for int() with base " ++ toString base ++ ": " ++ Text.quoted digits

end Fault

/-- Where a text comes from. -/
inductive Source where
  | file (name : String)
  /-- A text at hand, which reports show. -/
  | text (content : String)

namespace Source

def name : Source → String
  | .file name => name
  | .text _ => "<unicode string>"

/-- The first characters of one side of a line, or of a long one those that leave room
for the dots that stand for the rest. -/
def cut (side : List Char) : List Char × String :=
  if 37 ≤ side.length then (side.take 32, " ... ") else (side, "")

/-- The line around a place, cut on both sides, and the place below it. -/
def snippet (content : String) (mark : Mark) : String :=
  let cs := content.toList
  let before := ((cs.take mark.index).reverse.takeWhile fun c => !isBreak c)
  let behind := (cs.drop mark.index).takeWhile fun c => !isBreak c
  let (before, head) := cut before
  let (behind, tail) := cut behind
  let margin := String.ofList (List.replicate (4 + before.length + head.length) ' ')
  "    " ++ head ++ String.ofList (before.reverse ++ behind) ++ tail ++ "\n" ++ margin ++ "^"

def markText (s : Source) (m : Mark) : String :=
  let place :=
    "  in \"" ++ s.name ++ "\", line " ++ toString (m.line + 1) ++ ", column " ++
      toString (m.column + 1)
  match s with
  | .file _ => place
  | .text content => place ++ ":\n" ++ snippet content m

/-- A report: the context, its place unless the problem is at the same one, the
problem and its place. -/
def reportText (s : Source) (context : Option Clause) (problem : Clause) : String :=
  let place (mark : Option Mark) : List String := (mark.map s.markText).toList
  let opening :=
    match context with
    | none => []
    | some clause =>
      let here := clause.mark.filter fun m =>
        problem.mark.all fun p => m.line != p.line || m.column != p.column
      clause.text :: place here
  String.intercalate "\n" (opening ++ problem.text :: place problem.mark)

def faultText (s : Source) : Fault → String
  | .unprintable c position =>
    "unacceptable character #x" ++ Text.hex 4 c.toNat ++ ": special characters are not allowed\n" ++
      "  in \"" ++ s.name ++ "\", position " ++ toString position
  | .marked _ context problem => s.reportText context problem
  | .noCharacter code => if 0x10ffff < code then "chr() arg not in range(0x110000)" else ""
  | .noNumber none digits => "could not convert string to float: " ++ Text.quoted digits
  | .noNumber (some base) digits => Fault.numberText base digits
  | .noMember word => Text.quoted word
  | .endless => ""

end Source

end Vitae.Yaml
