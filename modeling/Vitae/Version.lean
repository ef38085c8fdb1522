import Vitae.Text.Digit
import Vitae.Value.Literal

/-! Version texts.

A version is two or three runs of decimal digits, of any script, with points
between them (`Version.isWellFormed`). The form with two runs is short for the one
with a zero at its end, and `Version.normal` writes it out. Normalising also takes
a text that ends in one line break for short; being well formed does not.

A document may bear any version that `isAdmitted` takes: there digits of the newest
scripts count too. Only a well-formed version is ever migrated. -/

namespace Vitae.Version

/-- The version that documents are compiled at. -/
def current : String := "1.1.0"

/-- The parts of a text between its points. -/
def parts : List Char → List (List Char)
  | [] => [[]]
  | c :: rest =>
    if c = '.' then [] :: parts rest
    else
      match parts rest with
      | [] => [[c]]
      | part :: later => (c :: part) :: later

def isRun (digit : Char → Bool) (cs : List Char) : Bool := !cs.isEmpty && cs.all digit

/-- Whether a text is so many runs of digits with points between them. -/
def hasRuns (digit : Char → Bool) (count : Nat) (cs : List Char) : Bool :=
  let found := parts cs
  found.length == count && found.all (isRun digit)

def isWellFormed (text : String) : Bool :=
  hasRuns Text.isDigit 2 text.toList || hasRuns Text.isDigit 3 text.toList

/-- Whether a document may bear a version. -/
def isAdmitted (text : String) : Bool :=
  hasRuns Text.isRecentDigit 2 text.toList || hasRuns Text.isRecentDigit 3 text.toList

theorem isRun_mono {digit digit' : Char → Bool} (h : ∀ c, digit c = true → digit' c = true)
    {cs : List Char} (hr : isRun digit cs = true) : isRun digit' cs = true := by
  simp only [isRun, Bool.and_eq_true, List.all_eq_true] at hr ⊢
  exact ⟨hr.1, fun c hc => h c (hr.2 c hc)⟩

theorem hasRuns_mono {digit digit' : Char → Bool} (h : ∀ c, digit c = true → digit' c = true)
    {count : Nat} {cs : List Char} (hr : hasRuns digit count cs = true) :
    hasRuns digit' count cs = true := by
  simp only [hasRuns, Bool.and_eq_true, List.all_eq_true] at hr ⊢
  exact ⟨hr.1, fun part hp => isRun_mono h (hr.2 part hp)⟩

/-- Every well-formed version is admitted. -/
theorem isAdmitted_of_isWellFormed {text : String} (h : isWellFormed text = true) :
    isAdmitted text = true := by
  have mono := @hasRuns_mono Text.isDigit Text.isRecentDigit
    fun c hc => Text.isRecentDigit_of_isDigit hc
  simp only [isWellFormed, isAdmitted, Bool.or_eq_true] at h ⊢
  exact h.imp mono mono

/-- The text without one line break at its end. -/
def withoutBreak (cs : List Char) : List Char :=
  match cs.reverse with
  | '\n' :: rest => rest.reverse
  | _ => cs

def isShort (text : String) : Bool :=
  hasRuns Text.isDigit 2 text.toList || hasRuns Text.isDigit 2 (withoutBreak text.toList)

def normal (text : String) : String := if isShort text then text ++ ".0" else text

/-- Values that are no texts are their own normal form. -/
def normalValue : Value → Value
  | .str s => .str (normal s)
  | v => v

end Vitae.Version
