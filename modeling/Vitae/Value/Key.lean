import Vitae.Calendar.Moment
import Vitae.Keyed
import Vitae.Number.Decimal

/-! Keys of objects.

A key is a text as a rule, but any value that holds no others can be one. Two keys
are the same, for `==`, when they have one identity: numbers and truth values by
their place on the number line, moments by their instant. An object therefore has
one entry for `1`, `1.0` and true. -/

namespace Vitae

inductive Key where
  | null
  | unset
  | bool (b : Bool)
  | int (n : Int)
  | float (x : Binary64)
  | str (s : String)
  | date (d : Date)
  | moment (m : Moment)
deriving Inhabited

namespace Key

/-- What a key is, whichever kind holds it. -/
inductive Identity where
  | null
  | unset
  | number (place : Place)
  | notANumber
  | text (s : String)
  | date (d : Date)
  | moment (standing : Moment.Standing)
deriving DecidableEq

def ofNumber (n : Number) : Identity :=
  match n.place? with
  | some place => .number place
  | none => .notANumber

def identity : Key → Identity
  | .null => .null
  | .unset => .unset
  | .bool b => ofNumber (.int b.toInt)
  | .int n => ofNumber (.int n)
  | .float x => ofNumber (.float x)
  | .str s => .text s
  | .date d => .date d
  | .moment m => .moment m.standing

instance : BEq Key := ⟨fun a b => a.identity == b.identity⟩

theorem beq_eq (a b : Key) : (a == b) = (a.identity == b.identity) := rfl

instance : EquivBEq Key where
  rfl {a} := beq_self_eq_true a.identity
  symm {a b} hab := by
    rw [beq_eq, beq_iff_eq] at hab ⊢
    exact hab.symm
  trans {a b c} hab hbc := by
    rw [beq_eq, beq_iff_eq] at hab hbc ⊢
    exact hab.trans hbc

instance : Coe String Key := ⟨.str⟩

@[simp] theorem str_beq_str (a b : String) : (Key.str a == Key.str b) = (a == b) := by
  rw [Bool.eq_iff_iff]
  simp [beq_eq, identity]

def text? : Key → Option String
  | .str s => some s
  | _ => none

/-- Not-a-number, which differs from itself where values are compared. -/
def isNaN : Key → Bool
  | .float .nan => true
  | _ => false

end Key

end Vitae
