import Vitae.Value.Basic

/-! Equality of values.

`Value.alike` compares by meaning: a whole number, a fraction and a truth value
are alike when their numbers are, at every depth, and the order of an object's
fields does not matter. Lookups by identifier use it. -/

namespace Vitae

namespace Value

/-- The number a value stands for in a comparison; a truth value is one or zero. -/
def comparable? : Value → Option Number
  | .bool b => some (.int b.toInt)
  | .int n => some (.int n)
  | .float x => some (.float x)
  | _ => none

/-- Comparison of values that hold no others. -/
def alikeLeaf : Value → Value → Bool
  | .null, .null => true
  | .unset, .unset => true
  | .str a, .str b => a == b
  | .date a, .date b => a == b
  | .moment a, .moment b => a.same b
  | a, b =>
    match a.comparable?, b.comparable? with
    | some m, some n => m.same n
    | _, _ => false

mutual

def alike : Value → Value → Bool
  | .list xs, .list ys => alikeItems xs ys
  | .object xs, .object ys => xs.length == ys.length && alikeFields xs ys
  | a, b => alikeLeaf a b

def alikeItems : List Value → List Value → Bool
  | [], [] => true
  | x :: xs, y :: ys => alike x y && alikeItems xs ys
  | _, _ => false

/-- Whether every field on the left has one alike on the right. -/
def alikeFields : List (Key × Value) → List (Key × Value) → Bool
  | [], _ => true
  | (name, x) :: xs, ys =>
    (match Keyed.get? ys name with
      | some y => alike x y
      | none => false) && alikeFields xs ys

end

end Value

end Vitae
