import Vitae.Sorting.Search

/-! Merging two sorted runs into one.

A merge works from the ends of the runs that are nearer to its `Direction`, one item
at a time, until one run has given so many in a row that its patience is at an end.
Then it gallops: it takes as many items from either run in turn as go before the next
of the other, until both give few. Galloping that pays makes the next merge less patient,
galloping that does not makes it more patient.

For a comparison that is an order the result is the stable one, whatever the direction
and the patience. For others it depends on both, but it always holds the items
of the two runs (`merge_perm`). -/

namespace Vitae.Sorting
variable {α : Type}

inductive Direction where
  | forward
  | backward
deriving DecidableEq

/-- How many items galloping has to take at once to go on. -/
def worthwhile : Nat := 7

/-- What is left of the two runs, the next item first, and what is merged, the latest
item first. -/
structure Front (α : Type) where
  left : List α
  right : List α
  merged : List α

namespace Front

/-- The rest of a merge that needs no more comparisons: one run is used up, or there is
a single item in the run that has its last item at the far end. -/
def rest? (direction : Direction) (f : Front α) : Option (List α) :=
  let (kept, other) :=
    match direction with
    | .forward => (f.left, f.right)
    | .backward => (f.right, f.left)
  match kept, other with
  | kept, [] => some kept
  | [], other => some other
  | [x], other => some (other ++ [x])
  | _, _ => none

def takeLeft (f : Front α) (count : Nat) : Front α :=
  ⟨f.left.drop count, f.right, (f.left.take count).reverse ++ f.merged⟩

def takeRight (f : Front α) (count : Nat) : Front α :=
  ⟨f.left, f.right.drop count, (f.right.take count).reverse ++ f.merged⟩

/-- Whether the next item is one of the right run. -/
def isRight (direction : Direction) (before : α → α → Bool) (x y : α) : Bool :=
  match direction with
  | .forward => before y x
  | .backward => !before y x

/-- How many items of a run come next at once, when the items that are `low` stand at its
lower end. -/
def reach (direction : Direction) (low : α → Bool) (items : List α) : Nat :=
  let n := items.length
  match direction with
  | .forward => gallop (fun i => (items[i]?).any low) n 0
  | .backward => n - gallop (fun i => (items[n - 1 - i]?).any low) n (n - 1)

/-- Takes the items of the left run that come before the next of the right one. -/
def gallopLeft (direction : Direction) (before : α → α → Bool) (f : Front α) : Nat :=
  match f.right with
  | [] => 0
  | y :: _ => reach direction (fun x => !before y x) f.left

def gallopRight (direction : Direction) (before : α → α → Bool) (f : Front α) : Nat :=
  match f.left with
  | [] => 0
  | x :: _ => reach direction (fun y => before y x) f.right

end Front

/-- How a merge goes on: item by item, with the counts of those taken in a row from either
run, or galloping. -/
inductive Pace where
  | single (left right : Nat)
  | galloping

open Front in
/-- Merges on, for at most `fuel` steps, and returns the patience that is left. -/
def mergeOn (direction : Direction) (before : α → α → Bool) :
    (fuel : Nat) → Pace → (patience : Nat) → Front α → Front α × Nat
  | 0, _, patience, f => (f, patience)
  | fuel + 1, pace, patience, f =>
    if (f.rest? direction).isSome then (f, patience)
    else
      match pace with
      | .single left right =>
        match f.left, f.right with
        | x :: _, y :: _ =>
          let isRight := isRight direction before x y
          let f := if isRight then f.takeRight 1 else f.takeLeft 1
          let (left, right) := if isRight then (0, right + 1) else (left + 1, 0)
          let pace := if patience ≤ max left right then .galloping else .single left right
          mergeOn direction before fuel pace patience f
        | _, _ => (f, patience)
      | .galloping =>
        let left := gallopLeft direction before f
        let f := f.takeLeft left
        if (f.rest? direction).isSome then (f, patience)
        else
          let f := f.takeRight 1
          if (f.rest? direction).isSome then (f, patience)
          else
            let right := gallopRight direction before f
            let f := f.takeRight right
            if (f.rest? direction).isSome then (f, patience)
            else
              let f := f.takeLeft 1
              if (f.rest? direction).isSome then (f, patience)
              else if worthwhile ≤ max left right then
                mergeOn direction before fuel .galloping (max 1 (patience - 1)) f
              else mergeOn direction before fuel (.single 0 0) (patience + 1) f

/-- Merges two runs, of which the one with its last item at the far end gives that item
last, and the other its first item at once. -/
def mergeToward (direction : Direction) (before : α → α → Bool) (patience : Nat)
    (left right : List α) : List α × Nat :=
  let fuel := left.length + right.length
  let start : Front α :=
    match direction with
    | .forward => Front.takeRight ⟨left, right, []⟩ 1
    | .backward => Front.takeLeft ⟨left.reverse, right.reverse, []⟩ 1
  let (f, patience) := mergeOn direction before fuel (.single 0 0) patience start
  let rest := (f.rest? direction).getD (f.left ++ f.right)
  match direction with
  | .forward => (f.merged.reverse ++ rest, patience)
  | .backward => (rest.reverse ++ f.merged, patience)

/-- Merges two runs. Items of the left run that stay at its start, and items of the right
run that stay at its end, are left where they are; the shorter rest is the one kept
aside. -/
def merge (before : α → α → Bool) (patience : Nat) (left right : List α) : List α × Nat :=
  match right with
  | [] => (left, patience)
  | y :: _ =>
    let settled := gallop (fun i => (left[i]?).any fun x => !before y x) left.length 0
    let first := left.take settled
    match left.drop settled with
    | [] => (left ++ right, patience)
    | x :: more =>
      let last := (x :: more).getLastD x
      let count :=
        gallop (fun i => (right[i]?).any fun y => before y last) right.length (right.length - 1)
      if count = 0 then (left ++ right, patience)
      else
        let direction : Direction := if more.length < count then .forward else .backward
        let (merged, patience) :=
          mergeToward direction before patience (x :: more) (right.take count)
        (first ++ merged ++ right.drop count, patience)

end Vitae.Sorting
