import Vitae.Sorting.Merge

/-! Sorting by runs.

`sortBy` sorts by a comparison that need not be an order: a number that is not one
stands neither before nor after any other. The list is read as runs. A run is as long as
its items stay in order, or as each goes before the one in front of it, which is turned
around; a short one is filled up by insertion behind the items that an item does not go
before. Runs wait on a stack, and two neighbours are merged once their place in the whole
list says so (`power`).

An order on the items leaves one stable result, so how the runs are found and merged
shows only where there is none. -/

namespace Vitae.Sorting
variable {α : Type}

/-! ### Finding a run -/

/-- The items that continue a run, and those behind them. -/
def runOn (continues : α → α → Bool) (last : α) : List α → List α × List α
  | [] => ([], [])
  | x :: rest =>
    if continues last x then
      let (run, later) := runOn continues x rest
      (x :: run, later)
    else ([], x :: rest)

/-- The run that a list starts with, in rising order, and the items behind it. -/
def firstRun (before : α → α → Bool) : List α → List α × List α
  | [] => ([], [])
  | [x] => ([x], [])
  | x :: y :: rest =>
    if before y x then
      let (run, later) := runOn (fun last next => before next last) y rest
      ((x :: y :: run).reverse, later)
    else
      let (run, later) := runOn (fun last next => !before next last) y rest
      (x :: y :: run, later)

/-- Puts an item behind the sorted ones that it does not go before. -/
def insert (before : α → α → Bool) (sorted : List α) (x : α) : List α :=
  let place := halve (fun i => (sorted[i]?).any fun y => !before x y) 0 sorted.length
  sorted.take place ++ x :: sorted.drop place

/-- The run that a list starts with, filled up to a least length. -/
def longRun (before : α → α → Bool) (least : Nat) (items : List α) : List α × List α :=
  let (run, later) := firstRun before items
  let missing := least - run.length
  ((later.take missing).foldl (insert before) run, later.drop missing)

/-- The least length of a run, at most 64 and close to a power of two of them in a list
of this length. -/
def leastRun (count : Nat) : Nat := go count 0 count
where
  go : Nat → Nat → Nat → Nat
    | 0, odd, n => n + odd
    | fuel + 1, odd, n => if n < 64 then n + odd else go fuel (max odd (n % 2)) (n / 2)

/-! ### The stack -/

/-- A run that waits for its merge. -/
structure Run (α : Type) where
  items : List α
  /-- Where the run starts in the list. -/
  start : Nat
  /-- How deep the border to the next run lies. -/
  power : Nat

/-- How deep the border between two runs lies: the first binary digit in which their
middles differ, as parts of the whole. All three are given twice as large. -/
def depth (fuel total left right : Nat) : Nat :=
  match fuel with
  | 0 => 0
  | fuel + 1 =>
    if total ≤ left then 1 + depth fuel total (2 * (left - total)) (2 * (right - total))
    else if total ≤ right then 1
    else 1 + depth fuel total (2 * left) (2 * right)

def power (total : Nat) (r : Run α) (next : Nat) : Nat :=
  let count := r.items.length
  let left := 2 * r.start + count
  depth (2 * total) total left (left + count + next)

/-- Two neighbours merged, and the patience after that. -/
def Run.join (before : α → α → Bool) (patience : Nat) (left right : Run α) : Run α × Nat :=
  let (items, patience) := merge before patience left.items right.items
  ({ left with items := items }, patience)

/-- Merges the last run with those before it while their border lies deeper than the
next one. -/
def settle (before : α → α → Bool) (depth : Nat) (patience : Nat) (last : Run α) :
    List (Run α) → List (Run α) × Nat
  | [] => ([{ last with power := depth }], patience)
  | r :: earlier =>
    if depth < r.power then
      let (joined, patience) := r.join before patience last
      settle before depth patience joined earlier
    else ({ last with power := depth } :: r :: earlier, patience)

/-- Merges all runs, the last ones first unless the one before them is shorter. -/
def collapse (before : α → α → Bool) (patience : Nat) : List (Run α) → List α
  | [] => []
  | [r] => r.items
  | last :: r :: [] => (r.join before patience last).1.items
  | last :: r :: s :: earlier =>
    if s.items.length < last.items.length then
      let (joined, patience) := s.join before patience r
      collapse before patience (last :: joined :: earlier)
    else
      let (joined, patience) := r.join before patience last
      collapse before patience (joined :: s :: earlier)
termination_by runs => runs.length

/-- Reads on, run by run, for at most `fuel` runs. -/
def readRuns (before : α → α → Bool) (total : Nat) :
    (fuel patience start : Nat) → List (Run α) → List α → List α
  | 0, patience, start, runs, items => collapse before patience (⟨items, start, 0⟩ :: runs)
  | fuel + 1, patience, start, runs, items =>
    if items.isEmpty then collapse before patience runs
    else
      let (run, later) := longRun before (leastRun total) items
      let (runs, patience) :=
        match runs with
        | [] => ([], patience)
        | last :: earlier => settle before (power total last run.length) patience last earlier
      readRuns before total fuel patience (start + run.length) (⟨run, start, 0⟩ :: runs) later

def sortBy (before : α → α → Bool) (items : List α) : List α :=
  readRuns before items.length items.length worthwhile 0 [] items

end Vitae.Sorting
