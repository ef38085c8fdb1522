/-! Finding the place where a property of places ends.

The places of a sorted list start with those that an item goes behind. `halve` finds
the end of that start between two bounds. `gallop` finds it from a hint: it strides
away from the hint, twice as far each time, until it has passed the end, and halves
what it passed last. Where places with the property do not come first, both
still answer a place, which then depends on the places that were looked at. -/

namespace Vitae.Sorting

/-- The end of the places that hold, between two bounds. -/
def halve (holds : Nat → Bool) (low high : Nat) : Nat :=
  if low < high then
    let middle := low + (high - low) / 2
    if holds middle then halve holds (middle + 1) high else halve holds low middle
  else low
termination_by high - low

/-- Strides on while `more` says so: the last stride that did, and the first that did
not. None goes beyond the limit. -/
def stride (more : Nat → Bool) (limit last step : Nat) : Nat × Nat :=
  if step < limit then
    if more step then stride more limit step (2 * step + 1) else (last, step)
  else (last, limit)
termination_by limit - step

/-- The end of the places that hold, among the first `count`, looked for from a hint. -/
def gallop (holds : Nat → Bool) (count hint : Nat) : Nat :=
  if holds hint then
    let (last, step) := stride (fun s => holds (hint + s)) (count - hint) 0 1
    halve holds (hint + last + 1) (hint + step)
  else
    let (last, step) := stride (fun s => !holds (hint - s)) (hint + 1) 0 1
    halve holds (hint + 1 - step) (hint - last)

end Vitae.Sorting
