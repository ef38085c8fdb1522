import Vitae.Proofs.Marks
import Vitae.Section.Override

/-! Where items stand under overrides.

A list of items can hold one twice, and overrides can make two alike, so an item is told by its
position in the list. `Override.arranged` has the items that stay, with their positions, in the
order in which they are shown, and `Override.applyAll_eq_map` says that they are. This holds for
keys of every kind, those that are no number among them. -/

namespace Vitae.Override

/-- Elements in the order in which their entries are sorted. -/
def sortedAs {α : Type} (f : α → Entry) (found : List α) : List α :=
  if found.all fun a => isPlaced (f a) then found.mergeSort fun a b => !before (f b) (f a)
  else Sorting.sortBy (Sorting.through f before) found

theorem sorted_map {α : Type} (f : α → Entry) (found : List α) :
    sorted (found.map f) = (sortedAs f found).map f := by
  have hall : (found.map f).all isPlaced = found.all fun a => isPlaced (f a) := List.all_map
  rw [sorted, sortedAs, hall]
  split
  · symm
    exact List.map_mergeSort fun _ _ _ _ => rfl
  · exact Sorting.sortBy_map f before found

/-- An item under overrides. -/
def under (overrides : List Fields) (e : Fields × Nat) : Entry := entry overrides e.1 e.2

/-- The items that stay, with their positions. -/
def staying (overrides items : List Fields) : List (Fields × Nat) :=
  items.zipIdx.filter fun e => (under overrides e).visible

/-- The items that stay, with their positions, in the order in which they are shown. -/
def arranged (overrides items : List Fields) : List (Fields × Nat) :=
  sortedAs (under overrides) (staying overrides items)

theorem applyAll_eq_map (overrides items : List Fields) :
    applyAll overrides items =
      (arranged overrides items).map fun e => (under overrides e).item := by
  have hentries : (entries overrides items).filter Entry.visible =
      (staying overrides items).map (under overrides) := List.filter_map
  rw [applyAll, hentries, sorted_map, List.map_map]
  rfl

end Vitae.Override
