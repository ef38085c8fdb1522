import Vitae.Document.Reading
import Vitae.Proofs.LastWord

/-! Overrides for other items.

One more override leaves the items that it is not for as they are: they stay, they show what they
showed, and they keep their keys (`Override.under_append`). Two of them also keep their order as
long as every key that is sorted has a place among the others. A key that is no number has none, and
one such key on a third item can turn two others around. So overrides for other items do not disturb
an item exactly where no such key is let in (`Override.applyAll_undisturbed_iff`). -/

namespace Vitae.Override

/-! ### What a further override leaves alone -/

variable {overrides items : List Fields} {further : Fields} {e x y : Fields × Nat}

theorem under_append (h : ¬ Matches further e.1 e.2) :
    under (overrides ++ [further]) e = under overrides e := by
  have hnone : [further].filter (fun o => isFor o (Value.field e.1 "id") e.2) = [] := by
    rw [List.filter_cons, if_neg (mt isFor_iff.mp h), List.filter_nil]
  rw [under, under, entry, entry, List.filter_append, hnone, List.append_nil]

theorem sortKey_append (h : ¬ Matches further e.1 e.2) :
    sortKey (overrides ++ [further]) e.1 e.2 = sortKey overrides e.1 e.2 := by
  rw [← key_entry, ← key_entry]
  exact congrArg Entry.key (under_append h)

theorem mem_staying :
    e ∈ staying overrides items ↔ e ∈ items.zipIdx ∧ (under overrides e).visible = true :=
  List.mem_filter

theorem mem_arranged : e ∈ arranged overrides items ↔ e ∈ staying overrides items := by
  rw [arranged, sortedAs]
  split
  · exact List.mem_mergeSort
  · exact (Sorting.sortBy_perm _ _).mem_iff

theorem staying_append (h : ¬ Matches further e.1 e.2) (he : e ∈ staying overrides items) :
    e ∈ staying (overrides ++ [further]) items := by
  rw [mem_staying] at he ⊢
  rw [under_append h]
  exact he

/-! ### Keys that have places -/

/-- All keys that are sorted are among those that are admitted. -/
def KeysAmong (admits : Number → Prop) (overrides items : List Fields) : Prop :=
  ∀ e ∈ staying overrides items, admits (sortKey overrides e.1 e.2)

/-- Of two items that stay, the one with the smaller key comes first, and of equal keys the one
that the list has first. -/
theorem precedes_arranged (h : KeysAmong (· ≠ .float .nan) overrides items)
    (hx : x ∈ staying overrides items) (hy : y ∈ staying overrides items) :
    Precedes (arranged overrides items) x y ↔
      (sortKey overrides x.1 x.2).rank < (sortKey overrides y.1 y.2).rank ∨
        (sortKey overrides x.1 x.2).rank = (sortKey overrides y.1 y.2).rank ∧
          Precedes items.zipIdx x y := by
  rw [arranged_eq_shown fun e he => Number.isSome_place? (h e he)]
  have hbefore : Precedes (staying overrides items) x y ↔ Precedes items.zipIdx x y :=
    Precedes.filter_iff (mem_staying.mp hx).2 (mem_staying.mp hy).2
  rw [← hbefore]
  exact precedes_mergeSort ((nodup_zipIdx items).filter _) hx hy

/-- Items that a further override is not for keep their order. -/
def Undisturbed (overrides : List Fields) (further : Fields) (items : List Fields) : Prop :=
  ∀ x ∈ arranged overrides items, ∀ y ∈ arranged overrides items,
    ¬ Matches further x.1 x.2 → ¬ Matches further y.1 y.2 →
      (Precedes (arranged (overrides ++ [further]) items) x y ↔
        Precedes (arranged overrides items) x y)

theorem undisturbed_of_keys (h : KeysAmong (· ≠ .float .nan) overrides items)
    (hfurther : KeysAmong (· ≠ .float .nan) (overrides ++ [further]) items) :
    Undisturbed overrides further items := by
  intro x hx y hy hnotx hnoty
  rw [mem_arranged] at hx hy
  rw [precedes_arranged hfurther (staying_append hnotx hx) (staying_append hnoty hy),
    precedes_arranged h hx hy, sortKey_append hnotx, sortKey_append hnoty]

/-! ### A key that has no place -/

/-- What is shown of items that a further override is not for stays what it is. -/
def Untouched (overrides : List Fields) (further : Fields) (items : List Fields) : Prop :=
  ∀ e ∈ arranged overrides items, ¬ Matches further e.1 e.2 →
    e ∈ arranged (overrides ++ [further]) items ∧
      (under (overrides ++ [further]) e).item = (under overrides e).item

theorem untouched (overrides : List Fields) (further : Fields) (items : List Fields) :
    Untouched overrides further items := by
  intro e he hnot
  rw [mem_arranged] at he ⊢
  exact ⟨staying_append hnot he, congrArg Entry.item (under_append hnot)⟩

/-- A document can have the overrides for a section. -/
def Listed (overrides : List Fields) : Prop :=
  ∃ found, Document.readList Document.readObject (.list (overrides.map .object)) = .ok found

theorem keysAmong_of_orders {admits : Number → Prop} (hpositions : ∀ n : Nat, admits (.int n))
    (horders : ∀ o ∈ overrides, ∀ n ∈ (Value.field o "order").number?, admits n) :
    KeysAmong admits overrides items := by
  intro e _
  rw [sortKey]
  cases hkey : lastSaid overrides e.1 e.2 fun o => (Value.field o "order").number? with
  | none => exact hpositions e.2
  | some key =>
    obtain ⟨o, ho, _, hnumber⟩ := exists_of_lastSaid hkey
    exact horders o ho key hnumber

def named (id : String) : Fields := [("id", .str id)]

def letters : List Fields := [named "x", named "z", named "y"]

def movedBehind : Fields := [("itemId", .str "x"), ("order", .int 5)]

def unordered : Fields := [("itemId", .str "z"), ("order", .float .nan)]

def movedLast : Fields := [("itemId", .str "z"), ("order", .int 9)]

/-- Of three items the last one is merged into the first two. -/
theorem mergeSort_three {α : Type} (le : α → α → Bool) (a b c : α) :
    [a, b, c].mergeSort le = ([a].merge [b] le).merge [c] le := by
  simp [List.mergeSort, List.MergeSort.Internal.splitInTwo]

/-- Three items that stay, with keys that have places. -/
theorem arranged_letters (hstaying : staying overrides letters = letters.zipIdx)
    (hplaced : (letters.zipIdx.all fun e => isPlaced (under overrides e)) = true) :
    let inOrder (x y : Fields × Nat) : Bool := !before (under overrides y) (under overrides x)
    arranged overrides letters =
      ([(named "x", 0)].merge [(named "z", 1)] inOrder).merge [(named "y", 2)] inOrder := by
  rw [arranged, sortedAs, hstaying, if_pos hplaced]
  exact mergeSort_three ..

theorem arranged_movedBehind :
    arranged [movedBehind] letters = [(named "z", 1), (named "y", 2), (named "x", 0)] := by
  have hzx : before (under [movedBehind] (named "z", 1)) (under [movedBehind] (named "x", 0)) =
      true := rfl
  have hyz : before (under [movedBehind] (named "y", 2)) (under [movedBehind] (named "z", 1)) =
      false := rfl
  have hyx : before (under [movedBehind] (named "y", 2)) (under [movedBehind] (named "x", 0)) =
      true := rfl
  rw [arranged_letters rfl rfl]
  simp [hzx, hyz, hyx]

theorem arranged_movedLast :
    arranged [movedBehind, movedLast] letters =
      [(named "y", 2), (named "x", 0), (named "z", 1)] := by
  have hzx : before (under [movedBehind, movedLast] (named "z", 1))
      (under [movedBehind, movedLast] (named "x", 0)) = false := rfl
  have hyx : before (under [movedBehind, movedLast] (named "y", 2))
      (under [movedBehind, movedLast] (named "x", 0)) = true := rfl
  rw [arranged_letters rfl rfl]
  simp [hzx, hyx]

/-- Not-a-number has no place, so the items are sorted by runs, and they are one run as they
stand. -/
theorem arranged_unordered :
    arranged [movedBehind, unordered] letters =
      [(named "x", 0), (named "z", 1), (named "y", 2)] := by
  with_unfolding_all rfl

/-- The third item is compared with neither of its neighbours to any effect, so they stay where they
were. -/
theorem not_undisturbed : ¬ Undisturbed [movedBehind] unordered letters := by
  intro h
  have hx : (named "x", 0) ∈ arranged [movedBehind] letters := by simp [arranged_movedBehind]
  have hy : (named "y", 2) ∈ arranged [movedBehind] letters := by simp [arranged_movedBehind]
  have hsame := h _ hx _ hy (by decide) (by decide)
  change Precedes (arranged [movedBehind, unordered] letters) _ _ ↔ _ at hsame
  rw [arranged_unordered, arranged_movedBehind] at hsame
  have hbefore : Precedes [(named "x", 0), (named "z", 1), (named "y", 2)]
      (named "x", 0) (named "y", 2) := by simp
  simpa using hsame.mp hbefore

/-- Overrides for other items leave an item as it is, and, of the keys that are let in, it is
not-a-number alone that lets them change the order of two. -/
theorem applyAll_undisturbed_iff (admits : Number → Prop)
    (hpositions : ∀ n : Nat, admits (.int n)) :
    (∀ overrides items, applyAll overrides items =
      (arranged overrides items).map fun e => (under overrides e).item) ∧
    (∀ overrides further items, Untouched overrides further items) ∧
    ((∀ overrides further items, Listed (overrides ++ [further]) →
        KeysAmong admits overrides items → KeysAmong admits (overrides ++ [further]) items →
        Undisturbed overrides further items) ↔
      ¬ admits (.float .nan)) := by
  refine ⟨applyAll_eq_map, untouched, fun h hnan => ?_, fun hnan => ?_⟩
  · have hmoved : ∀ n ∈ (Value.field movedBehind "order").number?, admits n := by
      rintro _ ⟨⟩
      exact hpositions 5
    have hunordered : ∀ n ∈ (Value.field unordered "order").number?, admits n := by
      rintro _ ⟨⟩
      exact hnan
    refine not_undisturbed (h _ _ _ ⟨_, rfl⟩ ?_ ?_)
    · exact keysAmong_of_orders hpositions (List.forall_mem_singleton.mpr hmoved)
    · exact keysAmong_of_orders hpositions
        (List.forall_mem_cons.mpr ⟨hmoved, List.forall_mem_singleton.mpr hunordered⟩)
  · intro overrides further items _ hkeys hfurther
    have hplaced {n : Number} (hn : admits n) : n ≠ .float .nan := by
      rintro rfl
      exact hnan hn
    exact undisturbed_of_keys (fun e he => hplaced (hkeys e he)) fun e he => hplaced (hfurther e he)

/-- An item moved by a number: the two others, one of which was moved before, keep their order. -/
theorem applyAll_undisturbed_iff_movedLast :
    Undisturbed [movedBehind] movedLast letters ∧ Untouched [movedBehind] movedLast letters ∧
      applyAll [movedBehind] letters = [named "z", named "y", named "x"] ∧
      applyAll [movedBehind, movedLast] letters = [named "y", named "x", named "z"] := by
  have hpositions (n : Nat) : Number.int n ≠ .float .nan := nofun
  have hmoved : ∀ n ∈ (Value.field movedBehind "order").number?, n ≠ .float .nan := by
    rintro _ ⟨⟩
    exact hpositions 5
  have hlast : ∀ n ∈ (Value.field movedLast "order").number?, n ≠ .float .nan := by
    rintro _ ⟨⟩
    exact hpositions 9
  obtain ⟨-, huntouched, hiff⟩ := applyAll_undisturbed_iff (· ≠ .float .nan) hpositions
  refine ⟨hiff.mpr (absurd rfl) _ _ _ ⟨_, rfl⟩ ?_ ?_, huntouched _ _ _, ?_, ?_⟩
  · exact keysAmong_of_orders hpositions (List.forall_mem_singleton.mpr hmoved)
  · exact keysAmong_of_orders hpositions
      (List.forall_mem_cons.mpr ⟨hmoved, List.forall_mem_singleton.mpr hlast⟩)
  · rw [applyAll_eq_map, arranged_movedBehind]
    rfl
  · rw [applyAll_eq_map, arranged_movedLast]
    rfl

/-- An item moved by not-a-number: the two others change places. -/
theorem unordered_disturbs :
    Listed [movedBehind, unordered] ∧
      (∀ e ∈ [(named "x", 0), (named "y", 2)], ¬ Matches unordered e.1 e.2) ∧
      applyAll [movedBehind] letters = [named "z", named "y", named "x"] ∧
      applyAll [movedBehind, unordered] letters = [named "x", named "z", named "y"] := by
  refine ⟨⟨_, rfl⟩, by decide, ?_, ?_⟩
  · rw [applyAll_eq_map, arranged_movedBehind]
    rfl
  · rw [applyAll_eq_map, arranged_unordered]
    rfl

end Vitae.Override
