import Mathlib.Order.Lattice

/-! What stands before what in a list.

`Precedes l a b` says that `a` stands somewhere before `b`. A stable sort is told by it alone: of
two elements the one of the smaller rank stands first, and among equal ranks the one that the list
has first (`precedes_mergeSort`). -/

namespace Vitae

/-! ### One element before another -/

/-- `a` stands somewhere before `b`. -/
def Precedes {α : Type} (l : List α) (a b : α) : Prop := [a, b].Sublist l

namespace Precedes
variable {α β : Type} {l : List α} {a b : α}

@[simp] theorem cons_iff {c : α} : Precedes (c :: l) a b ↔ (a = c ∧ b ∈ l) ∨ Precedes l a b := by
  unfold Precedes
  constructor
  · intro h
    cases h with
    | cons _ h => exact .inr h
    | cons_cons _ h => exact .inl ⟨rfl, List.singleton_sublist.mp h⟩
  · intro hcases
    rcases hcases with ⟨rfl, hb⟩ | h
    · exact (List.singleton_sublist.mpr hb).cons_cons a
    · exact h.cons c

@[simp] theorem nil_iff : Precedes ([] : List α) a b ↔ False := by
  simp [Precedes]

theorem right_mem (h : Precedes l a b) : b ∈ l := h.subset (by simp)

/-- Of two different elements one stands first. -/
theorem total (ha : a ∈ l) (hb : b ∈ l) (hne : a ≠ b) : Precedes l a b ∨ Precedes l b a := by
  induction l with
  | nil => cases ha
  | cons c rest ih =>
    rw [cons_iff, cons_iff]
    rcases List.mem_cons.mp ha with rfl | ha'
    · rcases List.mem_cons.mp hb with rfl | hb'
      · exact absurd rfl hne
      · exact .inl (.inl ⟨rfl, hb'⟩)
    · rcases List.mem_cons.mp hb with rfl | hb'
      · exact .inr (.inl ⟨rfl, ha'⟩)
      · exact (ih ha' hb').imp .inr .inr

/-- Where nothing comes twice, nothing stands on both sides of another. -/
theorem asymm (hl : l.Nodup) (h : Precedes l a b) : ¬ Precedes l b a := by
  induction l with
  | nil => simp at h
  | cons c rest ih =>
    obtain ⟨hc, hrest⟩ := List.nodup_cons.mp hl
    rw [cons_iff] at h ⊢
    intro hcases
    rcases hcases with ⟨rfl, ha⟩ | hba
    · rcases h with ⟨rfl, _⟩ | h
      · exact hc ha
      · exact hc h.right_mem
    · rcases h with ⟨rfl, _⟩ | h
      · exact hc hba.right_mem
      · exact ih hrest h hba

theorem map_iff {f : α → β} (hf : (l.map f).Nodup) (ha : a ∈ l) (hb : b ∈ l) :
    Precedes (l.map f) (f a) (f b) ↔ Precedes l a b := by
  constructor
  · intro h
    have hne : a ≠ b := by
      intro heq
      subst heq
      exact asymm hf h h
    rcases total ha hb hne with hab | hba
    · exact hab
    · exact absurd (hba.map f) (asymm hf h)
  · exact fun h => h.map f

theorem filter_iff {p : α → Bool} (ha : p a = true) (hb : p b = true) :
    Precedes (l.filter p) a b ↔ Precedes l a b := by
  constructor
  · exact fun h => h.trans List.filter_sublist
  · intro h
    have := h.filter p
    simpa [Precedes, ha, hb] using this

end Precedes

/-! ### Stable sorting -/

/-- Sorting asks only about the elements of its list. -/
theorem mergeSort_congr {α : Type} {l : List α} {r s : α → α → Bool}
    (h : ∀ a ∈ l, ∀ b ∈ l, r a b = s a b) : l.mergeSort r = l.mergeSort s := by
  have hmap := List.map_mergeSort (f := id) h
  simpa using hmap

section Rank
variable {α β : Type} [LinearOrder β] {rank : α → β} {l : List α} {a b : α}

theorem rank_trans (rank : α → β) (a b c : α) (hab : decide (rank a ≤ rank b) = true)
    (hbc : decide (rank b ≤ rank c) = true) : decide (rank a ≤ rank c) = true :=
  decide_eq_true (le_trans (of_decide_eq_true hab) (of_decide_eq_true hbc))

theorem rank_total (rank : α → β) (a b : α) :
    (decide (rank a ≤ rank b) || decide (rank b ≤ rank a)) = true := by
  simpa using le_total (rank a) (rank b)

/-- Elements come in ascending order of their ranks. -/
theorem rank_le_of_precedes (h : Precedes (l.mergeSort fun a b => decide (rank a ≤ rank b)) a b) :
    rank a ≤ rank b := by
  have sorted := List.pairwise_mergeSort (rank_trans rank) (rank_total rank) l
  simpa using sorted.sublist h

/-- Elements of equal rank stay as they were. -/
theorem precedes_of_rank_eq (h : Precedes l a b) (hrank : rank a = rank b) :
    Precedes (l.mergeSort fun a b => decide (rank a ≤ rank b)) a b :=
  List.pair_sublist_mergeSort (rank_trans rank) (rank_total rank)
    (decide_eq_true (le_of_eq hrank)) h

theorem precedes_mergeSort (hl : l.Nodup) (ha : a ∈ l) (hb : b ∈ l) :
    Precedes (l.mergeSort fun a b => decide (rank a ≤ rank b)) a b ↔
      rank a < rank b ∨ rank a = rank b ∧ Precedes l a b := by
  have hperm := List.mergeSort_perm l fun a b => decide (rank a ≤ rank b)
  constructor
  · intro hab
    have hnot := hab.asymm (hperm.nodup_iff.mpr hl)
    rcases lt_or_eq_of_le (rank_le_of_precedes hab) with hlt | heq
    · exact .inl hlt
    · refine .inr ⟨heq, ?_⟩
      have hne : a ≠ b := by
        intro hsame
        subst hsame
        exact hnot hab
      rcases Precedes.total ha hb hne with hbefore | hbehind
      · exact hbefore
      · exact absurd (precedes_of_rank_eq hbehind heq.symm) hnot
  · intro hcases
    rcases hcases with hlt | ⟨heq, hbefore⟩
    · have hne : a ≠ b := by
        intro hsame
        subst hsame
        exact lt_irrefl _ hlt
      rcases Precedes.total (hperm.mem_iff.mpr ha) (hperm.mem_iff.mpr hb) hne with hab | hba
      · exact hab
      · exact absurd (rank_le_of_precedes hba) (not_le_of_gt hlt)
    · exact precedes_of_rank_eq hbefore heq

end Rank

end Vitae
