import Vitae.Sorting.Runs

/-! Sorting keeps the items.

Whatever the comparison answers, `sortBy` returns the items that it was given, each as
often as before (`sortBy_perm`). The argument follows the definitions: taking an item in
a merge moves it from a run to what is merged (`Front.takeLeft_perm`), so a merge
holds the items of its two runs (`merge_perm`), and finding a run only takes items from
the front of a list. -/

namespace Vitae.Sorting
open List
variable {α : Type}

/-! ### Merging -/

/-- The items of a merge, wherever they stand. -/
def Front.all (f : Front α) : List α := f.left ++ (f.right ++ f.merged)

theorem Front.takeLeft_perm (f : Front α) (count : Nat) : (f.takeLeft count).all ~ f.all := by
  have moved : f.right ++ ((f.left.take count).reverse ++ f.merged) ~
      f.left.take count ++ (f.right ++ f.merged) :=
    (((reverse_perm _).append_right _).append_left _).trans (perm_append_comm_assoc ..)
  calc (f.takeLeft count).all
      ~ f.left.drop count ++ (f.left.take count ++ (f.right ++ f.merged)) := moved.append_left _
    _ ~ f.left.take count ++ (f.left.drop count ++ (f.right ++ f.merged)) :=
        perm_append_comm_assoc ..
    _ ~ f.all := by rw [← append_assoc, take_append_drop]; exact Perm.refl _

theorem Front.takeRight_perm (f : Front α) (count : Nat) : (f.takeRight count).all ~ f.all := by
  refine Perm.append_left _ ?_
  calc f.right.drop count ++ ((f.right.take count).reverse ++ f.merged)
      ~ f.right.drop count ++ (f.right.take count ++ f.merged) :=
        ((reverse_perm _).append_right _).append_left _
    _ ~ f.right.take count ++ (f.right.drop count ++ f.merged) := perm_append_comm_assoc ..
    _ ~ f.right ++ f.merged := by rw [← append_assoc, take_append_drop]

theorem Front.rest?_perm {direction : Direction} {f : Front α} {rest : List α}
    (h : f.rest? direction = some rest) : rest ~ f.left ++ f.right := by
  cases direction <;> simp only [Front.rest?] at h <;> split at h <;> simp_all
  all_goals subst h; exact perm_append_comm

theorem Front.rest?_getD_perm (direction : Direction) (f : Front α) :
    (f.rest? direction).getD (f.left ++ f.right) ~ f.left ++ f.right := by
  cases h : f.rest? direction with
  | none => exact Perm.refl _
  | some rest => exact rest?_perm h

theorem mergeOn_perm (direction : Direction) (before : α → α → Bool) (fuel : Nat) (pace : Pace)
    (patience : Nat) (f : Front α) :
    (mergeOn direction before fuel pace patience f).1.all ~ f.all := by
  fun_induction mergeOn direction before fuel pace patience f with
  | case1 | case2 | case4 => exact Perm.refl _
  | case3 _ _ f _ _ _ _ _ _ _ _ _ isRight taken _ _ _ _ ih =>
    refine ih.trans ?_
    by_cases chosen : isRight = true
    · simp only [taken, chosen, if_true]; exact Front.takeRight_perm _ _
    · simp only [taken, chosen]; exact Front.takeLeft_perm _ _
  | case5 => exact Front.takeLeft_perm _ _
  | case6 => exact (Front.takeRight_perm _ _).trans (Front.takeLeft_perm _ _)
  | case7 =>
    exact (Front.takeRight_perm _ _).trans <|
      (Front.takeRight_perm _ _).trans (Front.takeLeft_perm _ _)
  | case8 =>
    exact (Front.takeLeft_perm _ _).trans <| (Front.takeRight_perm _ _).trans <|
      (Front.takeRight_perm _ _).trans (Front.takeLeft_perm _ _)
  | case9 | case10 =>
    rename_i ih
    exact ih.trans <| (Front.takeLeft_perm _ _).trans <| (Front.takeRight_perm _ _).trans <|
      (Front.takeRight_perm _ _).trans (Front.takeLeft_perm _ _)

theorem mergeToward_perm (direction : Direction) (before : α → α → Bool) (patience : Nat)
    (left right : List α) :
    (mergeToward direction before patience left right).1 ~ left ++ right := by
  cases direction with
  | forward =>
    have merged := mergeOn_perm .forward before (left.length + right.length) (.single 0 0) patience
      (Front.takeRight ⟨left, right, []⟩ 1)
    have start := Front.takeRight_perm ⟨left, right, []⟩ 1
    refine Perm.trans ?_ (merged.trans start |>.trans (by simp [Front.all]))
    refine ((reverse_perm _).append (Front.rest?_getD_perm _ _)).trans ?_
    exact perm_append_comm.trans (by rw [append_assoc]; exact Perm.refl _)
  | backward =>
    have merged := mergeOn_perm .backward before (left.length + right.length) (.single 0 0) patience
      (Front.takeLeft ⟨left.reverse, right.reverse, []⟩ 1)
    have start := Front.takeLeft_perm ⟨left.reverse, right.reverse, []⟩ 1
    have turned : Front.all ⟨left.reverse, right.reverse, []⟩ ~ left ++ right := by
      simpa [Front.all] using (reverse_perm left).append (reverse_perm right)
    refine Perm.trans ?_ (merged.trans start |>.trans turned)
    refine (((reverse_perm _).trans (Front.rest?_getD_perm _ _)).append_right _).trans ?_
    rw [append_assoc]; exact Perm.refl _

theorem merge_perm (before : α → α → Bool) (patience : Nat) (left right : List α) :
    (merge before patience left right).1 ~ left ++ right := by
  cases right with
  | nil => simp [merge]
  | cons y ys =>
    simp only [merge]
    generalize gallop _ left.length 0 = settled
    cases unsettled : left.drop settled with
    | nil => exact Perm.refl _
    | cons x more =>
      dsimp only
      generalize gallop _ (y :: ys).length _ = count
      split
      · exact Perm.refl _
      · refine (((mergeToward_perm _ _ _ _ _).append_left _).append_right _).trans ?_
        rw [← unsettled, ← append_assoc, take_append_drop, append_assoc, take_append_drop]

/-! ### Finding runs -/

theorem runOn_append (continues : α → α → Bool) (last : α) (items : List α) :
    (runOn continues last items).1 ++ (runOn continues last items).2 = items := by
  fun_induction runOn continues last items <;> simp_all

theorem firstRun_perm (before : α → α → Bool) (items : List α) :
    (firstRun before items).1 ++ (firstRun before items).2 ~ items := by
  fun_cases firstRun before items with
  | case1 | case2 => simp
  | case3 x y rest _ run later found =>
    have split := runOn_append (fun last next => before next last) y rest
    rw [found] at split
    refine ((reverse_perm _).append_right _).trans ?_
    simp only [cons_append, split]; exact Perm.refl _
  | case4 x y rest _ run later found =>
    have split := runOn_append (fun last next => !before next last) y rest
    rw [found] at split
    simp only [cons_append, split]; exact Perm.refl _

theorem insert_perm (before : α → α → Bool) (sorted : List α) (x : α) :
    insert before sorted x ~ x :: sorted := by
  simp only [insert]
  exact perm_middle.trans (by rw [take_append_drop])

theorem foldl_insert_perm (before : α → α → Bool) (sorted items : List α) :
    items.foldl (insert before) sorted ~ sorted ++ items := by
  induction items generalizing sorted with
  | nil => simp
  | cons x rest ih =>
    refine (ih _).trans ?_
    exact ((insert_perm before sorted x).append_right _).trans perm_middle.symm

theorem longRun_perm (before : α → α → Bool) (least : Nat) (items : List α) :
    (longRun before least items).1 ++ (longRun before least items).2 ~ items := by
  have whole := firstRun_perm before items
  cases found : firstRun before items with
  | mk run later =>
    rw [found] at whole
    simp only [longRun, found]
    refine ((foldl_insert_perm before _ _).append_right _).trans ?_
    rwa [append_assoc, take_append_drop]

/-! ### The stack -/

/-- The items of the runs that wait, those of the first run first. -/
def waiting (runs : List (Run α)) : List α := (runs.reverse.map Run.items).flatten

theorem waiting_cons (r : Run α) (runs : List (Run α)) :
    waiting (r :: runs) = waiting runs ++ r.items := by simp [waiting]

theorem settle_perm (before : α → α → Bool) (depth patience : Nat) (last : Run α)
    (runs : List (Run α)) :
    waiting (settle before depth patience last runs).1 ~ waiting runs ++ last.items := by
  induction runs generalizing last patience with
  | nil => simp [settle, waiting]
  | cons r earlier ih =>
    simp only [settle]
    split
    · refine (ih _ _).trans ?_
      rw [waiting_cons, append_assoc]
      exact (merge_perm before patience r.items last.items).append_left _
    · simp [waiting]

theorem join_perm (before : α → α → Bool) (patience : Nat) (left right : Run α) :
    (left.join before patience right).1.items ~ left.items ++ right.items :=
  merge_perm before patience left.items right.items

theorem collapse_perm (before : α → α → Bool) (patience : Nat) (runs : List (Run α)) :
    collapse before patience runs ~ waiting runs := by
  fun_induction collapse before patience runs with
  | case1 => exact Perm.refl _
  | case2 => simp [waiting]
  | case3 patience last r => simpa [waiting] using join_perm before patience r last
  | case4 patience last r s earlier _ joined _ found ih =>
    have merged := join_perm before patience s r
    rw [found] at merged
    refine ih.trans ?_
    simpa [waiting] using (merged.append_right last.items).append_left _
  | case5 patience last r s earlier _ joined _ found ih =>
    have merged := join_perm before patience r last
    rw [found] at merged
    refine ih.trans ?_
    simpa [waiting] using (merged.append_left s.items).append_left _

theorem readRuns_perm (before : α → α → Bool) (total fuel patience start : Nat)
    (runs : List (Run α)) (items : List α) :
    readRuns before total fuel patience start runs items ~ waiting runs ++ items := by
  induction fuel generalizing patience start runs items with
  | zero =>
    rw [readRuns]
    exact (collapse_perm before patience _).trans (by rw [waiting_cons])
  | succ fuel ih =>
    rw [readRuns]
    split
    next empty =>
      rw [isEmpty_iff.mp empty, append_nil]
      exact collapse_perm before patience runs
    next =>
      have found := longRun_perm before (leastRun total) items
      refine (ih _ _ _ _).trans ?_
      rw [waiting_cons, append_assoc]
      refine Perm.append ?_ found
      cases runs with
      | nil => exact Perm.refl _
      | cons last earlier =>
        rw [waiting_cons]
        exact settle_perm before _ patience last earlier

/-- Sorting returns the items that it was given. -/
theorem sortBy_perm (before : α → α → Bool) (items : List α) : sortBy before items ~ items :=
  readRuns_perm before items.length items.length worthwhile 0 [] items

end Vitae.Sorting
