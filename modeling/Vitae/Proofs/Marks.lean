import Mathlib.Tactic.SplitIfs
import Vitae.Sorting.Permutation

/-! Sorting does not see marks.

Items are sorted by asking a comparison about them and by nothing else. So to sort marked items by
what they are without their marks, and then to take the marks off, is to sort them without marks
(`Sorting.sortBy_map`), whatever the comparison answers. The argument follows the definitions: each
of them is told what it does to a mapped list. -/

namespace Vitae.Sorting
variable {α β : Type} (f : α → β) (before : β → β → Bool)

/-- A comparison of what items are without their marks. -/
def through (f : α → β) (before : β → β → Bool) : α → α → Bool := fun a b => before (f a) (f b)

theorem through_apply (a b : α) : through f before a b = before (f a) (f b) := rfl

/-! ### Merging -/

theorem gallop_map (low : β → Bool) (items : List α) (count hint : Nat) :
    gallop (fun i => ((items.map f)[i]?).any low) count hint =
      gallop (fun i => (items[i]?).any fun a => low (f a)) count hint := by
  refine congrArg (gallop · count hint) ?_
  funext i
  rw [List.getElem?_map, Option.any_map]

namespace Front

def map (f : α → β) (fr : Front α) : Front β :=
  ⟨fr.left.map f, fr.right.map f, fr.merged.map f⟩

theorem rest?_map (direction : Direction) (fr : Front α) :
    (fr.map f).rest? direction = (fr.rest? direction).map (List.map f) := by
  obtain ⟨left, right, merged⟩ := fr
  cases direction <;> match left, right with
    | [], [] | [], [_] | [], _ :: _ :: _ | [_], [] | [_], [_] | [_], _ :: _ :: _ | _ :: _ :: _, []
    | _ :: _ :: _, [_] | _ :: _ :: _, _ :: _ :: _ => simp [rest?, map]

theorem takeLeft_map (fr : Front α) (count : Nat) :
    (fr.map f).takeLeft count = (fr.takeLeft count).map f := by
  simp [takeLeft, map, List.map_drop, List.map_take]

theorem takeRight_map (fr : Front α) (count : Nat) :
    (fr.map f).takeRight count = (fr.takeRight count).map f := by
  simp [takeRight, map, List.map_drop, List.map_take]

theorem reach_map (direction : Direction) (low : β → Bool) (items : List α) :
    reach direction low (items.map f) = reach direction (fun a => low (f a)) items := by
  cases direction <;> simp [reach, Option.any_map]

theorem gallopLeft_map (direction : Direction) (fr : Front α) :
    gallopLeft direction before (fr.map f) = gallopLeft direction (through f before) fr := by
  obtain ⟨left, right, merged⟩ := fr
  cases right with
  | nil => rfl
  | cons y rest => exact reach_map f direction _ left

theorem gallopRight_map (direction : Direction) (fr : Front α) :
    gallopRight direction before (fr.map f) = gallopRight direction (through f before) fr := by
  obtain ⟨left, right, merged⟩ := fr
  cases left with
  | nil => rfl
  | cons x rest => exact reach_map f direction _ right

end Front

theorem mergeOn_map (direction : Direction) (fuel : Nat) (pace : Pace) (patience : Nat)
    (fr : Front α) :
    mergeOn direction before fuel pace patience (fr.map f) =
      (mergeOn direction (through f before) fuel pace patience fr).map (Front.map f) id := by
  induction fuel generalizing pace patience fr with
  | zero => rfl
  | succ fuel ih =>
    cases pace with
    | galloping =>
      simp only [mergeOn, Front.rest?_map, Option.isSome_map, Front.takeLeft_map,
        Front.takeRight_map, Front.gallopLeft_map, Front.gallopRight_map, ih]
      split_ifs <;> rfl
    | single taken other =>
      simp only [mergeOn, Front.rest?_map, Option.isSome_map, Front.takeLeft_map,
        Front.takeRight_map]
      obtain ⟨left, right, merged⟩ := fr
      cases left with
      | nil => split_ifs <;> rfl
      | cons x xs =>
        cases right with
        | nil => split_ifs <;> rfl
        | cons y ys =>
          have hnext : Front.isRight direction before (f x) (f y) =
              Front.isRight direction (through f before) x y := rfl
          simp only [Front.map, List.map_cons, hnext]
          cases Front.isRight direction (through f before) x y <;>
            simp only [Bool.false_eq_true, if_false, if_true]
          all_goals split_ifs
          all_goals first | rfl | exact ih _ _ _

theorem rest_map (direction : Direction) (fr : Front α) :
    ((fr.map f).rest? direction).getD ((fr.map f).left ++ (fr.map f).right) =
      ((fr.rest? direction).getD (fr.left ++ fr.right)).map f := by
  rw [Front.rest?_map]
  cases fr.rest? direction with
  | none => simp [Front.map]
  | some rest => rfl

theorem mergeToward_map (direction : Direction) (patience : Nat) (left right : List α) :
    mergeToward direction before patience (left.map f) (right.map f) =
      (mergeToward direction (through f before) patience left right).map (List.map f) id := by
  cases direction with
  | forward =>
    have hstart : Front.takeRight ⟨left.map f, right.map f, []⟩ 1 =
        (Front.takeRight ⟨left, right, []⟩ 1).map f := Front.takeRight_map f ⟨left, right, []⟩ 1
    simp only [mergeToward, List.length_map, hstart, mergeOn_map, Prod.map, rest_map]
    simp [Front.map]
  | backward =>
    have hstart : Front.takeLeft ⟨(left.map f).reverse, (right.map f).reverse, []⟩ 1 =
        (Front.takeLeft ⟨left.reverse, right.reverse, []⟩ 1).map f := by
      rw [← Front.takeLeft_map]
      simp [Front.map]
    simp only [mergeToward, List.length_map, hstart, mergeOn_map, Prod.map, rest_map]
    simp [Front.map]

theorem merge_map (patience : Nat) (left right : List α) :
    merge before patience (left.map f) (right.map f) =
      (merge (through f before) patience left right).map (List.map f) id := by
  cases right with
  | nil => rfl
  | cons y rest =>
    have hcount (low : β → Bool) : gallop (fun i => ((f y :: rest.map f)[i]?).any low)
        (rest.length + 1) rest.length = gallop (fun i => ((y :: rest)[i]?).any fun a => low (f a))
          (rest.length + 1) rest.length := gallop_map f low (y :: rest) _ _
    simp only [merge, List.map_cons, gallop_map, List.length_map, List.length_cons,
      Nat.add_sub_cancel, hcount, ← List.map_drop, through_apply]
    generalize gallop _ left.length 0 = settled
    cases left.drop settled with
    | nil => simp
    | cons x more =>
      have hlast : ((x :: more).map f).getLastD (f x) = f ((x :: more).getLastD x) :=
        List.getLastD_map
      rw [List.map_cons] at hlast
      simp only [List.map_cons, hlast, List.length_map]
      generalize gallop _ (rest.length + 1) rest.length = count
      generalize (if more.length < count then Direction.forward else .backward) = direction
      have hmiddle : mergeToward direction before patience (f x :: more.map f)
          ((f y :: rest.map f).take count) =
            (mergeToward direction (through f before) patience (x :: more)
              ((y :: rest).take count)).map (List.map f) id := by
        rw [← mergeToward_map, List.map_take]
        rfl
      have hend : (f y :: rest.map f).drop count = ((y :: rest).drop count).map f := by
        rw [List.map_drop]
        rfl
      split_ifs
      · simp
      · simp only [hmiddle, hend, Prod.map, id, List.map_append, List.map_take]

/-! ### Finding runs -/

theorem runOn_map (continues : β → β → Bool) (last : α) (items : List α) :
    runOn continues (f last) (items.map f) =
      (runOn (through f continues) last items).map (List.map f) (List.map f) := by
  induction items generalizing last with
  | nil => rfl
  | cons x rest ih =>
    by_cases h : continues (f last) (f x) = true
    · simp [runOn, ih, through, h]
    · simp [runOn, through, h]

theorem firstRun_map (items : List α) :
    firstRun before (items.map f) =
      (firstRun (through f before) items).map (List.map f) (List.map f) := by
  match items with
  | [] | [_] => rfl
  | x :: y :: rest =>
    have hbehind : runOn (fun last next => before next last) (f y) (rest.map f) =
        (runOn (fun last next => through f before next last) y rest).map (List.map f)
          (List.map f) := runOn_map f _ y rest
    have hon : runOn (fun last next => !before next last) (f y) (rest.map f) =
        (runOn (fun last next => !through f before next last) y rest).map (List.map f)
          (List.map f) := runOn_map f _ y rest
    have hfirst : before (f y) (f x) = through f before y x := rfl
    cases h : through f before y x <;> simp [firstRun, hbehind, hon, hfirst, h]

theorem insert_map (sorted : List α) (x : α) :
    insert before (sorted.map f) (f x) = (insert (through f before) sorted x).map f := by
  simp [insert, through, Option.any_map, List.map_take, List.map_drop]

theorem foldl_insert_map (sorted items : List α) :
    (items.map f).foldl (insert before) (sorted.map f) =
      (items.foldl (insert (through f before)) sorted).map f := by
  induction items generalizing sorted with
  | nil => rfl
  | cons x rest ih => rw [List.map_cons, List.foldl_cons, insert_map, ih, List.foldl_cons]

theorem longRun_map (least : Nat) (items : List α) :
    longRun before least (items.map f) =
      (longRun (through f before) least items).map (List.map f) (List.map f) := by
  simp [longRun, firstRun_map, List.map_take, List.map_drop, ← foldl_insert_map]

/-! ### The stack -/

def Run.map (f : α → β) (r : Run α) : Run β := ⟨r.items.map f, r.start, r.power⟩

theorem join_map (patience : Nat) (left right : Run α) :
    (left.map f).join before patience (right.map f) =
      (left.join (through f before) patience right).map (Run.map f) id := by
  simp [Run.join, Run.map, merge_map]

theorem settle_map (depth patience : Nat) (last : Run α) (runs : List (Run α)) :
    settle before depth patience (last.map f) (runs.map (Run.map f)) =
      (settle (through f before) depth patience last runs).map (List.map (Run.map f)) id := by
  induction runs generalizing last patience with
  | nil => rfl
  | cons r earlier ih =>
    by_cases h : depth < r.power
    · have hdeep : depth < (r.map f).power := h
      simp [settle, join_map, h, hdeep, ih]
    · have hdeep : ¬ depth < (r.map f).power := h
      simp [settle, h, hdeep]
      rfl

theorem collapse_map (patience : Nat) (runs : List (Run α)) :
    collapse before patience (runs.map (Run.map f)) =
      (collapse (through f before) patience runs).map f := by
  fun_induction collapse (through f before) patience runs with
  | case1 => simp [collapse]
  | case2 => simp [collapse, Run.map]
  | case3 patience last r =>
    simp only [List.map_cons, List.map_nil, collapse, join_map]
    rfl
  | case4 patience last r s earlier shorter joined _ found ih =>
    have hshorter : (s.map f).items.length < (last.map f).items.length := by
      simpa [Run.map] using shorter
    simp [collapse, join_map, hshorter, found, ← ih]
  | case5 patience last r s earlier longer joined _ found ih =>
    have hlonger : ¬ (s.map f).items.length < (last.map f).items.length := by
      simpa [Run.map] using longer
    simp [collapse, join_map, hlonger, found, ← ih]

theorem readRuns_map (total fuel patience start : Nat) (runs : List (Run α)) (items : List α) :
    readRuns before total fuel patience start (runs.map (Run.map f)) (items.map f) =
      (readRuns (through f before) total fuel patience start runs items).map f := by
  induction fuel generalizing patience start runs items with
  | zero =>
    rw [readRuns, readRuns, ← collapse_map]
    rfl
  | succ fuel ih =>
    have hfound (run : List α) (start : Nat) : (⟨run.map f, start, 0⟩ : Run β) =
        Run.map f ⟨run, start, 0⟩ := rfl
    simp only [readRuns, List.isEmpty_map, List.length_map, longRun_map, Prod.map_fst,
      Prod.map_snd, hfound]
    split_ifs
    · exact collapse_map f before patience runs
    · cases runs with
      | nil => exact ih _ _ [_] _
      | cons last earlier =>
        have hpower (next : Nat) : power total (last.map f) next = power total last next := by
          simp [power, Run.map]
        simp only [List.map_cons, settle_map, hpower]
        exact ih _ _ (_ :: _) _

/-- Sorting items by what they are without their marks is sorting them without marks. -/
theorem sortBy_map (items : List α) :
    sortBy before (items.map f) = (sortBy (through f before) items).map f := by
  rw [sortBy, List.length_map]
  exact readRuns_map f before items.length items.length worthwhile 0 [] items

end Vitae.Sorting
