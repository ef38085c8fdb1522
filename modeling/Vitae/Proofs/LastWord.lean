import Mathlib.Algebra.Order.Ring.Rat
import Mathlib.Data.List.Forall2
import Mathlib.Order.WithBot
import Vitae.Proofs.Arrangement
import Vitae.Proofs.Entries
import Vitae.Proofs.Precedence

/-! The last word about an item.

Overrides are applied one after the other, so whatever a list of them says about an item, the last
override that matches the item and says anything of the kind has the last word (`lastSaid`): whether
the item survives, which key it is sorted by, and what each of its fields is. Those that
survive then stand in the order of their keys, and for equal keys in that of their positions
(`Override.Lineup`). Positions are those in the list of all items, hidden ones included. -/

namespace Vitae

namespace Number

/-- Where a number stands, as an element of an ordered line. -/
def rank (n : Number) : WithBot (WithTop Rat) :=
  match n.place? with
  | some (.at q) => ((q : WithTop Rat) : WithBot (WithTop Rat))
  | some .above => ((⊤ : WithTop Rat) : WithBot (WithTop Rat))
  | _ => ⊥

variable {m n : Number}

theorem lt_eq_rank (hm : m.place?.isSome = true) (hn : n.place?.isSome = true) :
    m.lt n = decide (m.rank < n.rank) := by
  obtain ⟨p, hp⟩ := Option.isSome_iff_exists.mp hm
  obtain ⟨q, hq⟩ := Option.isSome_iff_exists.mp hn
  have hbound (q : Rat) : ((q : WithTop Rat) : WithBot (WithTop Rat)) < ⊤ :=
    WithBot.coe_lt_coe.mpr (WithTop.coe_lt_top q)
  cases p <;> cases q <;> simp [lt, rank, hp, hq, Place.lt, WithBot.coe_lt_coe, hbound]

theorem same_iff_rank (hm : m.place?.isSome = true) (hn : n.place?.isSome = true) :
    m.same n = true ↔ m.rank = n.rank := by
  obtain ⟨p, hp⟩ := Option.isSome_iff_exists.mp hm
  obtain ⟨q, hq⟩ := Option.isSome_iff_exists.mp hn
  cases p <;> cases q <;> simp [same, rank, hp, hq]

theorem isSome_place? (h : n ≠ .float .nan) : n.place?.isSome = true := by
  cases n with
  | int n => rfl
  | float x =>
    cases x with
    | nan => exact absurd rfl h
    | _ => rfl

end Number

namespace Override

/-! ### What overrides say -/

/-- An override is for the item with the identifier that it names, or, if it names none, for the
item at its position. -/
def Matches (o item : Fields) (position : Nat) : Prop :=
  (Value.field o "itemId" ≠ .null ∧
      (Value.field item "id").alike (Value.field o "itemId") = true) ∨
    (Value.field o "itemId" = .null ∧ Value.field o "index" = .int position)

variable {α : Type} {overrides items : List Fields} {o item : Fields} {position : Nat}

theorem isFor_iff :
    isFor o (Value.field item "id") position = true ↔ Matches o item position := by
  unfold isFor Matches
  cases hnull : Value.field o "itemId" with
  | null => cases Value.field o "index" <;> simp [Value.isNull]
  | _ => simp [Value.isNull]

instance : Decidable (Matches o item position) := decidable_of_iff _ isFor_iff

/-- The last thing of a kind that is said by an override for an item. -/
def lastSaid (overrides : List Fields) (item : Fields) (position : Nat)
    (word : Fields → Option α) : Option α :=
  overrides.reverse.findSome? fun o => if Matches o item position then word o else none

/-- An item is hidden by the truth value false alone. -/
def Survives (overrides : List Fields) (item : Fields) (position : Nat) : Prop :=
  lastSaid overrides item position (Keyed.get? · "visible") ≠ some (.bool false)

/-- An item without a key of its own is sorted by its position. -/
def sortKey (overrides : List Fields) (item : Fields) (position : Nat) : Number :=
  (lastSaid overrides item position fun o => (Value.field o "order").number?).getD (.int position)

/-- Fields are those that were said last, but reserved ones stay what they are. -/
def Patched (overrides : List Fields) (item : Fields) (position : Nat) (out : Fields) : Prop :=
  ∀ key, Keyed.get? out key =
    if reserved.contains key then Keyed.get? item key
    else (lastSaid overrides item position (Keyed.get? · key)).or (Keyed.get? item key)

/-- Items and their positions in the order in which they are shown. -/
structure Lineup (overrides items : List Fields) (order : List (Fields × Nat)) : Prop where
  once : order.Nodup
  survivors : ∀ e, e ∈ order ↔ e ∈ items.zipIdx ∧ Survives overrides e.1 e.2
  ascending : order.Pairwise fun a b =>
    (sortKey overrides a.1 a.2).lt (sortKey overrides b.1 b.2) = true ∨
      (sortKey overrides a.1 a.2).same (sortKey overrides b.1 b.2) = true ∧ a.2 < b.2

/-! ### One item -/

theorem lastSaid_cons (later : List Fields) (word : Fields → Option α) :
    lastSaid (o :: later) item position word =
      (lastSaid later item position word).or
        (if Matches o item position then word o else none) := by
  rw [lastSaid, List.reverse_cons, List.findSome?_append]
  congr 1
  rw [List.findSome?_cons]
  cases (if Matches o item position then word o else none) <;> rfl

/-- What an entry shows, after overrides each of which replaces it or leaves it, is what was said
last. -/
theorem foldl_lastSaid (view : Entry → α) (word : Fields → Option α)
    (hstep : ∀ o ∈ overrides, ∀ e, view (applyOne e o) = (word o).getD (view e)) (e : Entry) :
    view ((overrides.filter fun o => isFor o (Value.field item "id") position).foldl applyOne e) =
      (lastSaid overrides item position word).getD (view e) := by
  induction overrides generalizing e with
  | nil => rfl
  | cons o later ih =>
    obtain ⟨ho, hlater⟩ := List.forall_mem_cons.mp hstep
    rw [lastSaid_cons, Option.getD_or, List.filter_cons]
    by_cases hmatch : Matches o item position
    · rw [if_pos (isFor_iff.mpr hmatch), if_pos hmatch, List.foldl_cons, ih hlater, ho]
    · rw [if_neg (mt isFor_iff.mp hmatch), if_neg hmatch, ih hlater]
      rfl

theorem lastSaid_map {β : Type} (word : Fields → Option α) (f : α → β) :
    lastSaid overrides item position (fun o => (word o).map f) =
      (lastSaid overrides item position word).map f := by
  induction overrides with
  | nil => rfl
  | cons o later ih =>
    rw [lastSaid_cons, lastSaid_cons, ih, Option.map_or]
    split <;> rfl

theorem shows_iff {v : Value} : shows v = true ↔ v ≠ .bool false := by
  cases v with
  | bool b => cases b <;> simp [shows]
  | _ => simp [shows]

theorem visible_entry :
    (entry overrides item position).visible = true ↔ Survives overrides item position := by
  have hstep : ∀ o ∈ overrides, ∀ e : Entry,
      (applyOne e o).visible = ((Keyed.get? o "visible").map shows).getD e.visible := by
    intro o _ e
    rw [applyOne]
    cases Keyed.get? o "visible" <;> rfl
  rw [entry, foldl_lastSaid Entry.visible _ hstep, lastSaid_map, Survives]
  cases lastSaid overrides item position (Keyed.get? · "visible") <;> simp [shows_iff]

theorem key_entry : (entry overrides item position).key = sortKey overrides item position :=
  foldl_lastSaid Entry.key _ (fun _ _ _ => rfl) _

theorem contains_reserved {key other : Key} (h : (key == other) = true) :
    reserved.contains key = reserved.contains other :=
  List.contains_congr h

theorem get?_patch (o : Fields) (key : Key) :
    Keyed.get? (patch o) key = if reserved.contains key then none else Keyed.get? o key := by
  cases hreserved : reserved.contains key with
  | true =>
    refine Keyed.get?_eq_none fun e he => ?_
    have hfree : reserved.contains e.1 = false := by simpa using (List.mem_filter.mp he).2
    by_contra hkey
    rw [contains_reserved (Bool.not_eq_false _ ▸ hkey), hreserved] at hfree
    cases hfree
  | false =>
    refine Keyed.get?_filter fun e _ hkey => ?_
    rw [contains_reserved hkey, hreserved]
    rfl

theorem once_patch (h : Keyed.Once o) : Keyed.Once (patch o) := h.filter _

theorem patched_entry (honce : ∀ o ∈ overrides, Keyed.Once o) :
    Patched overrides item position (entry overrides item position).item := by
  intro key
  have hstep : ∀ o ∈ overrides, ∀ e : Entry, Keyed.get? (applyOne e o).item key =
      ((Keyed.get? (patch o) key).map some).getD (Keyed.get? e.item key) := by
    intro o ho e
    show Keyed.get? (Keyed.setAll e.item (patch o)) key = _
    rw [Keyed.get?_setAll (once_patch (honce o ho))]
    cases Keyed.get? (patch o) key <;> rfl
  rw [entry, foldl_lastSaid (fun e => Keyed.get? e.item key) _ hstep, lastSaid_map]
  simp only [get?_patch]
  cases reserved.contains key with
  | true =>
    -- No override says anything about a reserved field.
    have hsilent : lastSaid overrides item position (fun _ => (none : Option Value)) = none := by
      simp [lastSaid]
    simp only [if_true, hsilent]
    rfl
  | false =>
    simp only [Bool.false_eq_true, if_false]
    cases lastSaid overrides item position (Keyed.get? · key) <;> rfl

/-! ### All items -/

theorem exists_of_lastSaid {word : Fields → Option α} {a : α}
    (h : lastSaid overrides item position word = some a) :
    ∃ o ∈ overrides, Matches o item position ∧ word o = some a := by
  obtain ⟨o, ho, hword⟩ := List.exists_of_findSome?_eq_some h
  split at hword
  · exact ⟨o, List.mem_reverse.mp ho, ‹_›, hword⟩
  · cases hword

/-- No override gives a key that is not-a-number. -/
def Sortable (overrides : List Fields) : Prop :=
  ∀ o ∈ overrides, Value.field o "order" ≠ .float .nan

theorem isSome_place?_sortKey (h : Sortable overrides) (item : Fields) (position : Nat) :
    (sortKey overrides item position).place?.isSome = true := by
  rw [sortKey]
  cases hkey : lastSaid overrides item position fun o => (Value.field o "order").number? with
  | none => rfl
  | some key =>
    obtain ⟨o, ho, _, hnumber⟩ := exists_of_lastSaid hkey
    refine Number.isSome_place? fun hnan => h o ho ?_
    have hnan : key = .float .nan := hnan
    rw [hnan] at hnumber
    cases horder : Value.field o "order" <;> rw [horder] at hnumber <;> cases hnumber
    rfl

theorem pairwise_zipIdx (items : List Fields) : items.zipIdx.Pairwise fun a b => a.2 < b.2 := by
  have hpositions : (items.zipIdx.map Prod.snd).Pairwise (· < ·) := by
    rw [List.zipIdx_map_snd]
    exact List.pairwise_lt_range'
  exact List.pairwise_map.mp hpositions

theorem nodup_zipIdx (items : List Fields) : items.zipIdx.Nodup := by
  refine (pairwise_zipIdx items).imp fun {a b} hlt hsame => ?_
  subst hsame
  exact lt_irrefl _ hlt

/-- Items and positions in the order of the page. -/
def shown (overrides items : List Fields) : List (Fields × Nat) :=
  (items.zipIdx.filter fun e => (entry overrides e.1 e.2).visible).mergeSort fun a b =>
    decide ((sortKey overrides a.1 a.2).rank ≤ (sortKey overrides b.1 b.2).rank)

/-- Keys that all have places leave one order. -/
theorem arranged_eq_shown
    (h : ∀ e ∈ staying overrides items, (sortKey overrides e.1 e.2).place?.isSome = true) :
    arranged overrides items = shown overrides items := by
  have hplaced : ∀ e ∈ staying overrides items, isPlaced (under overrides e) = true := by
    intro e he
    rw [isPlaced, under, key_entry]
    exact h e he
  rw [arranged, sortedAs, if_pos (List.all_eq_true.mpr hplaced)]
  refine mergeSort_congr fun a ha b hb => ?_
  rw [before, under, under, key_entry, key_entry, Number.lt_eq_rank (h b hb) (h a ha), ← decide_not]
  exact decide_eq_decide.mpr not_lt

theorem applyAll_eq (h : Sortable overrides) (items : List Fields) :
    applyAll overrides items =
      (shown overrides items).map fun e => (entry overrides e.1 e.2).item := by
  rw [applyAll_eq_map, arranged_eq_shown fun e _ => isSome_place?_sortKey h e.1 e.2]
  rfl

theorem lineup_shown (h : Sortable overrides) (items : List Fields) :
    Lineup overrides items (shown overrides items) := by
  have hnodup := (nodup_zipIdx items).filter fun e => (entry overrides e.1 e.2).visible
  have hperm := List.mergeSort_perm
    (items.zipIdx.filter fun e => (entry overrides e.1 e.2).visible) fun a b =>
      decide ((sortKey overrides a.1 a.2).rank ≤ (sortKey overrides b.1 b.2).rank)
  refine ⟨hperm.nodup_iff.mpr hnodup, fun e => ?_, ?_⟩
  · rw [shown, hperm.mem_iff, List.mem_filter, visible_entry]
  · refine List.pairwise_iff_forall_sublist.mpr fun {a b} hab => ?_
    have hplaced (e : Fields × Nat) := isSome_place?_sortKey h e.1 e.2
    have ha := hperm.mem_iff.mp (hab.subset List.mem_cons_self)
    have hb := hperm.mem_iff.mp (Precedes.right_mem hab)
    rcases (precedes_mergeSort hnodup ha hb).mp hab with hlt | ⟨heq, hbefore⟩
    · left
      rw [Number.lt_eq_rank (hplaced a) (hplaced b)]
      exact decide_eq_true hlt
    · refine .inr ⟨(Number.same_iff_rank (hplaced a) (hplaced b)).mpr heq, ?_⟩
      have hpositions := ((pairwise_zipIdx items).filter _).sublist hbefore
      simpa using hpositions

/-! ### Values of any shape -/

theorem ofValue_list (overrides : List Value) :
    ofValue (.list overrides) = .ok (overrides.filterMap Value.fields?) := by
  cases overrides <;> rfl

theorem applyValues_objects (items : List Fields) (overrides : List Value) :
    applyValues (.list (items.map .object)) (.list overrides) =
      .ok (applyAll (overrides.filterMap Value.fields?) items) := by
  have hitems : (items.map Value.object).mapM (itemOf (overrides.filterMap Value.fields?)) =
      .ok items := by
    induction items with
    | nil => rfl
    | cons item rest ih => rw [List.map_cons, List.mapM_cons, ih]; rfl
  rw [applyValues, ofValue_list]
  show ((items.map Value.object).mapM (itemOf (overrides.filterMap Value.fields?)) >>= fun found =>
    Except.ok (applyAll (overrides.filterMap Value.fields?) found)) = _
  rw [hitems]
  rfl

/-- Items under overrides, whatever is among the overrides that is none: those that survive stand in
the order of their keys, each with the fields that were said last. -/
theorem applyValues_lastSaid (items : List Fields) {overrides : List Value}
    (honce : ∀ o ∈ overrides.filterMap Value.fields?, Keyed.Once o)
    (hsortable : Sortable (overrides.filterMap Value.fields?)) :
    ∃ order result, applyValues (.list (items.map .object)) (.list overrides) = .ok result ∧
      Lineup (overrides.filterMap Value.fields?) items order ∧
      List.Forall₂ (fun e out => Patched (overrides.filterMap Value.fields?) e.1 e.2 out)
        order result := by
  refine ⟨_, _, applyValues_objects items overrides, lineup_shown hsortable items, ?_⟩
  rw [applyAll_eq hsortable, List.forall₂_map_right_iff, List.forall₂_same]
  exact fun e _ => patched_entry honce

/-- An item that is hidden and then shown again, and moved behind another one by a fraction; a text
among the overrides says nothing. -/
theorem applyValues_lastSaid_shownAgain :
    let items : List Fields := [[("id", .str "a"), ("title", .str "A")], [("id", .str "b")]]
    let hidden : Fields := [("itemId", .str "a"), ("visible", .bool false)]
    let moved : Fields := [("index", .int 0), ("visible", .int 0), ("order", .float (.ofInt 2)),
      ("title", .str "Moved")]
    let overrides : List Value := [.object hidden, .str "a", .object moved]
    ∃ order result, applyValues (.list (items.map .object)) (.list overrides) = .ok result ∧
      Lineup [hidden, moved] items order ∧
      List.Forall₂ (fun e out => Patched [hidden, moved] e.1 e.2 out) order result := by
  intro items hidden moved overrides
  have honce : ∀ o ∈ overrides.filterMap Value.fields?, Keyed.Once o :=
    List.forall_mem_cons.mpr ⟨by unfold Keyed.Once; decide,
      List.forall_mem_cons.mpr ⟨by unfold Keyed.Once; decide, nofun⟩⟩
  have hsortable : Sortable (overrides.filterMap Value.fields?) :=
    List.forall_mem_cons.mpr ⟨nofun, List.forall_mem_cons.mpr ⟨nofun, nofun⟩⟩
  exact applyValues_lastSaid items honce hsortable

end Override

end Vitae
