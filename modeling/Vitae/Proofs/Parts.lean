import Vitae.Proofs.Entries
import Vitae.Value.Basic

/-! The parts of a value.

A value holds others, at any depth (`Value.Within`), and what is shown of a value from its parts is
shown of all values (`Value.byParts`). No key comes twice in an object, nor in the objects that it
holds (`Value.OnceThroughout`); whether that is so of a value can be computed. -/

namespace Vitae

namespace Value

/-- A value stands in another, at whatever depth, or is the other. -/
inductive Within (v : Value) : Value → Prop
  | self : Within v v
  | item {w : Value} {items : List Value} (hw : w ∈ items) (h : Within v w) :
      Within v (.list items)
  | field {e : Key × Value} {fields : Fields} (he : e ∈ fields) (h : Within v e.2) :
      Within v (.object fields)

/-- What holds of values without parts, and of values whose parts it holds of, holds of all. -/
@[elab_as_elim]
theorem byParts {motive : Value → Prop} (plain : ∀ v : Value, v.isKey = true → motive v)
    (list : ∀ items : List Value, (∀ v ∈ items, motive v) → motive (.list items))
    (object : ∀ fields : Fields, (∀ e ∈ fields, motive e.2) → motive (.object fields)) :
    ∀ v : Value, motive v
  | .list items => list items fun v _ => byParts plain list object v
  | .object fields => object fields fun e _ => byParts plain list object e.2
  | .null => plain _ rfl
  | .unset => plain _ rfl
  | .bool _ => plain _ rfl
  | .int _ => plain _ rfl
  | .float _ => plain _ rfl
  | .str _ => plain _ rfl
  | .date _ => plain _ rfl
  | .moment _ => plain _ rfl
termination_by v => sizeOf v
decreasing_by
  · have := List.sizeOf_lt_of_mem ‹_ ∈ items›
    simp only [Value.list.sizeOf_spec]
    omega
  · have hmem := List.sizeOf_lt_of_mem ‹_ ∈ fields›
    have hpart : sizeOf e.2 < sizeOf e := by
      cases e
      simp only [Prod.mk.sizeOf_spec]
      omega
    simp only [Value.object.sizeOf_spec]
    omega

/-! ### Keys that come once -/

/-- In every object that stands in a value, no key comes twice. -/
def OnceThroughout (v : Value) : Prop := ∀ fields, Within (.object fields) v → Keyed.Once fields

theorem onceThroughout_plain {v : Value} (h : v.isKey = true) : OnceThroughout v := by
  intro fields hfields
  cases hfields with
  | self | item | field => cases h

theorem onceThroughout_list {items : List Value} :
    OnceThroughout (.list items) ↔ ∀ v ∈ items, OnceThroughout v := by
  constructor
  · exact fun h v hv fields hfields => h fields (.item hv hfields)
  · intro h fields hfields
    cases hfields with
    | item hv hfields => exact h _ hv fields hfields

theorem onceThroughout_object {fields : Fields} :
    OnceThroughout (.object fields) ↔
      Keyed.Once fields ∧ ∀ e ∈ fields, OnceThroughout e.2 := by
  constructor
  · exact fun h => ⟨h fields .self, fun e he inner hinner => h inner (.field he hinner)⟩
  · rintro ⟨honce, hparts⟩ inner hinner
    cases hinner with
    | self => exact honce
    | field he hinner => exact hparts _ he inner hinner

mutual

/-- Whether no key comes twice in any object that stands in a value. -/
def isOnceThroughout : Value → Bool
  | .list items => areOnceThroughout items
  | .object fields => decide (Keyed.Once fields) && haveOnceThroughout fields
  | _ => true

def areOnceThroughout : List Value → Bool
  | [] => true
  | v :: rest => isOnceThroughout v && areOnceThroughout rest

def haveOnceThroughout : List (Key × Value) → Bool
  | [] => true
  | (_, v) :: rest => isOnceThroughout v && haveOnceThroughout rest

end

theorem areOnceThroughout_eq (items : List Value) :
    areOnceThroughout items = items.all isOnceThroughout := by
  induction items with
  | nil => rfl
  | cons v rest ih => rw [areOnceThroughout, ih, List.all_cons]

theorem haveOnceThroughout_eq (fields : Fields) :
    haveOnceThroughout fields = fields.all fun e => isOnceThroughout e.2 := by
  induction fields with
  | nil => rfl
  | cons e rest ih => rw [haveOnceThroughout, ih, List.all_cons]

theorem isOnceThroughout_plain {v : Value} (h : v.isKey = true) : v.isOnceThroughout = true := by
  cases v <;> first | rfl | cases h

theorem isOnceThroughout_iff {v : Value} : v.isOnceThroughout = true ↔ OnceThroughout v := by
  induction v using byParts with
  | plain v h => exact iff_of_true (isOnceThroughout_plain h) (onceThroughout_plain h)
  | list items ih =>
    rw [isOnceThroughout, areOnceThroughout_eq, List.all_eq_true, onceThroughout_list]
    exact forall₂_congr ih
  | object fields ih =>
    rw [isOnceThroughout, haveOnceThroughout_eq, Bool.and_eq_true, decide_eq_true_iff,
      List.all_eq_true, onceThroughout_object]
    exact and_congr_right fun _ => forall₂_congr ih

instance (v : Value) : Decidable (OnceThroughout v) := decidable_of_iff _ isOnceThroughout_iff

end Value

end Vitae
