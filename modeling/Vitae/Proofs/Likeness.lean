import Vitae.Value.Equality

/-! When identifiers are alike.

Values that can be keys are alike when they have one identity, whichever kind of value holds it
(`Value.alike_iff`). Not-a-number is alike to nothing. So comparing by `Value.alike` is symmetric
and transitive among keys, and two keys that are alike are alike to the same values
(`Value.alike_congr`). -/

namespace Vitae

namespace Number

/-- Numbers are the same when they have one identity and are numbers at all. -/
theorem same_iff {m n : Number} :
    m.same n = true ↔ Key.ofNumber m = Key.ofNumber n ∧ Key.ofNumber m ≠ .notANumber := by
  unfold same Key.ofNumber
  cases m.place? <;> cases n.place? <;> simp

end Number

namespace Value

/-- What a value is as a key, if it can be one. -/
def identity? (v : Value) : Option Key.Identity := v.key?.map Key.identity

theorem alike_iff {a b : Value} (ha : a.isKey = true) :
    a.alike b = true ↔ a.identity? = b.identity? ∧ a.identity? ≠ some .notANumber := by
  -- Only numbers and truth values share an identity across kinds.
  cases a <;> cases b <;>
    simp [alike, alikeLeaf, comparable?, Number.same_iff, identity?, key?, Key.identity,
      Moment.same, isKey] at ha ⊢ <;>
    grind [Key.ofNumber]

theorem isKey_of_identity? {a : Value} {i : Key.Identity} (h : a.identity? = some i) :
    a.isKey = true := by
  obtain ⟨k, hk, _⟩ := Option.map_eq_some_iff.mp h
  rw [isKey, hk]
  rfl

/-- What a key is alike to is a key. -/
theorem isKey_of_alike {a b : Value} (ha : a.isKey = true) (h : a.alike b = true) :
    b.isKey = true := by
  obtain ⟨k, hk⟩ := Option.isSome_iff_exists.mp ha
  have hsome : a.identity? = some k.identity := by rw [identity?, hk]; rfl
  exact isKey_of_identity? (((alike_iff ha).mp h).1 ▸ hsome)

theorem alike_symm {a b : Value} (ha : a.isKey = true) (h : a.alike b = true) :
    b.alike a = true := by
  obtain ⟨hsame, hnumber⟩ := (alike_iff ha).mp h
  exact (alike_iff (isKey_of_alike ha h)).mpr ⟨hsame.symm, hsame ▸ hnumber⟩

theorem alike_comm {a b : Value} (ha : a.isKey = true) (hb : b.isKey = true) :
    a.alike b = b.alike a :=
  Bool.eq_iff_iff.mpr ⟨alike_symm ha, alike_symm hb⟩

/-- Keys that are alike are alike to the same values. -/
theorem alike_congr {a b : Value} (ha : a.isKey = true) (h : a.alike b = true) (c : Value) :
    a.alike c = b.alike c := by
  obtain ⟨hsame, _⟩ := (alike_iff ha).mp h
  rw [Bool.eq_iff_iff, alike_iff ha, alike_iff (isKey_of_alike ha h), hsame]

end Value

end Vitae
