import Mathlib.Data.List.Forall2
import Vitae.Section.Placement

/-! Two runs side by side.

Two outcomes are parallel when they are one and the same failure, or two values that are
related. Work in sequence keeps runs parallel (`Except.Parallel.bind`), and so does the
placing of sections one after the other (`Placement.placeAll_parallel`), so what two pages
have in common is settled section by section. -/

namespace Vitae

/-- Two runs that fail in one way, or give related values. -/
inductive Except.Parallel {ε α β : Type} (R : α → β → Prop) : Except ε α → Except ε β → Prop
  | ok {a : α} {b : β} (h : R a b) : Parallel R (.ok a) (.ok b)
  | error (e : ε) : Parallel R (.error e) (.error e)

namespace Except.Parallel
variable {ε ε' α β γ δ : Type} {R : α → β → Prop} {S : γ → δ → Prop} {x : Except ε α}
  {y : Except ε β}

theorem bind (h : Parallel R x y) {f : α → Except ε γ} {g : β → Except ε δ}
    (hfg : ∀ a b, R a b → Parallel S (f a) (g b)) : Parallel S (x.bind f) (y.bind g) := by
  cases h with
  | error e => exact .error e
  | ok h => exact hfg _ _ h

theorem map (h : Parallel R x y) {f : α → γ} {g : β → δ} (hfg : ∀ a b, R a b → S (f a) (g b)) :
    Parallel S (x.map f) (y.map g) := by
  cases h with
  | error e => exact .error e
  | ok h => exact .ok (hfg _ _ h)

/-- What two runs have done alike so far does not count. -/
theorem bind_self (x : Except ε α) {f : α → Except ε γ} {g : α → Except ε δ}
    (h : ∀ a, Parallel S (f a) (g a)) : Parallel S (x.bind f) (x.bind g) := by
  cases x with
  | error e => exact .error e
  | ok a => exact h a

theorem map_self (x : Except ε α) {f : α → γ} {g : α → δ} (h : ∀ a, S (f a) (g a)) :
    Parallel S (x.map f) (x.map g) := by
  cases x with
  | error e => exact .error e
  | ok a => exact .ok (h a)

theorem mapError (h : Parallel R x y) (f : ε → ε') : Parallel R (x.mapError f) (y.mapError f) := by
  cases h with
  | error e => exact .error (f e)
  | ok h => exact .ok h

/-- What one run gives, the other gives a relative of. -/
theorem exists_ok (h : Parallel R x y) {a : α} (hx : x = .ok a) : ∃ b, y = .ok b ∧ R a b := by
  cases h with
  | error e => cases hx
  | ok h =>
    cases hx
    exact ⟨_, rfl, h⟩

theorem isOk_iff (h : Parallel R x y) : (∃ a, x = .ok a) ↔ ∃ b, y = .ok b := by
  cases h <;> simp

/-- A failure of one run is the failure of the other. -/
theorem error_iff (h : Parallel R x y) {e : ε} : x = .error e ↔ y = .error e := by
  cases h <;> simp

end Except.Parallel

namespace Placement

/-- Sections that are placed in parallel, one by one, make parallel pages. -/
theorem placeAll_parallel {R : PlacedSection → PlacedSection → Prop}
    {f g : Section → Traced PlacedSection} {l : List Section}
    (h : ∀ s ∈ l, Except.Parallel R (f s).result (g s).result) :
    Except.Parallel (List.Forall₂ R) (placeAll f l).result (placeAll g l).result := by
  induction l with
  | nil => exact .ok .nil
  | cons s rest ih =>
    have hrest := ih fun t ht => h t (List.mem_cons_of_mem _ ht)
    simp only [placeAll, Traced.result_bind]
    refine (h s (List.mem_cons_self ..)).bind fun p q hpq => ?_
    exact hrest.bind fun _ _ hlater => .ok (.cons hpq hlater)

end Placement

end Vitae
