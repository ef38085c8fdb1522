import Vitae.Proofs.Overriding
import Vitae.Proofs.Validation

/-! What can be left out of a document.

`Thinned` says what is left of a list when some elements that can be spared are left out: what
is looked for is still found, and what was read one by one still can be. A document is trimmed
when hidden sections are left out of it, and overrides that are for no visible section
(`Document.Trimmed`). Its rules are kept and its sections are placed as before
(`Document.Trimmed.place`). -/

namespace Vitae

/-! ### Lists -/

/-- What is left of a list when some elements that can be spared are left out. -/
inductive Thinned {α : Type} (spare : α → Prop) : List α → List α → Prop
  | nil : Thinned spare [] []
  | keep {all left : List α} (a : α) (h : Thinned spare all left) :
      Thinned spare (a :: all) (a :: left)
  | drop {all left : List α} {a : α} (ha : spare a) (h : Thinned spare all left) :
      Thinned spare (a :: all) left

namespace Thinned

variable {α β : Type} {spare : α → Prop} {others : β → Prop} {all left : List α}

theorem refl (all : List α) : Thinned spare all all := by
  induction all with
  | nil => exact .nil
  | cons a _ ih => exact .keep a ih

theorem sublist (h : Thinned spare all left) : left.Sublist all := by
  induction h with
  | nil => exact .slnil
  | keep a _ ih => exact ih.cons_cons a
  | drop _ _ ih => exact ih.cons _

/-- Where nothing that can be spared is looked for, nothing is missed. -/
theorem filter_eq (h : Thinned spare all left) {p : α → Bool} (hp : ∀ a, spare a → p a = false) :
    left.filter p = all.filter p := by
  induction h with
  | nil => rfl
  | keep a _ ih => rw [List.filter_cons, List.filter_cons, ih]
  | drop ha _ ih => rw [List.filter_cons_of_neg (by simp [hp _ ha]), ih]

theorem get?_eq {κ : Type} [BEq κ] {spare : κ × α → Prop} {all left : Keyed κ α}
    (h : Thinned spare all left) {key : κ} (hkey : ∀ e, spare e → (e.1 == key) = false) :
    Keyed.get? left key = Keyed.get? all key := by
  induction h with
  | nil => rfl
  | keep e _ ih => simp only [Keyed.get?, ih]
  | drop he _ ih => simp [Keyed.get?, hkey _ he, ih]

theorem map (h : Thinned spare all left) {f : α → β} (hf : ∀ a, spare a → others (f a)) :
    Thinned others (all.map f) (left.map f) := by
  induction h with
  | nil => exact .nil
  | keep a _ ih => exact .keep _ ih
  | drop ha _ ih => exact .drop (hf _ ha) ih

/-- A list that is read one by one can be read with less in it. -/
theorem exists_forall₂ {R : α → β → Prop} {found : List β} (h : Thinned spare all left)
    (hall : List.Forall₂ R all found) (hR : ∀ a b, R a b → spare a → others b) :
    ∃ kept, List.Forall₂ R left kept ∧ Thinned others found kept := by
  induction h generalizing found with
  | nil =>
    cases hall
    exact ⟨[], .nil, .nil⟩
  | keep a _ ih =>
    cases hall with
    | cons ha hrest =>
      obtain ⟨kept, hkept, hthin⟩ := ih hrest
      exact ⟨_, .cons ha hkept, .keep _ hthin⟩
  | drop hspare _ ih =>
    cases hall with
    | cons ha hrest =>
      obtain ⟨kept, hkept, hthin⟩ := ih hrest
      exact ⟨kept, hkept, .drop (hR _ _ ha hspare) hthin⟩

end Thinned

/-! ### What may be absent -/

section Optional

variable {α β γ δ : Type} {R : α → β → Prop} {S : γ → δ → Prop} {x : Option α} {y : Option β}

theorem Option.Rel.getD (h : Option.Rel R x y) {a : α} {b : β} (hab : R a b) :
    R (x.getD a) (y.getD b) := by
  cases h with
  | none => exact hab
  | some h => exact h

theorem Option.Rel.or (h : Option.Rel R x y) {x' : Option α} {y' : Option β}
    (h' : Option.Rel R x' y') : Option.Rel R (x.or x') (y.or y') := by
  cases h with
  | none => exact h'
  | some h => exact .some h

theorem Option.Rel.map (h : Option.Rel R x y) {f : α → γ} {g : β → δ}
    (hfg : ∀ a b, R a b → S (f a) (g b)) : Option.Rel S (x.map f) (y.map g) := by
  cases h with
  | none => exact .none
  | some h => exact .some (hfg _ _ h)

end Optional

/-! ### Documents -/

/-- A visible section has this identifier. -/
def Document.Shows (d : Document) (id : String) : Prop :=
  ∃ s ∈ d.sections, s.visible = true ∧ s.id = id

/-- A document without some of its hidden sections, and without some of the overrides that are
for no visible section. -/
structure Document.Trimmed (d e : Document) : Prop where
  version : e.version = d.version
  layout : e.layout = d.layout
  tokens : e.tokens = d.tokens
  sections : Thinned (fun s => s.visible = false) d.sections e.sections
  overrides : Option.Rel (Thinned fun entry => ¬ d.Shows entry.1) d.itemOverrides e.itemOverrides

namespace Document.Trimmed

variable {d e : Document}

theorem sectionErrors (h : d.Trimmed e)
    (hd : Validation.sectionErrors (Validation.idsOf d) = []) :
    Validation.sectionErrors (Validation.idsOf e) = [] := by
  rw [Validation.sectionErrors_eq_nil] at hd ⊢
  obtain ⟨hcount, hnames⟩ := hd
  have hsublist := h.sections.sublist
  exact ⟨hsublist.length_le.trans hcount, hnames.sublist (hsublist.map _)⟩

theorem visibleSections (h : d.Trimmed e) :
    Placement.visibleSections e = Placement.visibleSections d := by
  rw [Placement.visibleSections, Placement.visibleSections, h.sections.filter_eq fun _ hs => hs]

theorem overridesFor (h : d.Trimmed e) {id : String} (hid : d.Shows id) :
    e.overridesFor id = d.overridesFor id := by
  have hthin : Thinned (fun entry => ¬ d.Shows entry.1) (d.itemOverrides.getD [])
      (e.itemOverrides.getD []) := Option.Rel.getD h.overrides .nil
  have hkey : ∀ entry : String × List Fields, ¬ d.Shows entry.1 → (entry.1 == id) = false :=
    fun entry hspare => beq_eq_false_iff_ne.mpr fun heq => hspare (heq ▸ hid)
  rw [Document.overridesFor, Document.overridesFor, hthin.get?_eq hkey]

/-- What is left has the same page. -/
theorem place (h : d.Trimmed e) (design : DesignStyle) (resume : Value)
    (registry : SectionRegistry) :
    (Placement.place e design resume registry).result =
      (Placement.place d design resume registry).result := by
  rw [Placement.place, Placement.place, h.visibleSections]
  refine Placement.placeAll_congr fun s hs => ?_
  obtain ⟨hs, hvisible⟩ := Placement.mem_visibleSections.mp hs
  rw [Placement.result_placeOne, Placement.result_placeOne,
    h.overridesFor ⟨s, hs, hvisible, rfl⟩]

end Document.Trimmed

end Vitae
