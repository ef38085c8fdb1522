import Mathlib.Algebra.Order.Ring.Nat
import Vitae.Page

/-! How columns share a page.

Whatever layout type and distribution a document names, the columns of its page have
names and places of their own and share the whole width (`arrange_shared`). The main
column is always there; the sidebar is there for the types that ask for it
(`mem_arrange_iff`). -/

namespace Vitae.Page

/-- Columns with names and places of their own that share the whole width, the main
column among them. -/
structure Shared (columns : List PageColumn) : Prop where
  names : (columns.map PageColumn.id).Nodup
  main : mainId ∈ columns.map PageColumn.id
  places : columns.map PageColumn.order = List.range columns.length
  positive : ∀ c ∈ columns, 0 < c.width
  total : (columns.map PageColumn.width).sum = 100

/-- Shares of two columns that make up the whole. -/
def Whole (s : Design.Shares) : Prop := 0 < s.main ∧ 0 < s.sidebar ∧ s.main + s.sidebar = 100

theorem whole_distribution (name : Option String) : Whole (Design.distributions.resolve name) :=
  Design.distributions.resolve_of_forall (by unfold Whole; decide) (by unfold Whole; decide) name

theorem columnsOf_shared (a : Arrangement) {shares : Design.Shares} (h : Whole shares) :
    Shared (columnsOf a shares) := by
  obtain ⟨hmain, hsidebar, htotal⟩ := h
  have positive : ∀ c ∈ columnsOf a shares, 0 < c.width := by
    cases a <;> simp [columnsOf, Design.magazineShares, hmain, hsidebar]
  cases a with
  | single => exact ⟨by simp [columnsOf], by simp [columnsOf], rfl, positive, rfl⟩
  | mainFirst =>
    exact ⟨(by decide : [mainId, sidebarId].Nodup), by simp [columnsOf], rfl, positive,
      by simpa [columnsOf] using htotal⟩
  | sidebarFirst =>
    exact ⟨(by decide : [sidebarId, mainId].Nodup), by simp [columnsOf], rfl, positive,
      by simpa [columnsOf, Nat.add_comm] using htotal⟩
  | magazine =>
    exact ⟨(by decide : [mainId, sidebarId].Nodup), by simp [columnsOf], rfl, positive, rfl⟩

theorem arrange_shared (type distribution : Option String) : Shared (arrange type distribution) :=
  columnsOf_shared _ (whole_distribution distribution)

/-! ### Which columns there are -/

/-- The layout types whose pages have a sidebar. -/
def sidebarTypes : List String := ["two-column", "sidebar-right", "sidebar-left", "magazine"]

/-- Those types and no others have more than the main column. -/
theorem resolve_eq_single_iff (type : Option String) :
    arrangements.resolve type = .single ↔ ∀ name ∈ type, name ∉ sidebarTypes := by
  have two : ∀ name ∈ sidebarTypes, arrangements.resolve (some name) ≠ .single := by decide
  have one : ∀ e ∈ arrangements.entries, e.1 ∉ sidebarTypes → e.2 = .single := by decide
  constructor
  · intro h name hname hmem
    rw [Option.mem_def.mp hname] at h
    exact two name hmem h
  · intro h
    cases type with
    | none => rfl
    | some name =>
      show (Keyed.get? arrangements.entries name).getD .single = .single
      cases hfound : Keyed.get? arrangements.entries name with
      | none => rfl
      | some a =>
        obtain ⟨_, hmem, hname⟩ := Keyed.mem_of_get? hfound
        rw [beq_iff_eq] at hname
        exact one _ hmem (hname ▸ h name rfl)

theorem mem_columnsOf_iff (a : Arrangement) (shares : Design.Shares) (id : String) :
    id ∈ (columnsOf a shares).map PageColumn.id ↔ id = mainId ∨ id = sidebarId ∧ a ≠ .single := by
  cases a <;> simp [columnsOf, or_comm]

theorem mem_arrange_iff (type distribution : Option String) (id : String) :
    id ∈ (arrange type distribution).map PageColumn.id ↔
      id = mainId ∨ id = sidebarId ∧ ∃ name ∈ type, name ∈ sidebarTypes := by
  rw [arrange, mem_columnsOf_iff, Ne, resolve_eq_single_iff]
  simp

end Vitae.Page
