import Mathlib.Algebra.Order.Ring.Rat
import Mathlib.Data.List.Forall2
import Vitae.Proofs.Precedence
import Vitae.Section.Placement

/-! Where the sections of a page stand.

A page has the visible sections of its document, each once (`visibleSections_perm`),
and `precedes_visibleSections` says which of two stands first: the one with the smaller
order, and among equal orders the one that the document has first. Orders count by
their exact value (`weight`), whichever kind of number holds them. -/

namespace Vitae

namespace Placement

/-! ### The order of sections -/

/-- The exact value of a section's order. -/
def weight (s : Section) : Rat :=
  match s.order.place? with
  | some (.at q) => q
  | _ => 0

theorem place?_eq_weight {s : Section} (h : ∃ q, s.order.place? = some (.at q)) :
    s.order.place? = some (.at (weight s)) := by
  obtain ⟨q, hq⟩ := h
  rw [weight, hq]

/-- Sections whose orders have places are compared by the exact values. -/
theorem before_eq_weight {a b : Section} (ha : ∃ q, a.order.place? = some (.at q))
    (hb : ∃ q, b.order.place? = some (.at q)) : before a b = decide (weight a ≤ weight b) := by
  rw [before, Number.lt, place?_eq_weight ha, place?_eq_weight hb]
  show (!decide (weight b < weight a)) = _
  rw [← decide_not]
  exact decide_eq_decide.mpr not_lt

/-- Every section of a document has a place in the order. -/
def Ordered (d : Document) : Prop := ∀ s ∈ d.sections, ∃ q, s.order.place? = some (.at q)

theorem visibleSections_eq {d : Document} (h : Ordered d) :
    visibleSections d =
      (d.sections.filter Section.visible).mergeSort fun a b => decide (weight a ≤ weight b) :=
  mergeSort_congr fun a ha b hb =>
    before_eq_weight (h a (List.mem_filter.mp ha).1) (h b (List.mem_filter.mp hb).1)

theorem visibleSections_perm (d : Document) :
    (visibleSections d).Perm (d.sections.filter Section.visible) :=
  List.mergeSort_perm ..

theorem mem_visibleSections {d : Document} {s : Section} :
    s ∈ visibleSections d ↔ s ∈ d.sections ∧ s.visible = true := by
  rw [(visibleSections_perm d).mem_iff, List.mem_filter]

/-- Sections come in ascending order, and those of equal order as the document has them. -/
theorem precedes_visibleSections {d : Document} (h : Ordered d) (hd : d.sections.Nodup)
    {a b : Section} (ha : a ∈ visibleSections d) (hb : b ∈ visibleSections d) :
    Precedes (visibleSections d) a b ↔
      weight a < weight b ∨ weight a = weight b ∧ Precedes d.sections a b := by
  obtain ⟨ha', hva⟩ := mem_visibleSections.mp ha
  obtain ⟨hb', hvb⟩ := mem_visibleSections.mp hb
  rw [visibleSections_eq h, precedes_mergeSort (hd.filter _) (List.mem_filter.mpr ⟨ha', hva⟩)
    (List.mem_filter.mpr ⟨hb', hvb⟩), Precedes.filter_iff hva hvb]

/-! ### Placed sections -/

theorem placeOne_eq_ok {d : Document} {styles : SectionStyles} {resume : Value}
    {registry : SectionRegistry} {s : Section} {p : PlacedSection} :
    (placeOne d styles resume registry s).result = .ok p ↔
      ∃ payload, (registry.compile s.id resume (.ok (d.overridesFor s.id))).result = .ok payload ∧
        p = ⟨s.id, s.column.pageId, s.order, payload, styles⟩ := by
  rw [placeOne, Traced.result_bind_eq_ok]
  simp [eq_comm (b := p)]

/-- Sections are placed one by one, in order. -/
theorem placeAll_eq_ok {place : Section → Traced PlacedSection} {l : List Section}
    {placed : List PlacedSection} :
    (placeAll place l).result = .ok placed ↔
      List.Forall₂ (fun s p => (place s).result = .ok p) l placed := by
  induction l generalizing placed with
  | nil => cases placed <;> simp [placeAll]
  | cons s rest ih =>
    simp only [placeAll, Traced.result_bind_eq_ok, Traced.result_pure, ih]
    constructor
    · intro hparts
      obtain ⟨p, hp, later, hlater, hplaced⟩ := hparts
      cases hplaced
      exact .cons hp hlater
    · intro h
      cases h with
      | cons hp hlater => exact ⟨_, hp, _, hlater, rfl⟩

/-- A function of a placed section that its section determines. -/
theorem map_placed {α : Type} {d : Document} {styles : SectionStyles} {resume : Value}
    {registry : SectionRegistry} {placed : List PlacedSection} {l : List Section}
    {f : PlacedSection → α} {g : Section → α}
    (h : (placeAll (placeOne d styles resume registry) l).result = .ok placed)
    (hfg : ∀ s payload, f ⟨s.id, s.column.pageId, s.order, payload, styles⟩ = g s) :
    placed.map f = l.map g := by
  rw [placeAll_eq_ok] at h
  induction h with
  | nil => rfl
  | cons hp _ ih =>
    obtain ⟨payload, _, rfl⟩ := placeOne_eq_ok.mp hp
    rw [List.map_cons, List.map_cons, hfg, ih]

/-- Without a resume every section has its placeholder. -/
theorem result_place_null (d : Document) (design : DesignStyle) (registry : SectionRegistry) :
    (place d design .null registry).result =
      .ok ((visibleSections d).map fun s =>
        ⟨s.id, s.column.pageId, s.order, (registry.get s.id).placeholder, design.sectionStyles⟩) := by
  rw [place, placeAll_eq_ok, List.forall₂_map_right_iff, List.forall₂_same]
  intro s _
  rw [placeOne_eq_ok]
  exact ⟨_, rfl, rfl⟩

end Placement

end Vitae
