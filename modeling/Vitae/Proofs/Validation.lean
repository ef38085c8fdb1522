import Vitae.Proofs.Reading

/-! When validation accepts.

A value is valid exactly when it can be read and the rules across sections hold:
at most fifty sections, and no identifier twice. -/

namespace Vitae.Validation

theorem tooMany_eq_nil {count : Nat} : tooMany count = [] ↔ count ≤ maxSections := by
  unfold tooMany
  split
  · simp; omega
  · simp; omega

/-- Nothing repeats exactly when no identifier was seen before and none comes twice. -/
theorem duplicates_eq_nil {seen : List String} {position : Nat} {ids : List String} :
    duplicates seen position (ids.map some) = [] ↔ ids.Nodup ∧ ∀ id ∈ ids, id ∉ seen := by
  induction ids generalizing seen position with
  | nil => simp [duplicates]
  | cons id rest ih =>
    simp only [List.map_cons, duplicates, List.nodup_cons, List.mem_cons, forall_eq_or_imp]
    by_cases h : id ∈ seen
    · simp [h]
    · simp only [List.contains_eq_mem, h, decide_false, Bool.false_eq_true, if_false, ih,
        List.mem_cons, not_or, not_false_eq_true, true_and]
      constructor
      · intro hparts
        obtain ⟨hnodup, hfresh⟩ := hparts
        exact ⟨⟨fun hid => (hfresh id hid).1 rfl, hnodup⟩, fun other ho => (hfresh other ho).2⟩
      · intro hparts
        obtain ⟨⟨hid, hnodup⟩, hfresh⟩ := hparts
        exact ⟨hnodup, fun other ho => ⟨fun heq => hid (heq ▸ ho), hfresh other ho⟩⟩

theorem sectionErrors_eq_nil {d : Document} :
    sectionErrors (idsOf d) = [] ↔
      d.sections.length ≤ maxSections ∧ (d.sections.map Section.id).Nodup := by
  have ids : idsOf d = (d.sections.map Section.id).map some := by simp [idsOf]
  rw [sectionErrors, List.append_eq_nil_iff, ids, tooMany_eq_nil, duplicates_eq_nil]
  simp

theorem validate_eq_ok {v : Value} {d : Document} :
    validate v = .ok d ↔ Document.read v = .ok d ∧ sectionErrors (idsOf d) = [] := by
  unfold validate
  cases Document.read v with
  | ok found =>
    by_cases h : sectionErrors (idsOf found) = []
    · simp only [h, List.isEmpty_nil, if_true, Except.ok.injEq, Checked.ok.injEq]
      constructor
      · intro heq
        subst heq
        exact ⟨rfl, h⟩
      · exact And.left
    · simp only [List.isEmpty_iff, h, if_false, Checked.ok.injEq, reduceCtorEq, false_iff]
      intro hparts
      obtain ⟨rfl, hnil⟩ := hparts
      exact h hnil
  | bad faults => simp

/-- The sections of a valid document have names of their own and places in the order. -/
theorem validate_sections {v : Value} {d : Document} (h : validate v = .ok d) :
    (d.sections.map Section.id).Nodup ∧ ∀ s ∈ d.sections, s.order.isFinite = true := by
  obtain ⟨hread, herrors⟩ := validate_eq_ok.mp h
  obtain ⟨_, _, hfrom⟩ := Document.read_eq_ok.mp hread
  exact ⟨(sectionErrors_eq_nil.mp herrors).2, hfrom.finite⟩

theorem result_require_eq_ok {outcome : Except (List FieldError) Document} {d : Document} :
    (require outcome).result = .ok d ↔ outcome = .ok d := by
  cases outcome <;> simp [require]

end Vitae.Validation
