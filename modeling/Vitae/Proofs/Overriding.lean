import Vitae.Proofs.Parallel
import Vitae.Proofs.Payload
import Vitae.Proofs.Placement

/-! What overrides can change about a page.

A section fails because of its resume data or its mapper, never because of its overrides
(`SectionRegistry.compile_parallel`). So two documents with the same sections fail to be
placed alike, and `Placement.indifferent_iff` says when they are placed alike for every
resume. -/

namespace Vitae

/-! ### What a section shows -/

/-- Payloads that differ at most in their items. -/
inductive Payload.SameButItems : Payload → Payload → Prop
  | same (p : Payload) : SameButItems p p
  | items (type : String) (found others : List Fields) :
      SameButItems (.items type found) (.items type others)

namespace SectionCompiler

theorem payloadOf_parallel (c : SectionCompiler) (found : Value) (a b : List Fields) :
    Except.Parallel Payload.SameButItems (c.payloadOf found a) (c.payloadOf found b) := by
  unfold payloadOf
  split
  · exact .ok (.same _)
  · exact .map_self _ fun items => .items ..

/-- Overrides come last, and only for items: what fails, fails before them. -/
theorem compile_parallel (c : SectionCompiler) (resume : Value) (a b : List Fields) :
    Except.Parallel Payload.SameButItems (c.compile resume (.ok a)) (c.compile resume (.ok b)) := by
  cases hsource : c.source with
  | none =>
    rw [compile_of_no_source hsource, compile_of_no_source hsource]
    exact .ok (.same _)
  | some source =>
    rw [compile_of_source hsource, compile_of_source hsource]
    exact .bind_self _ fun fields => c.payloadOf_parallel _ a b

end SectionCompiler

namespace SectionRegistry

variable {r : SectionRegistry} {id : String} {resume : Value}

theorem compile_parallel (a b : List Fields) :
    Except.Parallel Payload.SameButItems (r.compile id resume (.ok a)).result
      (r.compile id resume (.ok b)).result := by
  cases hnull : resume.isNull with
  | true =>
    rw [result_compile_of_null hnull, result_compile_of_null hnull]
    exact .ok (.same _)
  | false =>
    rw [result_compile hnull, result_compile hnull]
    exact ((r.get id).compile_parallel resume a b).mapError Failure.misuse

end SectionRegistry

namespace Placement

/-! ### Sections that are placed alike -/

section Alike
variable {f g : Section → Traced PlacedSection} {l : List Section}

theorem placeAll_congr (h : ∀ s ∈ l, (f s).result = (g s).result) :
    (placeAll f l).result = (placeAll g l).result := by
  induction l with
  | nil => rfl
  | cons s rest ih =>
    have hs := h s (List.mem_cons_self ..)
    have hrest := ih fun t ht => h t (List.mem_cons_of_mem _ ht)
    simp only [placeAll, Traced.result_bind, hs, hrest]

/-- Every section of a page was placed. -/
theorem exists_of_placeAll {placed : List PlacedSection} (hf : (placeAll f l).result = .ok placed)
    (hg : (placeAll g l).result = .ok placed) :
    ∀ s ∈ l, ∃ p, (f s).result = .ok p ∧ (g s).result = .ok p := by
  rw [placeAll_eq_ok] at hf hg
  induction hf with
  | nil => simp
  | cons hp _ ih =>
    cases hg with
    | cons hq hrest => exact List.forall_mem_cons.mpr ⟨⟨_, hp, hq⟩, ih hrest⟩

theorem exists_placeAll (h : ∀ s ∈ l, ∃ p, (f s).result = .ok p) :
    ∃ placed, (placeAll f l).result = .ok placed := by
  induction l with
  | nil => exact ⟨[], rfl⟩
  | cons s rest ih =>
    obtain ⟨⟨p, hp⟩, hrest⟩ := List.forall_mem_cons.mp h
    obtain ⟨later, hlater⟩ := ih hrest
    exact ⟨p :: later, by simp [placeAll, hp, hlater, Except.bind]⟩

end Alike

/-! ### Documents with the same sections -/

/-- No override of a document shows: whatever the resume, a page that can be made of the
visible sections is the same without them. -/
def Indifferent (registry : SectionRegistry) (d : Document) : Prop :=
  ∀ resume,
    (∀ s ∈ d.sections, s.visible = true →
      ∃ payload, (registry.compile s.id resume (.ok [])).result = .ok payload) →
    ∀ s ∈ d.sections, s.visible = true →
      (registry.compile s.id resume (.ok (d.overridesFor s.id))).result =
        (registry.compile s.id resume (.ok [])).result

theorem visibleSections_congr {a b : Document} (h : a.sections = b.sections) :
    visibleSections a = visibleSections b := by
  rw [visibleSections, visibleSections, h]

theorem overridesFor_congr {a b : Document}
    (h : a.itemOverrides.getD [] = b.itemOverrides.getD []) (id : String) :
    a.overridesFor id = b.overridesFor id := by
  rw [Document.overridesFor, Document.overridesFor, h]

theorem place_congr {a b : Document} (hsections : a.sections = b.sections)
    (hoverrides : a.itemOverrides.getD [] = b.itemOverrides.getD []) (design : DesignStyle)
    (resume : Value) (registry : SectionRegistry) :
    (place a design resume registry).result = (place b design resume registry).result := by
  rw [place, place, visibleSections_congr hsections]
  refine placeAll_congr fun s _ => ?_
  rw [placeOne, placeOne, overridesFor_congr hoverrides]

/-- What a section is placed as, for its payload. -/
theorem result_placeOne (d : Document) (styles : SectionStyles) (resume : Value)
    (registry : SectionRegistry) (s : Section) :
    (placeOne d styles resume registry s).result =
      (registry.compile s.id resume (.ok (d.overridesFor s.id))).result.map fun payload =>
        ⟨s.id, s.column.pageId, s.order, payload, styles⟩ := by
  rw [placeOne, Traced.result_bind]
  cases (registry.compile s.id resume (.ok (d.overridesFor s.id))).result <;> rfl

/-- Overrides are not what a section fails for. -/
theorem placeOne_fails_alike (a b : Document) (styles : SectionStyles) (resume : Value)
    (registry : SectionRegistry) (s : Section) :
    Except.Parallel (fun _ _ => True) (placeOne a styles resume registry s).result
      (placeOne b styles resume registry s).result := by
  rw [result_placeOne, result_placeOne]
  exact (SectionRegistry.compile_parallel _ _).map fun _ _ _ => trivial

/-- A section is placed when it can be compiled, and overrides are not in its way. -/
theorem placeOne_isOk_iff {d : Document} {styles : SectionStyles} {resume : Value}
    {registry : SectionRegistry} {s : Section} :
    (∃ p, (placeOne d styles resume registry s).result = .ok p) ↔
      ∃ payload, (registry.compile s.id resume (.ok [])).result = .ok payload := by
  have hcompiled : (∃ p, (placeOne d styles resume registry s).result = .ok p) ↔
      ∃ payload, (registry.compile s.id resume (.ok (d.overridesFor s.id))).result = .ok payload := by
    simp [placeOne_eq_ok]
  rw [hcompiled]
  exact (SectionRegistry.compile_parallel _ _).isOk_iff

/-- A page can be made when each visible section can be compiled without overrides. -/
theorem exists_place {d : Document} {resume : Value} {registry : SectionRegistry}
    (h : ∀ s ∈ d.sections, s.visible = true →
      ∃ payload, (registry.compile s.id resume (.ok [])).result = .ok payload)
    (design : DesignStyle) :
    ∃ placed, (place d design resume registry).result = .ok placed := by
  refine exists_placeAll fun s hs => ?_
  obtain ⟨hs, hvisible⟩ := mem_visibleSections.mp hs
  exact placeOne_isOk_iff.mpr (h s hs hvisible)

/-- A resume with two skills and a summary. -/
def skilled : Fields :=
  [("skills", .list
      [.object [("id", .str "logic"), ("name", .str "Logic")],
       .object [("id", .str "lean"), ("name", .str "Lean")]]),
   ("summary", .str "Proves things.")]

theorem exists_place_skilled {d : Document}
    (h : ∀ s ∈ d.sections, s.visible = true → s.id = "skills" ∨ s.id = "summary")
    (design : DesignStyle) :
    ∃ placed, (place d design (.object skilled) .builtin).result = .ok placed := by
  refine exists_place (fun s hs hvisible => ?_) design
  rcases h s hs hvisible with hid | hid
  · rw [hid]
    exact ⟨_, rfl⟩
  · rw [hid]
    exact ⟨_, rfl⟩

/-- Documents with the same sections fail to be placed alike. -/
theorem place_error_congr {a b : Document} (hsections : a.sections = b.sections)
    (design : DesignStyle) {resume : Value} {registry : SectionRegistry} {e : Failure}
    (h : (place a design resume registry).result = .error e) :
    (place b design resume registry).result = .error e := by
  rw [place] at h ⊢
  rw [visibleSections_congr hsections.symm]
  exact (placeAll_parallel fun s _ => placeOne_fails_alike a b _ resume registry s).error_iff.mp h

variable {registry : SectionRegistry} {a b : Document}

theorem overridesFor_of_bare (hbare : b.itemOverrides.getD [] = []) (id : String) :
    b.overridesFor id = [] := by
  rw [Document.overridesFor, hbare]
  rfl

/-- Sections that were placed alike, with overrides and without, show no override. -/
theorem indifferent_of_place (hsections : a.sections = b.sections)
    (hbare : b.itemOverrides.getD [] = []) {design : DesignStyle}
    (h : ∀ resume, (place a design resume registry).result =
      (place b design resume registry).result) : Indifferent registry a := by
  intro resume hok s hs hvis
  obtain ⟨placed, hplaced⟩ := exists_place hok design
  have hsame : (place b design resume registry).result = .ok placed := h resume ▸ hplaced
  rw [place, visibleSections_congr hsections.symm] at hsame
  obtain ⟨p, hpa, hpb⟩ := exists_of_placeAll hplaced hsame s (mem_visibleSections.mpr ⟨hs, hvis⟩)
  obtain ⟨payload, hpayload, rfl⟩ := placeOne_eq_ok.mp hpa
  obtain ⟨other, hother, hp⟩ := placeOne_eq_ok.mp hpb
  rw [overridesFor_of_bare hbare] at hother
  rw [hpayload, hother, (PlacedSection.mk.inj hp).2.2.2.1]

theorem place_of_indifferent (hsections : a.sections = b.sections)
    (hbare : b.itemOverrides.getD [] = []) (design : DesignStyle) (h : Indifferent registry a)
    (resume : Value) :
    (place a design resume registry).result = (place b design resume registry).result := by
  cases hplaced : (place a design resume registry).result with
  | error e => exact (place_error_congr hsections design hplaced).symm
  | ok placed =>
    have hcompiled : ∀ s ∈ a.sections, s.visible = true →
        ∃ payload, (registry.compile s.id resume (.ok [])).result = .ok payload := by
      intro s hs hvis
      obtain ⟨p, hp, _⟩ :=
        exists_of_placeAll hplaced hplaced s (mem_visibleSections.mpr ⟨hs, hvis⟩)
      exact placeOne_isOk_iff.mp ⟨p, hp⟩
    rw [← hplaced, place, place, visibleSections_congr hsections.symm]
    refine placeAll_congr fun s hs => ?_
    obtain ⟨hs, hvis⟩ := mem_visibleSections.mp hs
    rw [result_placeOne, result_placeOne, overridesFor_of_bare hbare,
      h resume hcompiled s hs hvis]

/-- A document whose overrides do not show, beside the same one without any. -/
theorem indifferent_iff (hsections : a.sections = b.sections)
    (hbare : b.itemOverrides.getD [] = []) (design : DesignStyle) :
    (∀ resume, (place a design resume registry).result =
        (place b design resume registry).result) ↔ Indifferent registry a :=
  ⟨indifferent_of_place hsections hbare, place_of_indifferent hsections hbare design⟩

end Placement

end Vitae
