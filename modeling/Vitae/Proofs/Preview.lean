import Vitae.Proofs.Agreement
import Vitae.Proofs.Upgrade

/-! What a preview tells about a page.

A preview is made without a resume. It shows what no resume changes: the page, the design, and
of each section where it stands and what shape its payload has
(`Compile.compileDraft_previewed`). Only the content is missing, and a resume without fields
has none to give, so it makes the page of the preview. -/

namespace Vitae

/-- A payload without content, for one of the same type and shape. -/
inductive Payload.Previews : Payload → Payload → Prop
  | items (type : String) (found : List Fields) : Previews (.items type []) (.items type found)
  | content (type : String) (text : Value) :
      Previews (.content type (.str "")) (.content type text)

/-- A section without content, for one that stands in the same place. -/
structure PlacedSection.Previews (p q : PlacedSection) : Prop where
  id : p.id = q.id
  columnId : p.columnId = q.columnId
  order : p.order = q.order
  styles : p.styles = q.styles
  payload : Payload.Previews p.payload q.payload

/-- A page without content, for one that was made of a resume, maybe at another time. -/
structure Ast.Previews (preview full : Ast) : Prop where
  info : preview.timeless.info = full.timeless.info
  page : preview.page = full.page
  sections : List.Forall₂ PlacedSection.Previews preview.sections full.sections
  globalStyles : preview.globalStyles = full.globalStyles

/-! ### Placeholders -/

namespace SectionCompiler

variable {c : SectionCompiler} {resume found : Value} {overrides : List Fields} {payload : Payload}

theorem placeholder_previews_self (c : SectionCompiler) :
    Payload.Previews c.placeholder c.placeholder := by
  rw [placeholder_eq]
  split
  · exact .content ..
  · exact .items ..

theorem placeholder_previews_payloadOf (h : c.payloadOf found overrides = .ok payload) :
    Payload.Previews c.placeholder payload := by
  rw [placeholder_eq]
  unfold payloadOf at h
  split at h
  · cases h
    rw [if_pos ‹_›]
    exact .content ..
  · obtain ⟨items, _, rfl⟩ := Except.map_eq_ok.mp h
    rw [if_neg ‹_›]
    exact .items ..

/-- Whatever a compiler makes of a resume has the shape of its placeholder. -/
theorem placeholder_previews (h : c.compile resume (.ok overrides) = .ok payload) :
    Payload.Previews c.placeholder payload := by
  cases hsource : c.source with
  | none =>
    rw [compile_of_no_source hsource] at h
    cases h
    exact c.placeholder_previews_self
  | some source =>
    rw [compile_of_source hsource] at h
    obtain ⟨_, _, h⟩ := Except.bind_eq_ok.mp h
    exact placeholder_previews_payloadOf h

/-- Overrides have nothing to change where there are no items. -/
theorem payloadOf_null (c : SectionCompiler) (overrides : List Fields) :
    c.payloadOf .null overrides = .ok c.placeholder := by
  have hnone : Override.applyAll overrides [] = [] := by
    simp [Override.applyAll, Override.entries, Override.sorted]
  rw [placeholder_eq]
  unfold payloadOf
  split
  · rfl
  · show Except.ok (Payload.items c.type (Override.applyAll overrides [])) = _
    rw [hnone]

/-- There is nothing to show of a resume without fields. -/
theorem compile_empty (c : SectionCompiler) (overrides : List Fields) :
    c.compile (.object []) (.ok overrides) = .ok c.placeholder := by
  cases hsource : c.source with
  | none => exact compile_of_no_source hsource
  | some source => exact (compile_of_source hsource).trans (c.payloadOf_null overrides)

end SectionCompiler

namespace SectionRegistry

variable {r : SectionRegistry} {id : String} {resume : Value} {overrides : List Fields}
  {payload : Payload}

theorem placeholder_previews (h : (r.compile id resume (.ok overrides)).result = .ok payload) :
    Payload.Previews (r.get id).placeholder payload := by
  cases hnull : resume.isNull with
  | true =>
    rw [result_compile_of_null hnull] at h
    cases h
    exact (r.get id).placeholder_previews_self
  | false =>
    rw [result_compile hnull] at h
    cases hcompiled : (r.get id).compile resume (.ok overrides) with
    | error m =>
      rw [hcompiled] at h
      cases h
    | ok found =>
      rw [hcompiled] at h
      cases h
      exact SectionCompiler.placeholder_previews hcompiled

theorem result_compile_empty (r : SectionRegistry) (id : String) (overrides : List Fields) :
    (r.compile id (.object []) (.ok overrides)).result = .ok (r.get id).placeholder := by
  rw [result_compile rfl, SectionCompiler.compile_empty]
  rfl

end SectionRegistry

/-! ### Pages -/

namespace Placement

variable {d : Document} {design : DesignStyle} {resume : Value} {registry : SectionRegistry}

/-- The placeholders of a document, where a resume has its payloads. -/
theorem place_previews {placed : List PlacedSection}
    (h : (place d design resume registry).result = .ok placed) :
    ∃ previews, (place d design .null registry).result = .ok previews ∧
      List.Forall₂ PlacedSection.Previews previews placed := by
  refine ⟨_, result_place_null .., ?_⟩
  rw [place, placeAll_eq_ok] at h
  rw [List.forall₂_map_left_iff]
  refine h.imp fun s p hp => ?_
  obtain ⟨payload, hpayload, rfl⟩ := placeOne_eq_ok.mp hp
  exact ⟨rfl, rfl, rfl, rfl, SectionRegistry.placeholder_previews hpayload⟩

theorem result_place_empty (d : Document) (design : DesignStyle) (registry : SectionRegistry) :
    (place d design (.object []) registry).result = (place d design .null registry).result := by
  rw [place, place]
  refine placeAll_congr fun s _ => ?_
  rw [result_placeOne, result_placeOne, SectionRegistry.result_compile_empty,
    SectionRegistry.result_compile_of_null rfl]

end Placement

namespace Compile

/-- **A preview has everything of a page but its content**, for every document that is compiled
with some resume; and the page of a resume without fields is the preview, or fails like it. -/
theorem compileDraft_previewed (stamp stamp' : Stamp) (draft : Draft) (target : Value)
    (migrations : Migration.Registry) (sections : SectionRegistry) :
    (∀ resume ast,
      (compileDraft stamp draft target resume migrations sections).result = .ok ast →
        ∃ preview,
          (compileDraft stamp' draft target .null migrations sections).result = .ok preview ∧
            preview.Previews ast) ∧
      (compileDraft stamp draft target (.object []) migrations sections).result.map Ast.timeless =
        (compileDraft stamp' draft target .null migrations sections).result.map Ast.timeless := by
  constructor
  · intro resume ast h
    obtain ⟨known, d, placed, htarget, hd, hplaced, rfl⟩ := compile_eq_ok.mp h
    obtain ⟨previews, hpreviews, hpreviewed⟩ := Placement.place_previews hplaced
    exact ⟨_, compile_eq_ok.mpr ⟨known, d, previews, htarget, hd, hpreviews, rfl⟩,
      rfl, rfl, hpreviewed, rfl⟩
  · exact timeless_compile_congr (fun d _ => Placement.result_place_empty ..) stamp stamp' target

theorem compileDraft_previewed_reordered :
    ∃ ast preview,
      (compileDraft ⟨"", ""⟩ (.typed reordered) (.str "pdf") (.object Placement.skilled)
        Migration.builtin .builtin).result = .ok ast ∧
      (compileDraft ⟨"", ""⟩ (.typed reordered) (.str "pdf") .null Migration.builtin
        .builtin).result = .ok preview ∧ preview.Previews ast := by
  have hvisible : ∀ s ∈ reordered.sections, s.visible = true →
      s.id = "skills" ∨ s.id = "summary" := by
    simp [reordered]
  obtain ⟨placed, hplaced⟩ := Placement.exists_place_skilled hvisible reordered.tokens.resolve
  have hast : (compileDraft ⟨"", ""⟩ (.typed reordered) (.str "pdf") (.object Placement.skilled)
      Migration.builtin .builtin).result = .ok _ :=
    compile_eq_ok.mpr ⟨.pdf, reordered, placed, rfl, accepts_reordered, hplaced, rfl⟩
  obtain ⟨preview, hpreview, hpreviews⟩ :=
    (compileDraft_previewed ⟨"", ""⟩ ⟨"", ""⟩ (.typed reordered) (.str "pdf") Migration.builtin
      .builtin).1 _ _ hast
  exact ⟨_, preview, hast, hpreview, hpreviews⟩

end Compile

end Vitae
