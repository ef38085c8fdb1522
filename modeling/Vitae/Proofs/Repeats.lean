import Vitae.Proofs.Faults
import Vitae.Proofs.Untrusted

/-! What validation finds across sections.

Two rules look at all sections of a value together: there are at most fifty, and none bears the
name of one before it. They are checked on the names that were read where a document was read, and
on those that stand in the value where it was not; the two agree, so other faults of a value hide
nothing (`Validation.crossChecks_exact`). The names that repeat are gathered in one walk, with
those seen so far at hand (`Validation.repeated`); `Validation.mem_repeated` is its invariant. -/

namespace Vitae

/-! ### Names in a list of values -/

/-- The value is an object with this text for its name. -/
def Value.Bears (v : Value) (id : String) : Prop :=
  ∃ fields : Fields, v = .object fields ∧ Keyed.get? fields "id" = some (.str id)

/-- The text that a value bears for its name. -/
def Value.name? : Value → Option String
  | .object fields => (Value.field fields "id").text?
  | _ => none

theorem Value.name?_eq_some {v : Value} {id : String} : v.name? = some id ↔ v.Bears id := by
  cases v with
  | object fields =>
    simp only [name?, field, Bears, Value.object.injEq, exists_eq_left']
    cases Keyed.get? fields "id" with
    | none => simp [text?]
    | some given => cases given <;> simp [text?]
  | _ => simp [name?, Bears]

namespace Validation

/-- The item at this position bears a name that one before it bears. -/
def Repeats (items : List Value) (position : Nat) (id : String) : Prop :=
  (∃ v, items[position]? = some v ∧ v.Bears id) ∧ ∃ u ∈ items.take position, u.Bears id

/-! ### The walk over the names -/

/-- The finding on a name that repeats one before it. -/
def duplicateAt (position : Nat) (id : String) : FieldError :=
  ⟨"sections." ++ toString position ++ ".id", "Duplicate section id '" ++ id ++ "'",
    "duplicate_section_id"⟩

/-- The names that repeat one of `seen` or one before them, with their places. -/
def repeated (seen : List String) : List (Option String) → List (Nat × String)
  | [] => []
  | none :: rest => (repeated seen rest).map fun f => (f.1 + 1, f.2)
  | some id :: rest =>
    (if id ∈ seen then [(0, id)] else []) ++
      (repeated (id :: seen) rest).map fun f => (f.1 + 1, f.2)

theorem duplicates_eq (seen : List String) (position : Nat) (ids : List (Option String)) :
    duplicates seen position ids =
      (repeated seen ids).map fun f => duplicateAt (position + f.1) f.2 := by
  induction ids generalizing seen position with
  | nil => rfl
  | cons first rest ih =>
    have hnext (f : Nat × String) : position + 1 + f.1 = position + (f.1 + 1) := by omega
    cases first with
    | none => simp [duplicates, repeated, ih, Function.comp_def, hnext]
    | some id =>
      by_cases hseen : id ∈ seen <;>
        simp [duplicates, repeated, ih, Function.comp_def, hnext, hseen, duplicateAt]

/-- A name is gathered where it stands, when it was seen or stands further up. -/
theorem mem_repeated {seen : List String} {ids : List (Option String)} {place : Nat} {id : String} :
    (place, id) ∈ repeated seen ids ↔
      ids[place]? = some (some id) ∧ (id ∈ seen ∨ some id ∈ ids.take place) := by
  induction ids generalizing seen place with
  | nil => simp [repeated]
  | cons first rest ih =>
    -- Names further up, beside those in `seen`, are those that the walk has put there.
    cases first with
    | none => cases place <;> simp [repeated, ih]
    | some other =>
      cases place with
      | zero =>
        -- Nothing stands before the first name, so it was seen or is not gathered.
        have hfirst : (0, id) ∈ repeated seen (some other :: rest) ↔ id = other ∧ other ∈ seen := by
          by_cases hseen : other ∈ seen <;> simp [repeated, hseen]
        rw [hfirst, List.getElem?_cons_zero, List.take_zero, Option.some.injEq, Option.some.injEq]
        constructor
        · rintro ⟨rfl, hseen⟩
          exact ⟨rfl, .inl hseen⟩
        · rintro ⟨rfl, hseen | hnone⟩
          · exact ⟨rfl, hseen⟩
          · cases hnone
      | succ place => simp [repeated, ih, or_assoc, or_left_comm]

theorem pairwise_repeated (seen : List String) (ids : List (Option String)) :
    (repeated seen ids).Pairwise fun f g => f.1 < g.1 := by
  have hlater {found : List (Nat × String)} (h : found.Pairwise fun f g => f.1 < g.1) :
      (found.map fun f => (f.1 + 1, f.2)).Pairwise fun f g => f.1 < g.1 :=
    List.pairwise_map.mpr (h.imp Nat.succ_lt_succ)
  induction ids generalizing seen with
  | nil => exact .nil
  | cons first rest ih =>
    cases first with
    | none => exact hlater (ih seen)
    | some id =>
      refine List.pairwise_append.mpr ⟨?_, hlater (ih _), fun f hf g hg => ?_⟩
      · split <;> simp
      · obtain ⟨g, _, rfl⟩ := List.mem_map.mp hg
        split at hf
        · rw [List.mem_singleton.mp hf]
          exact Nat.succ_pos _
        · cases hf

/-! ### Both rules -/

/-- The findings of a validation. -/
def findings : Except (List FieldError) Document → List FieldError
  | .ok _ => []
  | .error errors => errors

/-- What is found on a list of sections is exact: one finding for each item that bears the name of
one before it, in their order, one when there are more than fifty items, and no others under these
codes. -/
structure CrossChecked (items : List Value) (errors : List FieldError) : Prop where
  repeats : ∃ found : List (Nat × String), (found.Pairwise fun f g => f.1 < g.1) ∧
    (∀ place id, (place, id) ∈ found ↔ Repeats items place id) ∧
    errors.filter (·.code == "duplicate_section_id") = found.map fun f => duplicateAt f.1 f.2
  few : errors.filter (·.code == "too_many_sections") =
    if 50 < items.length then
      [⟨"sections",
        "At most 50 sections are allowed, got " ++ toString items.length, "too_many_sections"⟩]
    else []

theorem repeats_iff {items : List Value} {place : Nat} {id : String} :
    Repeats items place id ↔ (place, id) ∈ repeated [] (items.map Value.name?) := by
  simp [mem_repeated, Repeats, List.getElem?_map, ← List.map_take, Value.name?_eq_some]

/-- No fault of a field goes by the code of a rule across sections. -/
theorem code_ne (f : Fault) : f.code ≠ "duplicate_section_id" ∧ f.code ≠ "too_many_sections" := by
  cases f <;> simp [Fault.code]

theorem code_of_mem_tooMany {count : Nat} {e : FieldError} (h : e ∈ tooMany count) :
    e.code = "too_many_sections" := by
  unfold tooMany at h
  split at h
  · rw [List.mem_singleton.mp h]
  · cases h

theorem code_of_mem_duplicates {seen : List String} {position : Nat} {ids : List (Option String)}
    {e : FieldError} (h : e ∈ duplicates seen position ids) : e.code = "duplicate_section_id" := by
  rw [duplicates_eq] at h
  obtain ⟨_, _, rfl⟩ := List.mem_map.mp h
  rfl

section Codes

variable {code : String} {errors : List FieldError}

theorem filter_code_eq_self (h : ∀ e ∈ errors, e.code = code) :
    errors.filter (·.code == code) = errors :=
  List.filter_eq_self.mpr fun e he => by simp [h e he]

theorem filter_code_eq_nil (h : ∀ e ∈ errors, e.code ≠ code) :
    errors.filter (·.code == code) = [] :=
  List.filter_eq_nil_iff.mpr fun e he => by simp [h e he]

end Codes

/-- The findings on the names of a list are exact, whatever faults stand before them. -/
theorem crossChecked_of_names (items : List Value) (faults : List PlacedFault) :
    CrossChecked items
      (faults.map FieldError.ofFault ++ sectionErrors (items.map Value.name?)) := by
  have hfault : ∀ e ∈ faults.map FieldError.ofFault,
      e.code ≠ "duplicate_section_id" ∧ e.code ≠ "too_many_sections" :=
    List.forall_mem_map.mpr fun p _ => code_ne p.fault
  have hmany : ∀ e ∈ tooMany (items.map Value.name?).length, e.code ≠ "duplicate_section_id" := by
    intro e he
    rw [code_of_mem_tooMany he]
    decide
  have hduplicate :
      ∀ e ∈ duplicates [] 0 (items.map Value.name?), e.code ≠ "too_many_sections" := by
    intro e he
    rw [code_of_mem_duplicates he]
    decide
  simp only [sectionErrors]
  constructor
  · refine ⟨_, pairwise_repeated [] (items.map Value.name?), fun _ _ => repeats_iff.symm, ?_⟩
    rw [List.filter_append, List.filter_append, filter_code_eq_nil fun e he => (hfault e he).1,
      filter_code_eq_nil hmany, filter_code_eq_self fun _ => code_of_mem_duplicates, duplicates_eq]
    simp
  · rw [List.filter_append, List.filter_append, filter_code_eq_nil fun e he => (hfault e he).2,
      filter_code_eq_self fun _ => code_of_mem_tooMany, filter_code_eq_nil hduplicate]
    simp [tooMany, maxSections]
    rfl

/-! ### Names that were read, and names that stand in a value -/

/-- The names that are looked at are those of the listed sections. -/
theorem rawIds_object (fields : Fields) :
    rawIds (.object fields) = some ((Document.listedSections (.object fields)).map Value.name?) ∨
      rawIds (.object fields) = none ∧ Document.listedSections (.object fields) = [] := by
  have hentries : (Value.object fields).entries = fields := rfl
  rw [rawIds, Document.listedSections, hentries]
  generalize Value.field fields "sections" = listed
  cases listed with
  | list items => exact .inl rfl
  | _ => exact .inr ⟨rfl, rfl⟩

theorem sectionErrors_rawIds (v : Value) :
    ((rawIds v).map sectionErrors).getD [] =
      sectionErrors ((Document.listedSections v).map Value.name?) := by
  cases v with
  | object fields =>
    rcases rawIds_object fields with hids | ⟨hids, hlisted⟩
    · rw [hids]
      rfl
    · rw [hids, hlisted]
      rfl
  | _ => rfl

/-- The names that were read stand in the value that they were read from. -/
theorem sectionErrors_idsOf {v : Value} {d : Document} (h : Document.read v = .ok d) :
    sectionErrors (idsOf d) = sectionErrors ((Document.listedSections v).map Value.name?) := by
  rw [← sectionErrors_rawIds, rawIds_of_read h]
  rfl

theorem findings_validateRead (d : Document) :
    findings (validateRead d) = sectionErrors (idsOf d) := by
  unfold validateRead
  cases h : sectionErrors (idsOf d) <;> rfl

/-- The findings on the fields of a value, then those on its sections. -/
theorem findings_validate (v : Value) :
    findings (validate v) = (Document.read v).faults.map FieldError.ofFault ++
      sectionErrors ((Document.listedSections v).map Value.name?) := by
  cases h : Document.read v with
  | ok d =>
    have hsame : validate v = validateRead d := by simp [validate, validateRead, h]
    rw [hsame, findings_validateRead, sectionErrors_idsOf h]
    rfl
  | bad faults =>
    rw [← sectionErrors_rawIds, validate, h]
    rfl

/-- **What is found across sections is exact, and no other fault hides it**, on a value that is not
trusted, on the document that was read from one, and on any other document. Where a value has no
list of sections, there is nothing to find. -/
theorem crossChecks_exact (v : Value) :
    CrossChecked (Document.listedSections v) (findings (validate v)) ∧
      (∀ d, Document.read v = .ok d →
        CrossChecked (Document.listedSections v) (findings (validateRead d))) ∧
      ∀ d : Document,
        CrossChecked (Document.listedSections (.object d.given)) (findings (validateRead d)) := by
  refine ⟨?_, fun d h => ?_, fun d => ?_⟩
  · rw [findings_validate]
    exact crossChecked_of_names _ _
  · rw [findings_validateRead, sectionErrors_idsOf h]
    exact crossChecked_of_names _ []
  · have hids : idsOf d = (Document.listedSections (.object d.given)).map Value.name? := by
      show _ = (d.sections.map fun s => Value.object s.write).map Value.name?
      rw [List.map_map]
      rfl
    rw [findings_validateRead, hids]
    exact crossChecked_of_names _ []

/-- Entries that are no sections, and names that are no texts, keep their places. -/
example : (findings (validate (.object [("sections", .list
    [.object [("id", .str "skills")], .int 3, .object [("id", .int 3)],
     .object [("id", .str "skills"), ("visible", .null)]])]))).filter
      (·.code == "duplicate_section_id") = [duplicateAt 3 "skills"] := by
  rfl

end Validation

end Vitae
