import Vitae.Section.Compiler

/-! What a section shows.

A section compiler looks up its source in a resume and makes a payload of what it finds there
(`SectionCompiler.payloadOf`): a text as it is, or the items of records with their overrides.
Without a source, and without a resume, a section has its placeholder. -/

namespace Vitae

namespace SectionCompiler

/-- The payload for the data of a resume. -/
def payloadOf (c : SectionCompiler) (found : Value) (overrides : List Fields) :
    Except Misuse Payload :=
  if c.shape = .content then .ok (.content c.type (if found.truthy then found else .str ""))
  else (c.itemsOf found).map fun items => .items c.type (Override.applyAll overrides items)

variable {c : SectionCompiler} {resume : Value} {overrides : List Fields} {source : String}

theorem placeholder_eq (c : SectionCompiler) :
    c.placeholder = if c.shape = .content then .content c.type (.str "") else .items c.type [] := by
  unfold placeholder
  cases c.shape <;> rfl

theorem compile_of_no_source (h : c.source = none) :
    c.compile resume (.ok overrides) = .ok c.placeholder := by
  unfold compile
  rw [h]

theorem compile_of_source (h : c.source = some source) :
    c.compile resume (.ok overrides) =
      resume.fields.bind fun fields => c.payloadOf (Value.field fields source) overrides := by
  unfold compile payloadOf
  rw [h]
  cases c.shape <;> rfl

end SectionCompiler

namespace SectionRegistry

variable {r : SectionRegistry} {id : String} {resume : Value}

/-- What a section of a resume that is there is compiled to. -/
theorem result_compile (hnull : resume.isNull = false) (overrides : Except Misuse (List Fields)) :
    (r.compile id resume overrides).result =
      ((r.get id).compile resume overrides).mapError .misuse := by
  simp only [SectionRegistry.compile, hnull]
  cases r.has id <;> simp [Traced.note, Except.bind, Traced.lift]

theorem result_compile_of_null (hnull : resume.isNull = true)
    (overrides : Except Misuse (List Fields)) :
    (r.compile id resume overrides).result = .ok (r.get id).placeholder := by
  simp [SectionRegistry.compile, hnull]

end SectionRegistry

end Vitae
