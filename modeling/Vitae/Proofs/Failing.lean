import Vitae.Proofs.Compilation
import Vitae.Proofs.Upgrade

/-! How a preview can fail.

A document that cannot be compiled is meant to be reported: its version as unsupported,
or the document as invalid. What comes between is migration, which meets the document
before anything is known about it. `Compile.Stumbles` says for which documents a step asks for
something that a value does not have, and only then no report is made. -/

namespace Vitae

theorem Value.field_eq_object_iff {fields inner : Fields} {name : String} :
    Value.field fields name = .object inner ↔ Keyed.get? fields name = some (.object inner) := by
  unfold Value.field
  cases Keyed.get? fields name <;> simp

theorem Value.field_set_of_ne {fields : Fields} {v : Value} {name other : String}
    (h : other ≠ name) : Value.field (Keyed.set fields name v) other = Value.field fields other := by
  have hne : (Key.str other == Key.str name) = false := by simp [h]
  rw [Value.field, Value.field, Keyed.get?_set_of_ne _ _ hne]

theorem Value.field_erase_of_ne {fields : Fields} {name other : String}
    (h : other ≠ name) : Value.field (Keyed.erase fields name) other = Value.field fields other := by
  have hne : (Key.str other == Key.str name) = false := by simp [h]
  rw [Value.field, Value.field, Keyed.get?_erase_of_ne _ hne]

namespace Migration

/-! ### What the steps ask for -/

/-- The layout has a type that cannot be looked up. -/
def OddType (document : Fields) : Prop :=
  ∃ layout, Value.field document "layout" = .object layout ∧
    (Value.field layout "type").isKey = false

/-- There are tokens, but they have no fields. -/
def OddTokens (document : Fields) : Prop :=
  (Value.field document "tokens").truthy = true ∧
    ∀ tokens, Value.field document "tokens" ≠ .object tokens

theorem field_movePaper_type (layout : Fields) :
    Value.field (movePaper layout) "type" = Value.field layout "type" := by
  unfold movePaper
  split
  · split
    · rfl
    · rw [Value.field_set_of_ne (by decide), Value.field_erase_of_ne (by decide)]
  · rfl

theorem renameLayout_isOk_iff {layout : Fields} :
    (∃ renamed, renameLayout layout = .ok renamed) ↔ (Value.field layout "type").isKey = true := by
  unfold renameLayout
  split
  · rename_i name hname
    rw [hname]
    split <;> simp [Value.isKey, Value.key?]
  · split <;> simp_all

theorem toFirst_isOk_iff {document : Fields} :
    (∃ first, toFirst document = .ok first) ↔ ¬ OddType document := by
  unfold toFirst OddType
  split
  · rename_i layout hlayout
    have hfield := Value.field_eq_object_iff.mpr hlayout
    have hrename : (∃ renamed, renameLayout (movePaper layout) = .ok renamed) ↔
        (Value.field layout "type").isKey = true := by
      rw [renameLayout_isOk_iff, field_movePaper_type]
    constructor
    · intro hok hodd
      obtain ⟨_, hfirst⟩ := hok
      obtain ⟨other, hother, hkey⟩ := hodd
      obtain ⟨renamed, hrenamed, _⟩ := Except.bind_eq_ok.mp hfirst
      cases hfield.symm.trans hother
      rw [hrename.mp ⟨renamed, hrenamed⟩] at hkey
      cases hkey
    · intro hodd
      have hkey : (Value.field layout "type").isKey = true := by
        by_contra hkey
        exact hodd ⟨layout, hfield, Bool.not_eq_true _ ▸ hkey⟩
      obtain ⟨renamed, hrenamed⟩ := hrename.mpr hkey
      exact ⟨_, Except.bind_eq_ok.mpr ⟨renamed, hrenamed, rfl⟩⟩
  · rename_i hnone
    refine ⟨?_, fun _ => ⟨_, rfl⟩⟩
    intro _ h
    obtain ⟨layout, hlayout, _⟩ := h
    exact hnone _ (Value.field_eq_object_iff.mp hlayout)

/-- The first step touches the layout alone. -/
theorem field_toFirst {document first : Fields} {name : String} (h : toFirst document = .ok first)
    (hname : name ≠ "layout") : Value.field first name = Value.field document name := by
  unfold toFirst at h
  split at h
  · obtain ⟨renamed, _, hfirst⟩ := Except.bind_eq_ok.mp h
    cases hfirst
    exact Value.field_set_of_ne hname
  · cases h
    rfl

theorem toCurrent_isOk_iff {document : Fields} :
    (∃ current, toCurrent document = .ok current) ↔ ¬ OddTokens document := by
  have hcurrent : (∃ current, toCurrent document = .ok current) ↔
      ∃ renamed, renameDensity document = .ok renamed := by
    constructor
    · intro hparts
      obtain ⟨_, h⟩ := hparts
      obtain ⟨renamed, hrenamed, _⟩ := Except.bind_eq_ok.mp h
      exact ⟨renamed, hrenamed⟩
    · intro hparts
      obtain ⟨renamed, hrenamed⟩ := hparts
      exact ⟨_, Except.bind_eq_ok.mpr ⟨renamed, hrenamed, rfl⟩⟩
  rw [hcurrent]
  unfold renameDensity OddTokens
  split
  · rename_i tokens htokens
    simp [htokens]
  · rename_i hnone
    cases htruthy : (Value.field document "tokens").truthy with
    | false => simp
    | true => simpa using hnone

/-- A document of the oldest version meets what both steps ask for. -/
theorem fromFirst_isOk_iff {document : Fields} :
    (∃ current, fromFirst document = .ok current) ↔ ¬ OddTokens document := by
  have hstamped : OddTokens (stamped "1.0.0" document) ↔ OddTokens document := by
    rw [OddTokens, OddTokens, stamped, Value.field_set_of_ne (by decide)]
  rw [← hstamped, ← toCurrent_isOk_iff]
  simp [fromFirst, Except.map_eq_ok]

theorem fromOldest_isOk_iff {document : Fields} :
    (∃ current, fromOldest document = .ok current) ↔ ¬ (OddType document ∨ OddTokens document) := by
  have htype : OddType (stamped "0.9.0" document) ↔ OddType document := by
    rw [OddType, OddType, stamped, Value.field_set_of_ne (by decide)]
  have htokens {first : Fields} (h : toFirst (stamped "0.9.0" document) = .ok first) :
      OddTokens first ↔ OddTokens document := by
    rw [OddTokens, OddTokens, field_toFirst h (by decide), stamped,
      Value.field_set_of_ne (by decide)]
  rw [not_or, ← htype, ← toFirst_isOk_iff]
  simp only [fromOldest, Except.bind_eq_ok]
  constructor
  · intro hparts
    obtain ⟨current, first, hfirst, hcurrent⟩ := hparts
    exact ⟨⟨first, hfirst⟩, (htokens hfirst).not.mp (fromFirst_isOk_iff.mp ⟨current, hcurrent⟩)⟩
  · intro hparts
    obtain ⟨⟨first, hfirst⟩, hodd⟩ := hparts
    obtain ⟨current, hcurrent⟩ := fromFirst_isOk_iff.mpr ((htokens hfirst).not.mpr hodd)
    exact ⟨current, first, hfirst, hcurrent⟩

end Migration

/-! ### Failures of a preview -/

/-- Failures that a document is meant to be reported by. -/
def Failure.IsReport : Failure → Prop
  | .invalid _ _ => True
  | .unsupported _ _ _ => True
  | _ => False

namespace Compile

open Migration

/-- A preview is made of a document, or fails with a report. -/
def Reported (outcome : Except Failure Ast) : Prop := ∀ f, outcome = .error f → f.IsReport

/-- What comes up to date is compiled or found invalid: only migration fails otherwise. -/
theorem reported_compile_iff {stamp : Stamp} {document : Value} {target : Target}
    {migrations : Migration.Registry} {sections : SectionRegistry} :
    Reported (compile stamp document (.str target.name) .null migrations sections).result ↔
      ∀ f, (upToDate migrations document).result = .error f → f.IsReport := by
  have htarget : Target.ofValue? (.str target.name) = some target := by cases target <;> rfl
  cases hcurrent : (upToDate migrations document).result with
  | error f => simp [Reported, result_compile_of_error htarget hcurrent]
  | ok current =>
    cases hvalid : Validation.validate current with
    | error errors =>
      simp [Reported, result_compile_of_invalid htarget hcurrent hvalid, Failure.IsReport]
    | ok d =>
      have haccepts : Accepts migrations document d := ⟨current, hcurrent, hvalid⟩
      obtain ⟨ast, hast⟩ :
          ∃ ast, (compile stamp document (.str target.name) .null migrations sections).result =
            .ok ast := preview_of_accepts htarget haccepts
      simp [Reported, hast]

/-- Documents of an old version that a step cannot take: the tokens have no fields, or,
for the oldest version, the layout type cannot be looked up. -/
def Stumbles (document : Value) : Prop :=
  ∃ fields version, document = .object fields ∧ Value.field fields "version" = .str version ∧
    (Version.normal version = "1.0.0" ∧ OddTokens fields ∨
      Version.normal version = "0.9.0" ∧ (OddType fields ∨ OddTokens fields))

/-- A misuse is no report, so steps have to succeed. -/
theorem isReport_of_steps_iff {outcome : Except Misuse Fields} :
    (∀ f, (outcome.mapError Failure.misuse).map Value.object = .error f → f.IsReport) ↔
      ∃ fields, outcome = .ok fields := by
  cases outcome with
  | error m =>
    simp only [reduceCtorEq, exists_false, iff_false, not_forall]
    exact ⟨Failure.misuse m, rfl, id⟩
  | ok fields => exact ⟨fun _ => ⟨fields, rfl⟩, fun _ f h => nomatch h⟩

theorem stumbles_object_iff {fields : Fields} {version : String}
    (h : Value.field fields "version" = .str version) :
    Stumbles (.object fields) ↔
      Version.normal version = "1.0.0" ∧ OddTokens fields ∨
        Version.normal version = "0.9.0" ∧ (OddType fields ∨ OddTokens fields) := by
  constructor
  · intro hparts
    obtain ⟨_, other, hfields, hother, hodd⟩ := hparts
    cases hfields
    cases h.symm.trans hother
    exact hodd
  · exact fun hodd => ⟨fields, version, rfl, h, hodd⟩

theorem upToDate_isReport_iff (document : Value) :
    (∀ f, (upToDate builtin document).result = .error f → f.IsReport) ↔ ¬ Stumbles document := by
  rcases wellFormed_or_kept builtin document with
    ⟨fields, version, rfl, hversion, hformed⟩ | ⟨hkept, hmalformed⟩
  · rw [stumbles_object_iff hversion]
    by_cases hknown : Version.normal version ∈ knownOrigins
    · simp only [knownOrigins, List.mem_cons, List.not_mem_nil, or_false] at hknown
      rcases hknown with hnormal | hnormal | hnormal
      · rw [upToDate_of_oldest hversion hnormal, isReport_of_steps_iff, fromOldest_isOk_iff]
        simp [hnormal]
      · rw [upToDate_of_first hversion hnormal, isReport_of_steps_iff, fromFirst_isOk_iff]
        simp [hnormal]
      · rw [upToDate_of_current hversion hnormal]
        simp [hnormal]
    · rw [upToDate_of_unknown hversion hformed hknown]
      simp only [knownOrigins, List.mem_cons, List.not_mem_nil, or_false, not_or] at hknown
      simp [hknown, unsupported, Failure.IsReport]
  · rw [hkept]
    simp only [reduceCtorEq, false_implies, implies_true, true_iff]
    intro hparts
    obtain ⟨fields, version, rfl, hversion, hodd⟩ := hparts
    have hknown : Version.normal version ∈ knownOrigins := by
      rcases hodd with ⟨hnormal, _⟩ | ⟨hnormal, _⟩ <;> rw [hnormal] <;> decide
    have hformed := wellFormed_of_known hknown
    rw [hmalformed version hversion] at hformed
    cases hformed

/-- **A preview fails with a report, unless a step of its migration stumbles.** -/
theorem compileBuiltin_reported_iff (stamp : Stamp) (document : Value) (target : Target) :
    Reported (compileBuiltin stamp document (.str target.name) .null).result ↔
      ¬ Stumbles document :=
  reported_compile_iff.trans (upToDate_isReport_iff document)

/-- Tokens that are a list, in a document of the first version. -/
def listedTokens : Value :=
  .object [("version", .str "1.0.0"), ("layout", .object []), ("tokens", .list [.int 1]),
    ("sections", .list [])]

theorem listedTokens_not_reported :
    ¬ Reported (compileBuiltin ⟨"", ""⟩ listedTokens (.str "html") .null).result := by
  intro hreported
  have hstumbles : (upToDate builtin listedTokens).result = .error (.misuse .noFields) :=
    upToDate_of_first rfl (by rfl)
  have hhtml : Value.str "html" = .str Target.html.name := rfl
  rw [hhtml, compileBuiltin, reported_compile_iff] at hreported
  exact hreported _ hstumbles

end Compile

end Vitae
