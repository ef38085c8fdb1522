import Vitae.Proofs.Freshness
import Vitae.Proofs.Grammar

/-! What becomes of a value that is not trusted.

The value is validated as it is. What was read of it is written back, brought up to date and
validated again, and only the paper of the oldest version can fail that
(`Document.ReadFrom.exists_accepts_of_known`). `Compile.Foreseen` lists all that is to come of a
value, and `Compile.compileChecked_foreseen_iff` says that it comes, unless the version is one that
only validation takes for a version. -/

namespace Vitae

open FieldName Reading

/-! ### Findings of a document that was changed -/

namespace Validation

/-- The sections of a document that was read are named in its value. -/
theorem rawIds_of_read {v : Value} {d : Document} (h : Document.read v = .ok d) :
    rawIds v = some (idsOf d) := by
  obtain ⟨fields, rfl, hd⟩ := Document.read_eq_ok.mp h
  obtain ⟨given, hgiven, hread⟩ := required_word_eq_ok.mp hd.sections
  obtain ⟨items, rfl, hitems⟩ := Document.readList_eq_ok.mp hread
  have hlisted : Value.field fields "sections" = .list items := by rw [Value.field, hgiven]; rfl
  simp only [rawIds, hlisted, idsOf, Option.some.injEq]
  rw [← List.forall₂_eq_eq_eq, List.forall₂_map_left_iff, List.forall₂_map_right_iff]
  refine hitems.imp fun item s hs => ?_
  obtain ⟨inner, rfl, _⟩ := part_eq_ok.mp hs
  show (Value.field inner "id").text? = some s.id
  rw [show Value.field inner "id" = .str s.id from Section.field_id hs]
  rfl

theorem rawIds_congr {fields others : Fields}
    (h : Keyed.get? fields "sections" = Keyed.get? others "sections") :
    rawIds (.object fields) = rawIds (.object others) := by
  simp only [rawIds, Value.field, h]

/-- A valid document that was changed beside its sections has the faults of reading alone. -/
theorem validate_of_faults {fields current : Fields} {d : Document} {faults : List PlacedFault}
    (h : validate (.object fields) = .ok d)
    (hsame : Keyed.get? current "sections" = Keyed.get? fields "sections")
    (hfaults : Document.read (.object current) = .bad faults) :
    validate (.object current) = .error (faults.map FieldError.ofFault) := by
  obtain ⟨hread, hsections⟩ := validate_eq_ok.mp h
  have hids : rawIds (.object current) = some (idsOf d) :=
    (rawIds_congr hsame).trans (rawIds_of_read hread)
  simp [validate, hfaults, hids, hsections]

end Validation

/-! ### Versions that are reached, and papers that are not read -/

namespace Migration

/-- A chain of the built-in steps leads from the version of a value to the current one. -/
def Reaches (v : Value) : Prop :=
  ∃ version path, Registry.versionOf v = .str version ∧
    builtin.Chain (· == Version.current) (Version.normal version) path

end Migration

/-- A layout has a paper that is neither a text nor null, and no paper size. -/
def Layout.OddPaper (layout : Fields) : Prop :=
  ∃ paper, Keyed.get? layout "paper" = some paper ∧ ¬ paper.IsLeaf ∧
    Keyed.has layout "paperSize" = false ∧ Keyed.has layout "paper_size" = false

namespace Compile

open Migration

/-- Documents of the oldest version with a paper that no paper size can be read from. -/
def Spoilt (document : Value) : Prop :=
  ∃ fields version layout, document = .object fields ∧
    Value.field fields "version" = .str version ∧ Version.normal version = "0.9.0" ∧
      Value.field fields "layout" = .object layout ∧ Layout.OddPaper layout

end Compile

namespace Document

open Compile Migration

variable {d : Document} {fields layout : Fields}

theorem ReadFrom.reaches_iff (h : d.ReadFrom fields) :
    Reaches (.object fields) ↔ Version.normal d.version ∈ knownOrigins := by
  rw [← exists_chain_iff]
  have hversion : Registry.versionOf (.object fields) = .str d.version := h.field_version
  simp [Reaches, hversion]

/-- A layout that gives no paper size takes its paper for one. -/
theorem exists_size_iff (hl : d.layout.ReadFrom layout) :
    (∃ size, movedSize d.layout (d.layout.write .given) = .ok size) ↔ ¬ Layout.OddPaper layout := by
  have habsent : d.layout.paperSize = .absent ↔
      Keyed.has layout "paperSize" = false ∧ Keyed.has layout "paper_size" = false :=
    absent_iff (fun _ => text_ne_absent) hl.paperSize
  rw [movedSize_given hl, Layout.OddPaper, ← habsent]
  by_cases hsize : d.layout.paperSize = .absent
  · cases hpaper : Keyed.get? layout "paper" with
    | none => simp [hsize]
    | some paper =>
      have htext : (∃ size, text paper = .ok size) ↔ paper.IsLeaf := isOk_text
      simp [hsize, htext]
  · simp [hsize]

theorem ReadFrom.spoilt_iff (h : d.ReadFrom fields) :
    Spoilt (.object fields) ↔ Version.normal d.version = "0.9.0" ∧
      ∀ size, movedSize d.layout (d.layout.write .given) ≠ .ok size := by
  obtain ⟨layout, hlayout, hl⟩ := h.exists_layout
  have hodd : Layout.OddPaper layout ↔
      ∀ size, movedSize d.layout (d.layout.write .given) ≠ .ok size := by
    rw [← not_iff_not, ← exists_size_iff hl]
    simp
  have hfield : Value.field fields "layout" = .object layout := by rw [Value.field, hlayout]; rfl
  rw [← hodd]
  simp [Spoilt, h.field_version, hfield]

/-! ### Documents that are valid -/

section Valid

variable (h : d.ReadFrom fields) (hsections : Validation.sectionErrors (Validation.idsOf d) = [])

include h hsections

/-- A document with a version that is no text of a version is compiled as it is. -/
theorem ReadFrom.accepts_of_malformed (hformed : Version.isWellFormed d.version = false) :
    Accepts builtin (.object d.given) d :=
  ⟨_, h.reread.kept_of_malformed hformed, h.reread.validate rfl hsections⟩

/-- A document of a known version compiles, unless it is the paper that cannot be read. -/
theorem ReadFrom.exists_accepts_of_known (hknown : Version.normal d.version ∈ knownOrigins)
    (hpaper : ¬ Spoilt (.object fields)) : ∃ t, Accepts builtin (.object d.given) t := by
  simp only [knownOrigins, List.mem_cons, List.not_mem_nil, or_false] at hknown
  rcases hknown with holdest | hfirst | hcurrent
  -- Only the step from the oldest version puts an unknown field in the place of a known one.
  · obtain ⟨size, hsize⟩ : ∃ size, movedSize d.layout (d.layout.write .given) = .ok size := by
      by_contra hnone
      exact hpaper (h.spoilt_iff.mpr ⟨holdest, not_exists.mp hnone⟩)
    obtain ⟨current, t, hcurrent, ht, hrenewed⟩ := h.reread.renewedOldest h.layout_given hsize
    exact ⟨t, _, upToDate_of_fromOldest h.reread.field_version holdest hcurrent,
      ht.validate hrenewed.sections hsections⟩
  · exact h.exists_accepts hfirst hsections
  · obtain ⟨extra, ht⟩ := h.reread.stamped
    exact ⟨_, _, upToDate_of_current h.reread.field_version hcurrent, ht.validate rfl hsections⟩

/-- A paper that cannot be read is the one finding of its document. -/
theorem ReadFrom.validate_of_spoilt (hpaper : Spoilt (.object fields)) :
    ∃ current, (upToDate builtin (.object d.given)).result = .ok current ∧
      Validation.validate current =
        .error [⟨"layout.paperSize", "Input should be a valid string", "invalid_type"⟩] := by
  obtain ⟨holdest, hsize⟩ := h.spoilt_iff.mp hpaper
  obtain ⟨current, hcurrent, hfaults, hsame⟩ := h.reread.faults_oldest h.layout_given hsize
  exact ⟨_, upToDate_of_fromOldest h.reread.field_version holdest hcurrent,
    Validation.validate_of_faults (h.reread.validate rfl hsections) hsame
      (Checked.eq_bad_of_faults hfaults nofun)⟩

end Valid

end Document

/-! ### All that is to come of a value -/

namespace Compile

open Migration Validation

/-- What is to come of a value that is not trusted: a report when it is not valid, when its version
leads nowhere and when its paper cannot be read, and a page otherwise. -/
structure Foreseen (raw : Value) (outcome : Except Failure Ast) : Prop where
  invalid : ∀ errors, validate raw = .error errors →
    outcome = .error (.invalid "Invalid resume DSL" errors)
  unsupported : ∀ d, validate raw = .ok d → ¬ Reaches raw →
    outcome = .error (unsupported d.version (Impasse.noStep (Version.normal d.version)).text)
  spoilt : ∀ d, validate raw = .ok d → Reaches raw → Spoilt raw →
    outcome = .error (.invalid "Invalid resume DSL"
      [⟨"layout.paperSize", "Input should be a valid string", "invalid_type"⟩])
  compiled : ∀ d, validate raw = .ok d → Reaches raw → ¬ Spoilt raw → ∃ ast, outcome = .ok ast

variable {stamp : Stamp} {raw target : Value} {d : Document}

theorem result_compileChecked_of_error {errors : List FieldError}
    (h : validate raw = .error errors) :
    (compileChecked stamp (validate raw) target).result =
      .error (.invalid "Invalid resume DSL" errors) := by
  rw [h]
  rfl

theorem result_compileChecked_of_ok (h : validate raw = .ok d) :
    (compileChecked stamp (validate raw) target).result =
      (compile stamp (.object d.given) target .null builtin .builtin).result := by
  rw [h]
  rfl

/-- A value that is not valid is reported with its findings. -/
theorem foreseen_of_invalid {errors : List FieldError} (hinvalid : validate raw = .error errors) :
    Foreseen raw (compileChecked stamp (validate raw) target).result := by
  rw [result_compileChecked_of_error hinvalid]
  constructor
  case invalid =>
    intro others hothers
    cases hinvalid.symm.trans hothers
    rfl
  all_goals
    intro d hd
    cases hinvalid.symm.trans hd

section Known

variable {known : Target} (htarget : Target.ofValue? target = some known)
  (hvalid : validate raw = .ok d)

include htarget hvalid

/-- A valid value with a well-formed version comes to what is foreseen. -/
theorem foreseen_of_wellFormed (hformed : Version.isWellFormed d.version = true) :
    Foreseen raw (compileChecked stamp (validate raw) target).result := by
  obtain ⟨hread, hsections⟩ := validate_eq_ok.mp hvalid
  obtain ⟨fields, rfl, h⟩ := Document.read_eq_ok.mp hread
  -- What is compiled is written back from `d`, and `raw` is asked for its version and its paper.
  rw [result_compileChecked_of_ok hvalid]
  constructor
  case invalid =>
    intro errors herrors
    cases hvalid.symm.trans herrors
  all_goals
    intro other hother
    cases hvalid.symm.trans hother
    rw [h.reaches_iff]
  case unsupported =>
    intro hunknown
    exact result_compile_of_error htarget
      (upToDate_of_unknown h.reread.field_version hformed hunknown)
  case spoilt =>
    intro _ hpaper
    obtain ⟨current, hcurrent, herrors⟩ := h.validate_of_spoilt hsections hpaper
    exact result_compile_of_invalid htarget hcurrent herrors
  case compiled =>
    intro hknown hpaper
    obtain ⟨t, ht⟩ := h.exists_accepts_of_known hsections hknown hpaper
    exact preview_of_accepts htarget ht

/-- A valid value with another version leads nowhere, and is compiled all the same. -/
theorem compiled_of_malformed (hformed : Version.isWellFormed d.version = false) :
    ¬ Reaches raw ∧ ∃ ast, (compileChecked stamp (validate raw) target).result = .ok ast := by
  obtain ⟨hread, hsections⟩ := validate_eq_ok.mp hvalid
  obtain ⟨fields, rfl, h⟩ := Document.read_eq_ok.mp hread
  constructor
  · rw [h.reaches_iff]
    intro hknown
    rw [wellFormed_of_known hknown] at hformed
    cases hformed
  · rw [result_compileChecked_of_ok hvalid]
    exact preview_of_accepts htarget (h.accepts_of_malformed hsections hformed)

theorem not_foreseen_of_malformed (hformed : Version.isWellFormed d.version = false) :
    ¬ Foreseen raw (compileChecked stamp (validate raw) target).result := by
  intro hforeseen
  obtain ⟨hreaches, ast, hast⟩ : ¬ Reaches raw ∧
      ∃ ast, (compileChecked stamp (validate raw) target).result = .ok ast :=
    compiled_of_malformed htarget hvalid hformed
  rw [hforeseen.unsupported d hvalid hreaches] at hast
  cases hast

end Known

/-- **A value that is not trusted comes to what is foreseen, unless it is valid and its version is
not well formed.** Then it is compiled, although its version leads nowhere. -/
theorem compileChecked_foreseen_iff (stamp : Stamp) (raw : Value) (target : Target) :
    (Foreseen raw (compileChecked stamp (validate raw) (.str target.name)).result ↔
      ∀ d, validate raw = .ok d → Version.isWellFormed d.version = true) ∧
    ∀ d, validate raw = .ok d → Version.isWellFormed d.version = false →
      ¬ Reaches raw ∧
        ∃ ast, (compileChecked stamp (validate raw) (.str target.name)).result = .ok ast := by
  have htarget : Target.ofValue? (.str target.name) = some target := by cases target <;> rfl
  refine ⟨⟨fun hforeseen d hvalid => ?_, fun hformed => ?_⟩,
    fun d hvalid => compiled_of_malformed htarget hvalid⟩
  · by_contra hformed
    exact not_foreseen_of_malformed htarget hvalid (Bool.not_eq_true _ ▸ hformed) hforeseen
  · cases hvalid : validate raw with
    | ok d =>
      rw [← hvalid]
      exact foreseen_of_wellFormed htarget hvalid (hformed d hvalid)
    | error errors =>
      rw [← hvalid]
      exact foreseen_of_invalid hvalid

/-- A version that only validation takes for one leads nowhere, and yet there is a page. -/
theorem ofRecentVersion_not_foreseen :
    ¬ Foreseen ofRecentVersion
      (compileChecked ⟨"", ""⟩ (validate ofRecentVersion) (.str "html")).result := by
  obtain ⟨d, hvalid, hformed⟩ : ∃ d, validate ofRecentVersion = .ok d ∧
      Version.isWellFormed d.version = false := ⟨_, rfl, by decide⟩
  have hhtml : Target.ofValue? (.str "html") = some .html := rfl
  exact not_foreseen_of_malformed hhtml hvalid hformed

end Compile

end Vitae
