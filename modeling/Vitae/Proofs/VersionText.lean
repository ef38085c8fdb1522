import Mathlib.Computability.Language
import Vitae.Version

/-! The grammar of versions.

A version is `\d+\.\d+(\.\d+)?`, as a language over characters (`Version.grammar`). Whether a
document may bear a text is decided by cutting it at its points; `isAdmitted_iff` says that this
decides the language. Nothing but a whole text of it is admitted, so none with a line break at
its end. -/

namespace Vitae.Version

open Computability

/-- One decimal digit, of any script that the pattern of the schema matches. The pattern goes by the
later table of digits (`Text.isRecentDigit`), unlike `isWellFormed`. -/
def digit : Language Char := {w | ∃ c, Text.isRecentDigit c = true ∧ w = [c]}

def point : Language Char := {w | w = ['.']}

/-- One digit or more. -/
def run : Language Char := digit * digit∗

/-- Two or three runs of digits with points between them, digits being those of the schema: the
versions that a document may bear, well formed or not. -/
def grammar : Language Char := run * point * run * (1 + point * run)

theorem mem_kstar_digit {w : List Char} :
    w ∈ digit∗ ↔ ∀ c ∈ w, Text.isRecentDigit c = true := by
  rw [Language.mem_kstar]
  constructor
  · intro h c hc
    obtain ⟨letters, rfl, hletters⟩ := h
    obtain ⟨letter, hletter, hc⟩ := List.mem_flatten.mp hc
    obtain ⟨d, hd, rfl⟩ := hletters letter hletter
    rwa [List.mem_singleton.mp hc]
  · intro h
    have hletters : w = (w.map fun c => [c]).flatten := by
      rw [← List.flatMap_def, List.flatMap_singleton']
    refine ⟨w.map fun c => [c], hletters, fun letter hletter => ?_⟩
    obtain ⟨c, hc, rfl⟩ := List.mem_map.mp hletter
    exact ⟨c, h c hc, rfl⟩

theorem mem_run {w : List Char} : w ∈ run ↔ isRun Text.isRecentDigit w = true := by
  rw [run, Language.mem_mul]
  cases w with
  | nil =>
    simp only [isRun, List.isEmpty_nil, Bool.not_true, Bool.false_and, Bool.false_eq_true, iff_false]
    intro h
    obtain ⟨_, ⟨c, _, rfl⟩, _, _, hnil⟩ := h
    cases hnil
  | cons c rest =>
    simp only [isRun, List.isEmpty_cons, Bool.not_false, Bool.true_and, List.all_cons,
      Bool.and_eq_true, List.all_eq_true]
    constructor
    · intro h
      obtain ⟨_, ⟨d, hd, rfl⟩, later, hlater, hcons⟩ := h
      cases hcons
      exact ⟨hd, mem_kstar_digit.mp hlater⟩
    · intro h
      exact ⟨[c], ⟨c, h.1, rfl⟩, rest, mem_kstar_digit.mpr h.2, rfl⟩

/-- So many runs, and one more, with points between them. -/
def joined : Nat → Language Char
  | 0 => run
  | count + 1 => run * (point * joined count)

theorem grammar_eq : grammar = joined 1 + joined 2 := by
  simp only [grammar, joined, mul_add, mul_one, mul_assoc]

theorem mem_joined_succ {count : Nat} {w : List Char} :
    w ∈ joined (count + 1) ↔ ∃ r ∈ run, ∃ later ∈ joined count, w = r ++ ['.'] ++ later := by
  rw [joined, Language.mem_mul]
  constructor
  · intro h
    obtain ⟨r, hr, _, ⟨_, rfl, later, hlater, rfl⟩, rfl⟩ := h
    exact ⟨r, hr, later, hlater, (List.append_assoc ..).symm⟩
  · intro h
    obtain ⟨r, hr, later, hlater, rfl⟩ := h
    exact ⟨r, hr, ['.'] ++ later, ⟨['.'], rfl, later, hlater, rfl⟩, (List.append_assoc ..).symm⟩

theorem mem_joined_iff {count : Nat} {w : List Char} :
    w ∈ joined count ↔ ∃ runs : List (List Char), runs.length = count + 1 ∧
      (∀ r ∈ runs, r ∈ run) ∧ w = ['.'].intercalate runs := by
  induction count generalizing w with
  | zero =>
    simp only [joined, Nat.zero_add, List.length_eq_one_iff]
    constructor
    · intro h
      exact ⟨[w], ⟨w, rfl⟩, by simpa using h, by simp⟩
    · intro h
      obtain ⟨_, ⟨r, rfl⟩, hr, rfl⟩ := h
      simpa using hr
  | succ count ih =>
    simp only [mem_joined_succ, ih]
    constructor
    · intro h
      obtain ⟨r, hr, _, ⟨runs, hlength, hruns, rfl⟩, rfl⟩ := h
      refine ⟨r :: runs, congrArg (· + 1) hlength, List.forall_mem_cons.mpr ⟨hr, hruns⟩, ?_⟩
      -- A point is put between two runs, so the second one has to be in sight.
      obtain ⟨second, rest, rfl⟩ := List.exists_cons_of_length_eq_add_one hlength
      simp
    · intro h
      obtain ⟨runs, hlength, hruns, rfl⟩ := h
      obtain ⟨r, runs, rfl⟩ := List.exists_cons_of_length_eq_add_one hlength
      have hlength : runs.length = count + 1 := Nat.succ.inj hlength
      obtain ⟨second, rest, rfl⟩ := List.exists_cons_of_length_eq_add_one hlength
      obtain ⟨hr, hruns⟩ := List.forall_mem_cons.mp hruns
      exact ⟨r, hr, _, ⟨_, hlength, hruns, rfl⟩, by simp⟩

theorem parts_eq_splitOn (cs : List Char) : parts cs = cs.splitOn '.' := by
  induction cs with
  | nil => rfl
  | cons c rest ih =>
    rw [parts, ih, List.splitOn_cons_eq_if_modifyHead]
    by_cases h : c = '.'
    · simp [h]
    · simp only [h, if_false, beq_iff_eq]
      cases hrest : rest.splitOn '.' with
      | nil => exact absurd hrest (List.splitOn_ne_nil '.' rest)
      | cons part later => rfl

/-- No digit is a point. -/
theorem not_mem_of_isRun {cs : List Char} (h : isRun Text.isRecentDigit cs = true) : '.' ∉ cs := by
  intro hpoint
  simp only [isRun, Bool.and_eq_true, List.all_eq_true] at h
  exact absurd (h.2 '.' hpoint) (by decide)

/-- A text is made of so many runs exactly when it is joined from them: cutting a text at its
points and joining runs with points undo each other. -/
theorem hasRuns_iff {count : Nat} {cs : List Char} :
    hasRuns Text.isRecentDigit (count + 1) cs = true ↔ cs ∈ joined count := by
  simp only [hasRuns, Bool.and_eq_true, beq_iff_eq, List.all_eq_true, parts_eq_splitOn,
    mem_joined_iff, mem_run]
  constructor
  · intro h
    exact ⟨cs.splitOn '.', h.1, h.2, (List.intercalate_splitOn '.').symm⟩
  · intro h
    obtain ⟨runs, hlength, hruns, rfl⟩ := h
    have hne : runs ≠ [] := List.ne_nil_of_length_eq_add_one hlength
    rw [List.splitOn_intercalate '.' (fun r hr => not_mem_of_isRun (hruns r hr)) hne]
    exact ⟨hlength, hruns⟩

/-- A document may bear exactly the versions of the grammar. -/
theorem isAdmitted_iff (text : String) : isAdmitted text = true ↔ text.toList ∈ grammar := by
  rw [isAdmitted, Bool.or_eq_true, hasRuns_iff, hasRuns_iff, grammar_eq, Language.mem_add]

end Vitae.Version
