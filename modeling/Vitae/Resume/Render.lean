import Vitae.Compile
import Vitae.Resume.Provider
import Vitae.Theme.Merge
import Vitae.Theme.Store

/-! Rendering a resume in its theme.

The design of a resume is that of its active theme, which the resume carries or names,
with the custom theme of the resume merged over it. Naming a theme asks a source of
themes, which may change by it and is returned beside the outcome. -/

namespace Vitae.Resume

/-- The style that a resume carries, when its active theme has one. -/
def carriedStyle? (resume : Fields) : Option Value :=
  match Value.field resume "activeTheme" with
  | .object theme =>
    let style := Value.field theme "styleConfig"
    if style.isNull then none else some style
  | _ => none

/-- The style of a theme that has to be there. -/
def requireStyle (themes : Theme.Source) (id : Value) (found : Traced (Option Value)) :
    Traced Value := do
  match ← found with
  | some style => pure style
  | none => .fail (.noTheme id themes.searched)

/-- The style of a resume's active theme. A resume without one has an empty style. -/
def style (themes : Theme.Source) (disk : Disk) (resume : Value) :
    Theme.Source × Traced Value :=
  match resume with
  | .object fields =>
    match carriedStyle? fields with
    | some carried => (themes, do pure (.object (← Traced.lift carried.asObject)))
    | none =>
      match Value.field fields "activeThemeId" with
      | .null =>
        (themes, do
          Traced.note .theme "Resume has no active theme, compiling customTheme alone"
          pure (.object []))
      | id =>
        let (themes, found) := themes.get disk id
        (themes, requireStyle themes id found)
  | _ => (themes, .fail (.misuse .noFields))

/-- The custom theme of a resume; one that counts as absent is empty. -/
def customTheme (resume : Value) : Value :=
  let custom := Provider.fieldOf resume "customTheme"
  if custom.truthy then custom else .object []

/-- The design of a resume: its style with its custom theme merged over it. -/
def design (themes : Theme.Source) (disk : Disk) (resume : Value) :
    Theme.Source × Traced Value :=
  let (themes, base) := style themes disk resume
  (themes, do
    let merged ← Traced.lift ((← base).merge (customTheme resume))
    pure (.object merged))

/-- The record at the start of a rendering. -/
def startText (target id slug : Value) : String :=
  let subject :=
    if slug.isNull then "resume '" ++ id.display ++ "'"
    else "public resume '" ++ slug.display ++ "'"
  "Rendering " ++ subject ++ " for " ++ target.display

/-- Compiles a resume that was looked up. -/
def renderFound (stamp : Stamp) (themes : Theme.Source) (disk : Disk) (target id slug : Value)
    (found : Except Misuse (Option Value)) : Theme.Source × Traced Ast :=
  let started := Traced.tell [Area.theme.record .info (startText target id slug)]
  match found with
  | .error m => (themes, do started; .fail (.misuse m))
  | .ok none => (themes, do started; .fail (.noResume id slug))
  | .ok (some resume) =>
    let (themes, merged) := design themes disk resume
    (themes, do
      started
      compileBuiltin stamp (← merged) target resume)

/-- Renders an owner's resume. -/
def render (stamp : Stamp) (p : Provider) (themes : Theme.Source) (disk : Disk)
    (id owner target : Value) : Theme.Source × Traced Ast :=
  renderFound stamp themes disk target id .null (p.get id owner)

/-- Renders a public resume. -/
def renderPublic (stamp : Stamp) (p : Provider) (themes : Theme.Source) (disk : Disk)
    (slug target : Value) : Theme.Source × Traced Ast :=
  renderFound stamp themes disk target .null slug (.ok (p.getPublic slug))

end Vitae.Resume
