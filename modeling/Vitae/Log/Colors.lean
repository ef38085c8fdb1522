import Vitae.Keyed
import Vitae.Log.Markup
import Vitae.Log.Record
import Vitae.Value.Literal

/-! The colours of log levels on the console.

`LevelColors` holds the terminal codes of each level. Every session lays the shared
colours over those it starts from, and those of its area over them. -/

namespace Vitae

/-- Terminal codes by the names of levels. -/
abbrev LevelColors := Keyed String String

namespace LevelColors

def ofTags (colors : List (Level × List Nat)) : LevelColors :=
  colors.map fun c => (c.1.name, String.join (c.2.map Markup.code))

/-- The colours of a session that gives none of its own. -/
def standard : LevelColors :=
  ofTags
    [(.trace, [36, 1]), (.debug, [34, 1]), (.info, [1]), (.success, [32, 1]),
     (.warning, [33, 1]), (.error, [31, 1]), (.critical, [41, 1])]

/-- On the command line, and where a session has a policy of its own, details are red. -/
def vivid : LevelColors := Keyed.set standard Level.debug.name (Markup.code 31)

/-- The colours that every session starts from. -/
def shared : Fields :=
  [("INFO", .str "<bold>"), ("WARNING", .str "<yellow>"), ("ERROR", .str "<red>"),
   ("CRITICAL", .str "<bold><red>")]

/-- Gives a level a colour. A null colour leaves the level as it is. -/
def paint (codes : LevelColors) (level : String) (color : Value) : Except Misuse LevelColors :=
  match color with
  | .null =>
    if (Level.ofName? level).isSome then .ok codes else .error (.unknownLevel level)
  | color =>
    if (Level.ofName? level).isSome then
      match color with
      | .str tags => do
        .ok (Keyed.set codes level (← (Markup.expand tags).mapError Misuse.badTag))
      | _ => .error .noFields
    else .error (.undeclaredLevel level)

/-- Lays the shared colours and a policy over others. -/
def layer (codes : LevelColors) (policy : Fields) : Except Misuse LevelColors :=
  (Keyed.setAll shared policy).foldlM (fun codes c => paint codes c.1.display c.2) codes

end LevelColors

end Vitae
