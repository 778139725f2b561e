import SharedMemos.Server.Database.Basic

/-!
# Settings in the database

A setting is a text with a name.
-/

namespace SharedMemos.Server.Database

/-- The text of a setting. -/
def setting? (d : Database) (name : String) : Option String :=
  (d.settings.find? (·.1 == name)).map (·.2)

/-- The database with the text of a setting. -/
def withSetting (d : Database) (name text : String) : Database :=
  { d with settings := (name, text) :: d.settings.filter (·.1 != name) }

/-- Writes a setting. -/
def putSetting (name text : String) : Transaction Unit := do
  if ← allows .setting .insert then
    if ((← get).setting? name).isNone then modify fun d => d.withSetting name text
    else if ← allows .setting .update then modify fun d => d.withSetting name text

/-- Writes a setting that is not there. -/
def initSetting (name text : String) : Transaction Unit := do
  if ← allows .setting .insert then
    if ((← get).setting? name).isNone then modify fun d => d.withSetting name text

end SharedMemos.Server.Database
