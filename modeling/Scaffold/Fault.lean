import Scaffold.ComponentName
import Scaffold.Files.Workspace
import Scaffold.Settings.Error
import Scaffold.Yaml.Malformed

/-!
# Faults

Everything that can keep the program from doing what it was asked to do. Some
faults are the user's to mend and are reported; the others end the program.

## Main definitions

* `Fault`: The faults.
* `Fault.report?`: What the user is told about a fault that is reported.
-/

namespace Scaffold

/-- Something that keeps the program from doing what it was asked to do. -/
inductive Fault where
  /-- The settings are not usable. -/
  | settings (e : Settings.SettingsError)
  /-- The name is not usable. -/
  | name (e : NameError)
  /-- There is no settings file at a path. -/
  | noSettingsFile (p : Path)
  /-- A settings file is not a proper document. -/
  | malformed (e : Yaml.Malformed)
  /-- A settings file is not a text. -/
  | notText
  /-- A file or directory is in the way, or is not there. -/
  | obstacle (o : Obstacle)
  deriving Repr

/-- What the user is told about a fault that is reported. -/
def Fault.report? : Fault → Option String
  | settings e => some e.message
  | name e => some e.message
  | noSettingsFile p => some ("YAML file not found: " ++ p.text)
  | _ => none

end Scaffold
