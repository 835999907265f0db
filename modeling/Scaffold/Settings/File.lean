import Scaffold.Fault
import Scaffold.Settings.Listing
import Scaffold.Settings.Resolve
import Scaffold.Terminal
import Scaffold.Yaml.Beginning
import Scaffold.Yaml.Document

/-!
# Settings Files

Where settings are read from: a file that is named, or else the nearest one of
the usual name, in the working directory or above it, or else no file at all.

## Main definitions

* `fileName`: The usual name of a settings file.
* `readDocument`: The mapping that a file holds.
* `findFile`: The nearest settings file.
* `Loaded`: Settings and the file they are from.
* `load`: The settings that are in force.
* `Loaded.warnings`: The settings of the file that nothing reads.
-/

namespace Scaffold.Settings

open Terminal (Message)

/-- The usual name of a settings file. -/
def fileName : String := "vuegen.yaml"

/-- The value of the document in a file. An empty document is an empty mapping. Of a
    file that is no text, what is wrong with the document may be found first. -/
def readDocument (w : Workspace) (p : Path) : Except Fault Value :=
  match w.entry p with
  | .error _ => .error (.noSettingsFile p)
  | .ok .directory => .error (.obstacle .isDirectory)
  | .ok (.file (.bytes b)) =>
    match Yaml.wrongBeginning? b with
    | some e => .error (.malformed e)
    | none => .error .notText
  | .ok (.file (.text s)) =>
    match Yaml.parse s.toList with
    | .error e => .error (.malformed e)
    | .ok .null => .ok (.map [])
    | .ok v => .ok v

/-- The nearest settings file: in a directory, or in those above it as far as its
    path says. Without a path, the search starts from the working directory. -/
def findFile (w : Workspace) (start? : Option Path) : Option Path :=
  let start := start?.getD { anchor := .root, parts := w.home }
  (start.selfAndParents.map fun d => d.child fileName).find? w.isFile

/-- Settings, and the file they are from, if they are from one. -/
structure Loaded where
  settings : FlatSettings
  path? : Option Path

/-- The settings of a file. -/
def loadFile (w : Workspace) (p : Path) : Except Fault Loaded := do
  match ← readDocument w p with
  | .map entries =>
    match flattenSections entries with
    | .ok settings => .ok { settings, path? := some p }
    | .error e => .error (.settings e)
  | _ => .error (.settings (.documentNotMapping p.text))

/-- The settings of a file that is named, or of the nearest, or those of no file. -/
def load (w : Workspace) (path? : Option Path) : Except Fault Loaded :=
  match path? <|> findFile w none with
  | some p => loadFile w p
  | none => .ok { settings := .empty, path? := none }

namespace Loaded

/-- A warning for each setting of the file that nothing reads. -/
def warnings (l : Loaded) : List Message :=
  match l.path? with
  | none => []
  | some p =>
    l.settings.unknownKeys.map fun key =>
      .warning ("Unknown setting '" ++ key ++ "' in " ++ p.name ++ " (ignored)")

/-- What the settings are from, for the header of a listing. -/
def origin (l : Loaded) : String :=
  match l.path? with
  | none => "defaults"
  | some p => p.text

/-- The listing of the settings. -/
def listing (l : Loaded) : Listing := l.settings.listing l.origin

end Loaded

end Scaffold.Settings
