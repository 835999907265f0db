import Scaffold.Component
import Scaffold.Settings.File

/-!
# Generation

From the settings in force to the content of files: one component, or one
fixture for each style and language.

## Main definitions

* `Component.generate`: The content of a component under some settings.
* `Generated`, `Component.generateIn`: The content under the settings in force, with
  the warnings that reading them gives.
* `writeComponent`: A component's file, which is overwritten only by force.
* `fixturePath`, `writeFixtures`: The fixtures.
-/

namespace Scaffold

open Settings Terminal

/-- The content of a component under some settings. -/
def Component.generate (c : Component) (source : Source) : Except SettingsError String := do
  let ctx ← source.context c.lang.isTyped c.name
  pure (c.render ctx)

/-- Messages as lines of output. -/
def messageText (ms : List Message) : String := String.join (ms.map Message.line)

/-- A content or a fault, after the warnings. -/
structure Generated where
  warnings : List Message
  result : Except Fault String

/-- The content of a component under the settings in force. -/
def Component.generateIn (c : Component) (w : Workspace) (config? : Option Path) : Generated :=
  match load w config? with
  | .error e => ⟨[], .error e⟩
  | .ok l => ⟨l.warnings, (c.generate l.settings.get).mapError .settings⟩

/-- A component's file written, unless there is something at its path and it is not
    to be overwritten. The flag says whether it was written. -/
def writeComponent (w : Workspace) (target : Path) (content : String) (force : Bool) :
    Workspace × Except Fault Bool :=
  if w.pathExists target && !force then (w, .ok false)
  else
    match w.writeFile target (.text content) with
    | (w, none) => (w, .ok true)
    | (w, some o) => (w, .error (.obstacle o))

/-- Where fixtures are kept, below a directory of one's choice. -/
def fixtureRoot : Path := { parts := ["test-output", "components"] }

/-- The name of every fixture's component. -/
def fixtureName : String := "TestComponent"

/-- Every style with every language. -/
def fixtureKinds : List (Api × ScriptLang) :=
  Api.all.flatMap fun api => ScriptLang.all.map fun lang => (api, lang)

/-- The path of a fixture. -/
def fixturePath (base : Path) (api : Api) (lang : ScriptLang) : Path :=
  ((base.join fixtureRoot).child api.folder).child (api.word ++ "-" ++ lang.word ++ ".vue")

/-- The component of a fixture. -/
def fixtureComponent (kind : Api × ScriptLang) : Component :=
  { name := fixtureName, api := kind.1, lang := kind.2 }

/-- Some fixtures written, and their paths. Each is generated and then written
    before the next. -/
def writeFixturesOf (w : Workspace) (base : Path) (settings : FlatSettings) :
    List (Api × ScriptLang) → Workspace × Except Fault (List Path)
  | [] => (w, .ok [])
  | kind :: kinds =>
    match (fixtureComponent kind).generate settings.get with
    | .error e => (w, .error (.settings e))
    | .ok content =>
      let target := fixturePath base kind.1 kind.2
      match w.writeFile target (.text content) with
      | (w, some o) => (w, .error (.obstacle o))
      | (w, none) =>
        let (w, rest) := writeFixturesOf w base settings kinds
        (w, rest.map (target :: ·))

/-- All fixtures written, and their paths. -/
def writeFixtures (w : Workspace) (base : Path) (settings : FlatSettings) :
    Workspace × Except Fault (List Path) :=
  writeFixturesOf w base settings fixtureKinds

end Scaffold
