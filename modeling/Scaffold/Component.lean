import Scaffold.Script.Options
import Scaffold.Script.Setup

/-!
# Components

What is generated for one component file: which of the two styles the script
is written in, and in which language. The script stands between script tags;
a setup script that switches attribute inheritance off gets a second, plain
script block beside it, since a setup script cannot declare that option.

## Main definitions

* `Api`: The two styles of a script.
* `ScriptLang`: The two languages of a script.
* `Component`: Name, style and language of one file.
* `Component.lines`, `Component.render`: The content of the file.
-/

namespace Scaffold

/-- The style of a component's script. -/
inductive Api where
  | setup
  | options
  deriving DecidableEq, Repr

namespace Api

/-- Both styles, in the order in which they are offered. -/
def all : List Api := [setup, options]

/-- The word that selects the style. -/
def word : Api → String
  | setup => "setup"
  | options => "options"

/-- The style that a word selects. -/
def ofWord? (w : String) : Option Api := all.find? fun a => a.word == w

/-- The folder that fixtures of this style are kept in. -/
def folder : Api → String
  | setup => "composition-api"
  | options => "options-api"

end Api

/-- The language of a component's script. -/
inductive ScriptLang where
  | ts
  | js
  deriving DecidableEq, Repr

namespace ScriptLang

/-- Both languages, in the order in which they are offered. -/
def all : List ScriptLang := [ts, js]

/-- The value of the tag's `lang` attribute. -/
def word : ScriptLang → String
  | ts => "ts"
  | js => "js"

/-- The language that a word selects. -/
def ofWord? (w : String) : Option ScriptLang := all.find? fun l => l.word == w

/-- Whether scripts in this language carry types. -/
def isTyped : ScriptLang → Bool
  | ts => true
  | js => false

end ScriptLang

/-- The lines of a script body in the given style. An options object gets the
    name that the context holds. -/
def Api.bodyLines : Api → Context → List Script.Line
  | .setup => Script.Setup.lines
  | .options => Script.Options.lines

/-- The text of a script body in the given style. -/
def Api.script : Api → Context → String
  | .setup, ctx => Script.Setup.script ctx
  | .options, ctx => Script.Options.script ctx.name ctx

/-- One component file to generate. -/
structure Component where
  name : String
  api : Api := .setup
  lang : ScriptLang := .ts
  deriving DecidableEq, Repr

namespace Component

open Script

/-- The name of the component's file. -/
def fileName (c : Component) : String := c.name ++ ".vue"

/-- The tag that opens the script, with an attribute for a setup script. -/
def openTag (c : Component) : String :=
  (match c.api with
    | .setup => "<script setup lang='"
    | .options => "<script lang='") ++ c.lang.word ++ "'>"

/-- The plain block that keeps attributes from being inherited. Only a setup
    script needs one: an options object has a field for it. -/
def companion (c : Component) (ctx : Context) : List Line :=
  linesIf (c.api == .setup && ctx.isOn .inheritAttrs)
    ([⟨0, "<script lang='" ++ c.lang.word ++ "'>"⟩]
    ++ braced 1 "export default " [⟨2, "inheritAttrs: false,"⟩] ";"
    ++ [⟨0, "</script>"⟩, Line.blank])

/-- The lines of the file. The component's own name counts, not the one that
    the context holds. -/
def lines (c : Component) (ctx : Context) : List Line :=
  [⟨0, c.openTag⟩]
  ++ c.api.bodyLines (ctx.named c.name)
  ++ [⟨0, "</script>"⟩, Line.blank]
  ++ c.companion ctx

/-- The content of the file. -/
def render (c : Component) (ctx : Context) : String :=
  Script.render ctx.indentation (c.lines ctx)

end Component

end Scaffold
