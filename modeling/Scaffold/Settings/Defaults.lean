import Scaffold.Feature
import Scaffold.Settings.Value

/-!
# Known Settings

Every setting that is read, with the value that holds where no file gives one:
one switch for each feature, and the two settings of the editor.

## Main definitions

* `Default`: A default is a switch or a width.
* `defaults`: Every known key with its default, in order.
* `knownKeys`: Every known key.
* `namespaceOf`: The part of a key before its first dot.
* `checkedNamespaces`: The namespaces in which every key is known.
-/

namespace Scaffold.Settings

/-- The default of a setting. -/
inductive Default where
  | switch (on : Bool)
  | width (n : Int)
  deriving DecidableEq, Repr

namespace Default

/-- A default as a value. -/
def value : Default → Value
  | switch on => .bool on
  | width n => .int n

/-- Whether a value is the default. -/
def isValue : Default → Value → Bool
  | switch on, .bool b => on == b
  | width n, .int m => n == m
  | _, _ => false

end Default

/-- The key that says whether spaces are used for indentation. -/
def insertSpacesKey : String := "editor.insertSpaces"

/-- The key of the indentation's width. -/
def tabSizeKey : String := "editor.tabSize"

/-- The width of an indentation that no settings mention. -/
def defaultTabSize : Int := 2

/-- The defaults of the editor's settings. -/
def editorDefaults : List (String × Default) :=
  [(insertSpacesKey, .switch true), (tabSizeKey, .width defaultTabSize)]

/-- Every known key with its default: the features in their order, and then the
    editor's settings. -/
def defaults : List (String × Default) :=
  Feature.all.map (fun f => (f.key, Default.switch f.onByDefault)) ++ editorDefaults

/-- Every known key. -/
def knownKeys : List String := defaults.map Prod.fst

/-- The part of a key before its first dot, or all of it if it has none. -/
def namespaceOf (key : String) : String :=
  String.ofList (key.toList.takeWhile (· != '.'))

/-- The part of a key after its first dot. -/
def nameOf (key : String) : String :=
  String.ofList ((key.toList.dropWhile (· != '.')).drop 1)

/-- The namespaces in which every key is known, so that any other key in them is
    a slip of the pen. -/
def checkedNamespaces : List String :=
  ["template", "option", "lifecycle", "scriptSetup", "editor"]

end Scaffold.Settings
