import Scaffold.Settings.Defaults

/-!
# The Initial Settings File

A settings file that holds every default, for a user to start from: each
namespace is a mapping, and the settings follow in their order.

## Main definitions

* `initialLines`: The lines of the file.
* `initialChars`, `initialText`: The content of the file.
-/

namespace Scaffold.Settings

/-- The lines of a settings file with every default, a namespace at a time. -/
def initialLines : List String :=
  checkedNamespaces.flatMap fun space =>
    (space ++ ":")
      :: (defaults.filter fun d => namespaceOf d.1 == space).map fun d =>
        "  " ++ nameOf d.1 ++ ": " ++ d.2.value.shown

/-- The characters of a settings file with every default. -/
def initialChars : List Char :=
  initialLines.flatMap fun l => l.toList ++ ['\n']

/-- The content of a settings file with every default. -/
def initialText : String := String.ofList initialChars

end Scaffold.Settings
