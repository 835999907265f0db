import Scaffold.Context
import Scaffold.Settings.Source

/-!
# Resolving Contexts

From a source of settings to a generation context. Every feature is asked for
in order, then the editor's settings; the first answer that is not usable is
the error of the whole. Nothing is assumed about the source.

## Main definitions

* `Source.switch`: The answer to a key that has to be true or false.
* `Source.enabled`: The features of a list that are answered true.
* `Source.indentation`: The indentation of the editor's settings.
* `Source.context`: The whole context.
-/

namespace Scaffold.Settings.Source

/-- The answer to a key that has to be true or false. -/
def switch (source : Source) (key : String) (default : Bool) : Except SettingsError Bool := do
  match ← source key (.bool default) with
  | .bool b => pure b
  | v => throw (.notSwitch key v)

/-- The features of a list that are answered true, asked for in order. -/
def enabled (source : Source) : List Feature → Except SettingsError (List Feature)
  | [] => pure []
  | f :: fs => do
    let on ← source.switch f.key f.onByDefault
    let rest ← source.enabled fs
    pure (if on then f :: rest else rest)

/-- The width of the indentation: a positive integer. -/
def tabSize (source : Source) : Except SettingsError Int := do
  match ← source tabSizeKey (.int defaultTabSize) with
  | .int n => if n < 1 then throw (.notWidth (.int n)) else pure n
  | v => throw (.notWidth v)

/-- The indentation of the editor's settings: tabs unless spaces are inserted. -/
def indentation (source : Source) : Except SettingsError Indentation := do
  let spaces ← source.switch insertSpacesKey true
  let width ← source.tabSize
  pure { useTabs := !spaces, width }

/-- The context that a source describes. -/
def context (source : Source) (typed : Bool) (name : String := "") :
    Except SettingsError Context := do
  let on ← source.enabled Feature.all
  let indentation ← source.indentation
  pure { typed, enabled := .ofList on, indentation, name }

end Scaffold.Settings.Source
