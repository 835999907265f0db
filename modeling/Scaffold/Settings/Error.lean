import Scaffold.Settings.Defaults

/-!
# Settings Errors

The ways in which settings can be unusable.

## Main definitions

* `SettingsError`: What is wrong, and with which setting.
* `SettingsError.message`: What the user is told.
-/

namespace Scaffold.Settings

/-- The section of a settings file that can hold settings of this program beside
    those of others. -/
def sectionName : String := "vue-files"

/-- What is wrong with settings. -/
inductive SettingsError where
  /-- The section is neither a mapping nor null. -/
  | sectionNotMapping
  /-- The document at a path is not a mapping. -/
  | documentNotMapping (path : String)
  /-- A value is of another kind than its default. -/
  | wrongKind (key : String) (expected : Kind) (got : Value)
  /-- A switch is given something that is neither true nor false. -/
  | notSwitch (key : String) (got : Value)
  /-- The width of the indentation is not a positive integer. -/
  | notWidth (got : Value)
  /-- A source refuses to answer, in words of its own. -/
  | refused (message : String)
  deriving Repr

/-- What the user is told. -/
def SettingsError.message : SettingsError → String
  | sectionNotMapping => "'" ++ sectionName ++ "' must be a mapping"
  | documentNotMapping path => path ++ " must contain a mapping at the top level"
  | wrongKind key expected got =>
    "'" ++ key ++ "' must be a " ++ expected.word ++ ", got " ++ got.literal
  | notSwitch key got => "'" ++ key ++ "' must be true or false, got " ++ got.literal
  | notWidth got => "'" ++ tabSizeKey ++ "' must be a positive integer, got " ++ got.literal
  | refused message => message

end Scaffold.Settings
