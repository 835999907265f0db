import Scaffold.Settings.Source
import Scaffold.Terminal

/-!
# Listings of Settings

Every known setting with the value it has. A value that differs from its
default is highlighted, with the default beside it. The listing stops at the
first setting that is not usable.

## Main definitions

* `Listing`: The lines of a listing, and what stopped it.
* `settingLine`: The line of one setting.
* `FlatSettings.listing`: The listing of all settings.
-/

namespace Scaffold.Settings

open Terminal

/-- The lines of a listing, and the error that stopped it, if any. -/
structure Listing where
  lines : List String
  error? : Option SettingsError

/-- All lines of a listing, each with its line feed. -/
def Listing.text (l : Listing) : String := String.join (l.lines.map (· ++ "\n"))

/-- The line of a setting: its value, and where that is not the default, the
    default too. -/
def settingLine (key : String) (default : Default) (value : Value) : String :=
  if default.isValue value then
    "  " ++ key ++ ": " ++ value.shown
  else
    "  " ++ paint (key ++ ": " ++ value.shown) [.green] ++ " "
      ++ paint ("(default: " ++ default.value.shown ++ ")") [.dim]

/-- The lines of some settings, up to the first that is not usable. -/
def settingLines (source : Source) : List (String × Default) → Listing
  | [] => ⟨[], none⟩
  | (key, default) :: rest =>
    match source key default.value with
    | .error e => ⟨[], some e⟩
    | .ok value =>
      let tail := settingLines source rest
      ⟨settingLine key default value :: tail.lines, tail.error?⟩

/-- The listing of all settings, under a header that says where they are from. -/
def FlatSettings.listing (s : FlatSettings) (origin : String) : Listing :=
  let body := settingLines s.get defaults
  ⟨paint ("vuegen settings (" ++ origin ++ ")") [.header, .bold] :: body.lines, body.error?⟩

end Scaffold.Settings
