import Scaffold.OrderedMap
import Scaffold.Settings.Value

/-!
# Flat Settings

Settings may be written flat or nested: an entry `a` that holds an entry `b`
means the same as an entry `a.b`. Flattening gives every value that is not a
mapping its dotted key. Where two spellings collide the later one wins, in the
place of the first. A mapping inside a list is part of the list.

## Main definitions

* `FlatSettings`: Values by dotted key.
* `flatten`: The flat form of a mapping.
-/

namespace Scaffold.Settings

/-- Values by dotted key, in the order in which the keys first came. -/
abbrev FlatSettings : Type := OrderedMap String Value

mutual

/-- Write a value under a key: a mapping is flattened on its own and its entries
    are then written, anything else is written as it is. -/
def flattenValue (flat : FlatSettings) (key : String) : Value → FlatSettings
  | .map entries => flat.update (flattenEntries .empty (key ++ ".") entries)
  | v => flat.insert key v

/-- Write entries in order, each under its key after a common beginning. -/
def flattenEntries (flat : FlatSettings) (start : String) :
    List (Key × Value) → FlatSettings
  | [] => flat
  | (k, v) :: es => flattenEntries (flattenValue flat (start ++ k.text) v) start es

end

/-- The flat form of a mapping, with every key after a common beginning. -/
def flatten (entries : Mapping) (start : String := "") : FlatSettings :=
  flattenEntries .empty start entries

end Scaffold.Settings
