import Scaffold.Settings.Error
import Scaffold.Settings.Flat

/-!
# Settings Sources

Where the value of a setting comes from. A source answers a key and a default
with a value, or with an error. The usual source is a mapping: flattened, with
the entries of its section laid over those beside it, and with every value held
to the kind of its default.

## Main definitions

* `Source`: Anything that answers keys.
* `Source.ofMapping`: The plain look-up of a key at the top of a mapping.
* `flattenSections`: The flat form of a mapping with its section.
* `checkKind`: Whether a value may stand in for a default.
* `FlatSettings.get`: The value of a key.
* `FlatSettings.unknownKeys`: The keys that nothing reads.
-/

namespace Scaffold.Settings

/-- Anything that answers a key and a default. -/
abbrev Source : Type := String → Value → Except SettingsError Value

/-- The value of a key at the top of a mapping, whatever it is, or the default if
    the key is not there. -/
def Source.ofMapping (entries : Mapping) : Source := fun key default =>
  match entries.find? fun e => e.1 == .str key with
  | some (_, v) => .ok v
  | none => .ok default

/-- Whether an entry is the section. -/
def isSection (e : Key × Value) : Bool := e.1 == .str sectionName

/-- The flat form of a mapping. The section is flattened on its own and laid over
    the other entries, so a namespace that occurs in both keeps its keys from
    each. A section that holds nothing is as good as none. -/
def flattenSections (entries : Mapping) : Except SettingsError FlatSettings :=
  -- Both are flattened before one is laid over the other.
  let top := flatten (entries.filter fun e => !isSection e)
  match entries.find? isSection with
  | none | some (_, .null) => .ok top
  | some (_, .map inner) => .ok (top.update (flatten inner))
  | some _ => .error .sectionNotMapping

/-- A value may stand in for a default of its own kind, and for null. -/
def checkKind (key : String) (value default : Value) : Except SettingsError Value :=
  if default.kind = .null || value.kind = default.kind then .ok value
  else .error (.wrongKind key default.kind value)

namespace FlatSettings

/-- The value of a key, checked against its default. The default itself stands in
    for a key that is missing or null. -/
def get (s : FlatSettings) : Source := fun key default =>
  match s.get? key with
  | none | some .null => .ok default
  | some value => checkKind key value default

/-- Whether an entry is of a checked namespace and is nevertheless not known. An
    entry that holds nothing is of no account. -/
def isUnknown (e : String × Value) : Bool :=
  e.2.kind != .null && checkedNamespaces.contains (namespaceOf e.1)
    && !knownKeys.contains e.1

/-- The keys of checked namespaces that nothing reads, by code point. -/
def unknownKeys (s : FlatSettings) : List String :=
  ((s.entries.filter isUnknown).map Prod.fst).mergeSort fun a b => a ≤ b

end FlatSettings

end Scaffold.Settings
