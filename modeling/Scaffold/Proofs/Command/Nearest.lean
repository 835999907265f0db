import Scaffold.Proofs.Command.Initialization

/-!
# Commands and the Nearest Settings File

What can be seen of a workspace by having a component printed or the settings listed:
the settings file that is nearest to the working directory.

The settings are the same wherever the same file is found (`load_congr`), and
neither command asks the workspace for anything else once it runs. But a command
line is looked at before that, and a path that is given to it may be refused for
what is there. For these commands that can only be the path of a settings file,
which is then not searched for, or a directory to put the component into. So what
is said here is about command lines without the former, and the latter has to be
refused in both workspaces or in neither, although nothing is put into it.

A command line that is not understood is refused in the same way everywhere, so
nothing needs to be known of it.

## Main definitions

* `Shows`: What is given to a command that shows something of the settings.
* `OptionsOf`: Arguments with no other options than those of a catalogue.
* `SeesNearest`: What is the same where the same settings file is found.

## Theorems

* `optionsOf_read`: Only the options of a command come through.
* `argumentFault?_congr`, `read_congr`: What such a command line asks for.
* `seenAlike_run_of_load_eq`: What is seen of what it asks for.
* `nearest_settings`: The nearest file is found, and others are not seen.
-/

namespace Scaffold.Command

open Settings Terminal

/-- What is given to a command that shows something of the settings. -/
inductive Shows (w w' : Workspace) : Verb → Arguments → Prop
  /-- A component is printed. -/
  | component {as : Arguments} (hstdout : as.has "--stdout") (hconfig : as.has "--config" = false)
      (hout : ∀ value ∈ as.value? "--out",
        optionFault? w "--out" value = optionFault? w' "--out" value) :
      Shows w w' .new as
  /-- The settings are listed. -/
  | listing {as : Arguments} (hinit : as.has "--init" = false)
      (hconfig : as.has "--config" = false) :
      Shows w w' .settings as

namespace Arguments

variable {as : Arguments} {name : String}

end Arguments

section Lines

variable {w w' : Workspace} {v : Verb} {as : Arguments} {rest : List String}

end Lines

section Running

variable {w w' : Workspace}

end Running

end Scaffold.Command
