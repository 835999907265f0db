import Scaffold.Command.Arguments
import Scaffold.Text.Quoted

/-!
# Usage

What the commands are called, how they are used, and what a user is told who
uses them otherwise.

## Main definitions

* `Verb`: The commands.
* `Scope`: A command, or the program as a whole.
* `UsageFault`: What is wrong with the arguments.
* `UsageError.text`: What the user is told.
-/

namespace Scaffold.Command

/-- The commands. -/
inductive Verb where
  | new
  | fixtures
  | settings
  deriving DecidableEq, Repr

namespace Verb

/-- All commands. -/
def all : List Verb := [new, fixtures, settings]

/-- The word for a command. -/
def word : Verb → String
  | new => "new"
  | fixtures => "fixtures"
  | settings => "settings"

/-- The command that a word stands for. -/
def ofWord? (w : String) : Option Verb := all.find? fun v => v.word == w

/-- The options of a command. -/
def options : Verb → OptionTable
  | new => [("--api", .valued), ("--lang", .valued), ("--config", .valued),
      ("--out", .valued), ("--stdout", .flag), ("--force", .flag), ("--help", .flag)]
  | fixtures => [("--out", .valued), ("--config", .valued), ("--help", .flag)]
  | settings => [("--config", .valued), ("--init", .flag), ("--force", .flag),
      ("--help", .flag)]

end Verb

/-- The name of the program. -/
def programName : String := "vuegen"

/-- The version of the program. -/
def version : String := "0.1.0"

/-- The options of the program as a whole, which stand before a command. -/
def groupOptions : OptionTable := [("--version", .flag), ("--help", .flag)]

/-- A command, or the program as a whole. -/
inductive Scope where
  | group
  | command (v : Verb)
  deriving DecidableEq, Repr

namespace Scope

/-- How the scope is called. -/
def call : Scope → String
  | group => programName
  | command v => programName ++ " " ++ v.word

/-- What follows the call. -/
def operands : Scope → String
  | group => "[OPTIONS] COMMAND [ARGS]..."
  | command .new => "[OPTIONS] NAME"
  | command _ => "[OPTIONS]"

/-- The line that says how a scope is used. -/
def usageLine (s : Scope) : String := "Usage: " ++ s.call ++ " " ++ s.operands ++ "\n"

/-- The usage line, and where to find more. -/
def usage (s : Scope) : String :=
  s.usageLine ++ "Try '" ++ s.call ++ " --help' for help.\n"

end Scope

/-- What is wrong with the arguments. -/
inductive UsageFault where
  | option (r : Refusal)
  | missingName
  | extra (args : List String)
  | badChoice (option value : String) (choices : List String)
  /-- A directory where a file is asked for. -/
  | directoryAsFile (option value : String)
  /-- A file where a directory is asked for. -/
  | fileAsDirectory (option value : String)
  | unknownCommand (word : String)
  | missingCommand
  deriving DecidableEq, Repr

/-- Texts in quotes, separated by commas. -/
def quotedList (words : List String) : String :=
  ", ".intercalate (words.map Text.quote)

/-- What the user is told. -/
def UsageFault.message : UsageFault → String
  | option (.unknown name) => "No such option " ++ Text.quote name ++ "."
  | option (.needsValue name) => "Option " ++ Text.quote name ++ " requires an argument."
  | option (.takesNoValue name) => "Option " ++ Text.quote name ++ " does not take a value."
  | missingName => "Missing argument 'NAME'."
  | extra args =>
    "Got unexpected extra " ++ (if args.length = 1 then "argument" else "arguments")
      ++ " (" ++ " ".intercalate args ++ ")"
  | badChoice name value choices =>
    "Invalid value for '" ++ name ++ "': " ++ Text.quote value ++ " is not one of "
      ++ quotedList choices ++ "."
  | directoryAsFile name value =>
    "Invalid value for '" ++ name ++ "': File " ++ Text.quote value ++ " is a directory."
  | fileAsDirectory name value =>
    "Invalid value for '" ++ name ++ "': Directory " ++ Text.quote value ++ " is a file."
  | unknownCommand word => "No such command " ++ Text.quote word ++ "."
  | missingCommand => "Missing command."

/-- Whether the user is told how to use the program as well. An option that is known
    but has no value, or one too many, is reported alone. -/
def UsageFault.showsUsage : UsageFault → Bool
  | option (.needsValue _) => false
  | option (.takesNoValue _) => false
  | _ => true

/-- What is wrong with the arguments, and whose arguments they are. -/
structure UsageError where
  scope : Scope
  fault : UsageFault
  deriving DecidableEq, Repr

/-- All that the user is told. -/
def UsageError.text (e : UsageError) : String :=
  (if e.fault.showsUsage then e.scope.usage ++ "\n" else "")
    ++ "Error: " ++ e.fault.message ++ "\n"

end Scaffold.Command
