import Scaffold.Command.Usage
import Scaffold.Component
import Scaffold.Files.Workspace

/-!
# Requests

What a command line asks for. Options are checked in the order in which they were
first given, then the name, and then whether anything is left over. A path that
is given must not be of the wrong kind, if there is anything at it.

## Main definitions

* `Request`: The things that can be asked for.
* `Request.ofArguments`: What a command line asks for.
-/

namespace Scaffold.Command

/-- What to make a component of. -/
structure NewRequest where
  name : String
  api : Api := .setup
  lang : ScriptLang := .ts
  config? : Option Path := none
  out : Path := .here
  /-- Print the content and write no file. -/
  toStdout : Bool := false
  force : Bool := false
  deriving DecidableEq, Repr

/-- What can be asked for. -/
inductive Request where
  | new (r : NewRequest)
  | fixtures (out : Path) (config? : Option Path)
  | listSettings (config? : Option Path)
  | initSettings (force : Bool)
  | version
  | help (scope : Scope)
  /-- Help for someone who gave no arguments at all. -/
  | guidance
  deriving DecidableEq, Repr

/-- The fault of one option, if it has one: a choice that is not offered, or a path
    of the wrong kind. -/
def optionFault? (w : Workspace) (name value : String) : Option UsageFault :=
  match name, (w.writtenEntry value).toOption with
  | "--api", _ =>
    if (Api.ofWord? value).isSome then none
    else some (.badChoice name value (Api.all.map Api.word))
  | "--lang", _ =>
    if (ScriptLang.ofWord? value).isSome then none
    else some (.badChoice name value (ScriptLang.all.map ScriptLang.word))
  | "--config", some .directory => some (.directoryAsFile name value)
  | "--out", some (.file _) => some (.fileAsDirectory name value)
  | _, _ => none

/-- The first fault of a command's arguments: of its options, of its name, or of what
    is left over. -/
def argumentFault? (w : Workspace) (v : Verb) (as : Arguments) : Option UsageFault :=
  let ofOptions := as.names.findSome? fun name =>
    optionFault? w name ((as.value? name).getD "")
  let ofName := if v = .new && as.others.isEmpty then some .missingName else none
  let extra := if v = .new then as.others.drop 1 else as.others
  ofOptions <|> ofName <|> (if extra.isEmpty then none else some (.extra extra))

/-- What the arguments of a command ask for, once they are known to be in order. -/
def Verb.request (v : Verb) (as : Arguments) : Request :=
  let config? := (as.value? "--config").map Path.ofString
  let out := ((as.value? "--out").map Path.ofString).getD .here
  match v with
  | .new =>
    .new
      { name := as.others.headD ""
        api := ((as.value? "--api").bind Api.ofWord?).getD .setup
        lang := ((as.value? "--lang").bind ScriptLang.ofWord?).getD .ts
        config?
        out
        toStdout := as.has "--stdout"
        force := as.has "--force" }
  | .fixtures => .fixtures out config?
  | .settings =>
    if as.has "--init" then .initSettings (as.has "--force") else .listSettings config?

/-- What a command and its arguments ask for. Help is given before anything but the
    options themselves is looked at. -/
def Verb.read (v : Verb) (w : Workspace) (args : List String) : Except UsageError Request :=
  match Arguments.read v.options true args with
  | .error r => .error ⟨.command v, .option r⟩
  | .ok as =>
    if as.has "--help" then .ok (.help (.command v))
    else
      match argumentFault? w v as with
      | some fault => .error ⟨.command v, fault⟩
      | none => .ok (v.request as)

/-- What the options before the command ask for, if they ask for something: the one
    that was given first counts. -/
def groupRequest? (as : Arguments) : Option Request :=
  match as.options.head? with
  | some ("--version", _) => some .version
  | some _ => some (.help .group)
  | none => none

/-- What an unknown command comes to. One that looks like an option, after two
    hyphens, is read as an option after all. -/
def unknownCommand (word : String) (args : List String) : Except UsageError Request :=
  match Arguments.read groupOptions false args with
  | .error r => .error ⟨.group, .option r⟩
  | .ok as =>
    match groupRequest? as with
    | some r => .ok r
    | none => .error ⟨.group, .unknownCommand word⟩

/-- What a command line asks for. -/
def Request.ofArguments (w : Workspace) (args : List String) : Except UsageError Request :=
  if args.isEmpty then .ok .guidance
  else
    match Arguments.read groupOptions false args with
    | .error r => .error ⟨.group, .option r⟩
    | .ok as =>
      match groupRequest? as, as.others with
      | some r, _ => .ok r
      | none, [] => .error ⟨.group, .missingCommand⟩
      | none, word :: rest =>
        -- The first argument that is no option is the command; the rest is its own.
        match Verb.ofWord? word with
        | some v => v.read w rest
        | none => unknownCommand word (word :: rest)

end Scaffold.Command
