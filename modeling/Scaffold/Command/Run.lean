import Scaffold.Command.Request
import Scaffold.Generation
import Scaffold.Settings.Initial

/-!
# Running Commands

What a request does: to the files, on the screen, and to the exit code. A fault
that the user can mend is reported and ends the command with code one; wrong
usage ends it with code two. Other faults have no exit code.

## Main definitions

* `Outcome`: What has become of a request.
* `Request.run`: The outcome of a request.
* `run`: The outcome of a command line.
* `Interruption.outcome`: The outcome of a command that is broken off.
-/

namespace Scaffold.Command

open Settings Terminal

/-- What has become of a request. -/
structure Outcome where
  workspace : Workspace
  stdout : String := ""
  stderr : String := ""
  /-- The exit code, or the fault that leaves none. -/
  result : Except Fault Nat := .ok 0

/-- The outcome of a fault, after some output: reported if it can be. -/
def Outcome.ofFault (w : Workspace) (stdout : String) (e : Fault) : Outcome :=
  match e.report? with
  | some text =>
    { workspace := w, stdout := stdout ++ (Message.failure text).line, result := .ok 1 }
  | none => { workspace := w, stdout, result := .error e }

/-- The message about a file that is in the way. -/
def fileExists (p : Path) : Message :=
  .failure ("File already exists: " ++ p.text ++ " (use --force to overwrite)")

/-- The message about a file that has been made. -/
def created (p : Path) : Message := .success ("Created " ++ p.text)

namespace NewRequest

/-- The component that is asked for. -/
def component? (r : NewRequest) : Except Fault Component :=
  match normalizeName r.name with
  | .ok name => .ok { name, api := r.api, lang := r.lang }
  | .error e => .error (.name e)

/-- The content of the component that is asked for. -/
def generate (r : NewRequest) (w : Workspace) (c : Component) : Generated :=
  c.generateIn w r.config?

/-- The file of the component. -/
def target (r : NewRequest) (c : Component) : Path := r.out.child c.fileName

/-- The component's file written, after some output. -/
def write (r : NewRequest) (w : Workspace) (c : Component) (stdout content : String) :
    Outcome :=
  let target := r.target c
  match writeComponent w target content r.force with
  | (w, .error e) => .ofFault w stdout e
  | (w, .ok false) =>
    { workspace := w, stdout := stdout ++ (fileExists target).line, result := .ok 1 }
  | (w, .ok true) =>
    { workspace := w
      stdout := stdout
        ++ messageText [created target,
          .info ("  " ++ c.api.word ++ " API, lang=" ++ c.lang.word)] }

/-- A component made: its name is looked at first, then the settings. -/
def run (r : NewRequest) (w : Workspace) : Outcome :=
  match r.component? with
  | .error e => .ofFault w "" e
  | .ok c =>
    let g := r.generate w c
    let warnings := messageText g.warnings
    match g.result with
    | .error e => .ofFault w warnings e
    | .ok content =>
      if r.toStdout then { workspace := w, stdout := warnings ++ content }
      else r.write w c warnings content

end NewRequest

/-- All fixtures made. -/
def runFixtures (w : Workspace) (out : Path) (config? : Option Path) : Outcome :=
  match load w config? with
  | .error e => .ofFault w "" e
  | .ok l =>
    let warnings := messageText l.warnings
    match writeFixtures w out l.settings with
    | (w, .error e) => .ofFault w warnings e
    | (w, .ok paths) =>
      { workspace := w
        stdout := warnings
          ++ messageText ([.header ("Fixture files in " ++ (out.join fixtureRoot).text)]
            ++ paths.map (fun p => .aside ("   " ++ p.text))
            ++ [.success ("Created " ++ toString paths.length ++ " component files")]) }

/-- All settings listed. -/
def runListing (w : Workspace) (config? : Option Path) : Outcome :=
  match load w config? with
  | .error e => .ofFault w "" e
  | .ok l =>
    let stdout := messageText l.warnings ++ l.listing.text
    match l.listing.error? with
    | some e => .ofFault w stdout (.settings e)
    | none => { workspace := w, stdout }

/-- A settings file written where it is not in the way of another. -/
def runInit (w : Workspace) (force : Bool) : Outcome :=
  let target : Path := { anchor := .root, parts := w.home ++ [fileName] }
  if w.pathExists target && !force then
    { workspace := w, stdout := (fileExists target).line, result := .ok 1 }
  else
    match w.writeFile target (.text initialText) with
    | (w, some o) => .ofFault w "" (.obstacle o)
    | (w, none) => { workspace := w, stdout := (created target).line }

/-- The outcome of a request. Help and guidance are cut short: the program goes on after
    the usage line with what its commands and options are for, and here the output ends with
    that line. The stream it goes to and the exit code are those of the program. -/
def Request.run (w : Workspace) : Request → Outcome
  | new r => r.run w
  | fixtures out config? => runFixtures w out config?
  | listSettings config? => runListing w config?
  | initSettings force => runInit w force
  | version =>
    { workspace := w, stdout := programName ++ ", version " ++ Command.version ++ "\n" }
  | help scope => { workspace := w, stdout := scope.usageLine }
  | guidance => { workspace := w, stderr := Scope.group.usageLine, result := .ok 2 }

/-- The outcome of a command line. -/
def run (w : Workspace) (args : List String) : Outcome :=
  match Request.ofArguments w args with
  | .ok r => r.run w
  | .error e => { workspace := w, stderr := e.text, result := .ok 2 }

/-- What can break a command off from outside. -/
inductive Interruption where
  | cancelled
  | failed (message : String)
  deriving DecidableEq, Repr

/-- The outcome of a command that is broken off. -/
def Interruption.outcome (w : Workspace) : Interruption → Outcome
  | cancelled =>
    { workspace := w, stdout := "\n⚠️  Cancelled by user\n", result := .ok 130 }
  | failed message => { workspace := w, stderr := "Error: " ++ message ++ "\n", result := .ok 1 }

end Scaffold.Command
