import Scaffold.Command.Footprint

/-!
# The Program

The command line on a real disk. The part of the disk that the arguments are
about is read into a workspace, the command is run there, and what it has changed
is written back.

## Main definitions

* `workspaceAt`: A workspace with nothing in it.
* `readFootprint`: The part of the disk that a command may look at.
* `writeChanges`: The changes written back.
* `main`: The program.
-/

namespace Scaffold

/-- The parts of a location on the disk. -/
def partsOf (text : String) : Location := (Path.ofString text).parts

/-- The text of a location on the disk. -/
def diskText (l : Location) : String := Path.text { anchor := .root, parts := l }

/-- What is on the disk at the end of one path, put into a workspace that already
    holds everything above it. -/
def readPath (w : Workspace) (p : Path) : IO Workspace := do
  match w.resolve p with
  | .error _ => pure w
  | .ok l =>
    let place := (← IO.currentDir) / diskText l
    if (w.tree.get? l).isSome || !(← place.pathExists) then pure w
    else if ← place.isDir then pure (w.put l .directory)
    else do
      let bytes ← IO.FS.readBinFile place
      pure (w.put l (.file (.ofBytes bytes.toList)))

/-- A workspace with nothing but its working directory and what that is in. -/
def workspaceAt (home : Location) : Workspace :=
  let p : Path := { anchor := .root, parts := home }
  let w := (Workspace.empty.makeDirectories p).1
  (w.moveTo p).toOption.getD w

/-- The part of the disk that a command may look at. -/
def readFootprint (home : Location) (paths : List Path) : IO Workspace :=
  paths.foldlM readPath (workspaceAt home)

/-- Changes written back to the disk, directories before what is in them. -/
def writeChanges (changes : List (Location × Entry)) : IO Unit := do
  let root ← IO.currentDir
  for (l, e) in changes do
    match e with
    | .directory => IO.FS.createDirAll (root / diskText l)
    | .file (.text s) => IO.FS.writeFile (root / diskText l) s
    | .file (.bytes b) => IO.FS.writeBinFile (root / diskText l) ⟨b.toArray⟩

/-- What a user is told about a fault that no command reports. -/
def faultText : Fault → String
  | .malformed e => e.valueMessage?.getD "the settings file is not a proper document"
  | .notText => "the settings file is not a text"
  | .obstacle .missing => "no such file or directory"
  | .obstacle .notDirectory => "not a directory"
  | .obstacle .isDirectory => "is a directory"
  | .obstacle .alreadyExists => "file exists"
  | e => (e.report?).getD ""

/-- The program on some arguments, and its exit code. -/
def runOnDisk (args : List String) : IO UInt32 := do
  let home := partsOf (← IO.currentDir).toString
  let before ← readFootprint home (Command.footprint home args)
  let outcome := Command.run before args
  writeChanges (outcome.workspace.changesSince before)
  (← IO.getStdout).putStr outcome.stdout
  (← IO.getStderr).putStr outcome.stderr
  match outcome.result with
  | .ok code => pure code.toUInt32
  | .error e => do
    (← IO.getStderr).putStrLn ("Error: " ++ faultText e)
    pure 1

end Scaffold

/-- The program. -/
def main (args : List String) : IO UInt32 := Scaffold.runOnDisk args
