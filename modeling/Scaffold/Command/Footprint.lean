import Scaffold.Command.Run

/-!
# Footprints

The paths that a command line may look at or write to. Commands run on a
workspace, not on a disk, so that part of a disk has to be read into one first;
the footprint says which part. It is found by asking what the command line would
mean where nothing exists yet: what is on the disk can make a command fail
early, but cannot lead it elsewhere.

## Main definitions

* `footprint`: The paths, each after everything above it.
-/

namespace Scaffold.Command

open Settings

/-- The paths that the search for settings may look at. -/
def settingsPaths (home : Location) : Option Path → List Path
  | some p => [p]
  | none =>
    (Path.selfAndParents { anchor := .root, parts := home }).map fun d => d.child fileName

/-- The paths that a request is about. -/
def requestPaths (home : Location) : Request → List Path
  | .new r =>
    settingsPaths home r.config?
      ++ match r.component? with
        | .ok c => [r.target c]
        | .error _ => []
  | .fixtures out config? =>
    settingsPaths home config? ++ fixtureKinds.map fun k => fixturePath out k.1 k.2
  | .listSettings config? => settingsPaths home config?
  | .initSettings _ => [{ anchor := .root, parts := home ++ [fileName] }]
  | .version | .help _ | .guidance => []

/-- The options whose values are paths. -/
def pathOptions : List String := ["--config", "--out"]

/-- The paths that options give, for the checks that come before a command is run. -/
def optionPaths : List String → List Path
  | [] => []
  | a :: rest =>
    let (name, attached?) := Arguments.split a
    let value? := attached? <|> rest.head?
    (if pathOptions.contains name then (value?.map Path.ofString).toList else [])
      ++ optionPaths rest

/-- The paths that a command line may look at or write to, each after everything
    above it. -/
def footprint (home : Location) (args : List String) : List Path :=
  let asked := match Request.ofArguments .empty args with
    | .ok r => requestPaths home r
    | .error _ => []
  ({ anchor := .root, parts := home } :: optionPaths args ++ asked).flatMap fun p =>
    p.selfAndParents.reverse

end Scaffold.Command
