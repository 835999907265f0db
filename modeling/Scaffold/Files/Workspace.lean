import Scaffold.Files.Path
import Scaffold.Files.Tree

/-!
# Workspaces

A tree of files, and the directory of it that relative paths start from. A path
is followed part by part, and everything on the way has to be a directory that is
there; only its end may be missing.

## Main definitions

* `Obstacle`: Why something cannot be done.
* `Location.IsNamed`: The locations that paths can lead to.
* `Workspace`: A tree and a working directory, which is there.
* `Workspace.resolve`, `Workspace.entry`: Where a path leads, and what is there.
* `Workspace.makeDirectory`, `Workspace.writeContent`: The two additions.
* `Workspace.makeDirectories`, `Workspace.writeFile`: The same, with everything
  above that is missing.

## Theorems

* `isNamed_of_resolve`: What a path leads to has names for its parts.
-/

namespace Scaffold

/-- Why something cannot be done with a path. -/
inductive Obstacle where
  | missing
  | notDirectory
  | isDirectory
  | alreadyExists
  deriving DecidableEq, Repr

/-- The parts of a location are names: none is empty, and none says where to go
    instead. -/
def Location.IsNamed (l : Location) : Prop :=
  ∀ part ∈ l, part ≠ "" ∧ part ≠ "." ∧ part ≠ ".."

instance (l : Location) : Decidable (Location.IsNamed l) :=
  inferInstanceAs (Decidable (∀ part ∈ l, _))

/-- A tree and the directory that relative paths start from. -/
structure Workspace where
  tree : FileTree
  home : Location
  home_isDirectory : tree.get? home = some .directory
  home_named : Location.IsNamed home

namespace Workspace

/-- The workspace that has only a root. -/
def empty : Workspace := ⟨.empty, [], rfl, fun _ h => absurd h List.not_mem_nil⟩

/-- One part further. The parent of the root is the root, and an empty part or a
    single point leads nowhere. -/
def stepTo (l : Location) (part : String) : Location :=
  if part = ".." then l.dropLast
  else if part = "" || part = "." then l
  else l ++ [part]

theorem isNamed_stepTo {l : Location} (h : Location.IsNamed l) (part : String) :
    Location.IsNamed (stepTo l part) := by
  unfold stepTo
  split
  · exact fun q hq => h q ((List.dropLast_sublist l).subset hq)
  · next hup =>
    split
    · exact h
    · next hstay =>
      simp only [Bool.or_eq_true, decide_eq_true_eq, not_or] at hstay
      intro q hq
      rw [List.mem_append, List.mem_singleton] at hq
      rcases hq with hq | rfl
      · exact h q hq
      · exact ⟨hstay.1, hstay.2, hup⟩

/-- The location that parts lead to. Every location that a part is taken from has
    to be a directory. -/
def follow (w : Workspace) : Location → List String → Except Obstacle Location
  | l, [] => .ok l
  | l, part :: parts =>
    match w.tree.get? l with
    | none => .error .missing
    | some (.file _) => .error .notDirectory
    | some .directory => w.follow (stepTo l part) parts

theorem isNamed_of_follow (w : Workspace) {l m : Location} {parts : List String}
    (hl : Location.IsNamed l) (h : w.follow l parts = .ok m) : Location.IsNamed m := by
  induction parts generalizing l with
  | nil =>
    rw [follow] at h
    exact Except.ok.inj h ▸ hl
  | cons part parts ih =>
    rw [follow] at h
    split at h
    · exact absurd h nofun
    · exact absurd h nofun
    · exact ih (isNamed_stepTo hl part) h

/-- The location that a path starts from. -/
def startOf (w : Workspace) (anchor : Anchor) : Location :=
  if anchor = .relative then w.home else []

/-- The location that a path leads to. -/
def resolve (w : Workspace) (p : Path) : Except Obstacle Location :=
  w.follow (w.startOf p.anchor) p.parts

/-- What a path leads to has names for its parts. -/
theorem isNamed_of_resolve (w : Workspace) {p : Path} {l : Location}
    (h : w.resolve p = .ok l) : Location.IsNamed l := by
  refine w.isNamed_of_follow ?_ h
  unfold startOf
  split
  · exact w.home_named
  · exact fun _ hq => absurd hq List.not_mem_nil

/-- What a location holds, if it can be reached at all. -/
def entryAt (w : Workspace) (l : Except Obstacle Location) : Except Obstacle Entry := do
  match w.tree.get? (← l) with
  | some e => .ok e
  | none => .error .missing

/-- What a path leads to. -/
def entry (w : Workspace) (p : Path) : Except Obstacle Entry := w.entryAt (w.resolve p)

/-- What a path leads to that has been written down as a text. Unlike a path that
    has been read, it holds on to a slash or point at its end, which only a
    directory can have, and the empty text leads nowhere. -/
def writtenEntry (w : Workspace) (s : String) : Except Obstacle Entry :=
  if s = "" then .error .missing
  else
    let parts := (splitSlashes s.toList).map String.ofList
    w.entryAt (w.follow (w.startOf (Path.anchorOf s.toList)) parts)

/-- Whether a path leads to anything. -/
def pathExists (w : Workspace) (p : Path) : Bool := (w.entry p).toOption.isSome

/-- Whether a path leads to a file. -/
def isFile (w : Workspace) (p : Path) : Bool :=
  match w.entry p with
  | .ok (.file _) => true
  | _ => false

/-- Whether a path leads to a directory. -/
def isDirectory (w : Workspace) (p : Path) : Bool :=
  match w.entry p with
  | .ok .directory => true
  | _ => false

/-- The workspace with an entry put at a location, where its tree accepts one. -/
def put (w : Workspace) (l : Location) (e : Entry) : Workspace where
  tree := w.tree.put l e
  home := w.home
  home_isDirectory := by
    rw [FileTree.get?_put]
    split
    · next h => exact absurd (h.2 ▸ w.home_isDirectory) h.1.2.2
    · exact w.home_isDirectory
  home_named := w.home_named

/-- The workspace with a location emptied, unless it is a directory. -/
def remove (w : Workspace) (l : Location) : Workspace where
  tree := w.tree.remove l
  home := w.home
  home_isDirectory := by
    rw [FileTree.get?_remove]
    split
    · next h => exact absurd (h.2 ▸ w.home_isDirectory) h.1
    · exact w.home_isDirectory
  home_named := w.home_named

/-- A new directory. -/
def makeDirectory (w : Workspace) (p : Path) : Except Obstacle Workspace := do
  let l ← w.resolve p
  match w.tree.get? l with
  | some _ => .error .alreadyExists
  | none => .ok (w.put l .directory)

/-- A directory, which may have been there before. -/
def ensureDirectory (w : Workspace) (p : Path) : Workspace × Option Obstacle :=
  match w.makeDirectory p with
  | .ok w => (w, none)
  | .error e => if w.isDirectory p then (w, none) else (w, some e)

/-- A directory and everything above it that is missing, for the parts of a path
    from the last to the first. What has been made stays, even if something
    further down is in the way. -/
def makeAlong (w : Workspace) (anchor : Anchor) : List String → Workspace × Option Obstacle
  | [] => w.ensureDirectory { anchor, parts := [] }
  | part :: above =>
    let p : Path := { anchor, parts := (part :: above).reverse }
    match w.makeDirectory p with
    -- Only what is missing above is made; anything else in the way stays.
    | .error .missing =>
      match w.makeAlong anchor above with
      | (w, none) => w.ensureDirectory p
      | (w, some e) => (w, some e)
    | _ => w.ensureDirectory p

/-- A directory and everything above it that is missing. -/
def makeDirectories (w : Workspace) (p : Path) : Workspace × Option Obstacle :=
  w.makeAlong p.anchor p.parts.reverse

/-- A file with some content; what was in it before is gone. -/
def writeContent (w : Workspace) (p : Path) (c : Content) : Except Obstacle Workspace := do
  let l ← w.resolve p
  match w.tree.get? l with
  | some .directory => .error .isDirectory
  | _ => .ok (w.put l (.file c))

/-- A file with some content, and everything above it that is missing. -/
def writeFile (w : Workspace) (p : Path) (c : Content) : Workspace × Option Obstacle :=
  match w.makeDirectories p.parent with
  | (w, some e) => (w, some e)
  | (w, none) =>
    match w.writeContent p c with
    | .ok w => (w, none)
    | .error e => (w, some e)

/-- No file where there was one. -/
def removeFile (w : Workspace) (p : Path) : Except Obstacle Workspace := do
  let l ← w.resolve p
  match w.tree.get? l with
  | none => .error .missing
  | some .directory => .error .isDirectory
  | some (.file _) => .ok (w.remove l)

/-- Relative paths start from another directory. -/
def moveTo (w : Workspace) (p : Path) : Except Obstacle Workspace :=
  match hl : w.resolve p with
  | .error e => .error e
  | .ok l =>
    match h : w.tree.get? l with
    | none => .error .missing
    | some .directory =>
      .ok { w with home := l, home_isDirectory := h, home_named := w.isNamed_of_resolve hl }
    | some (.file _) => .error .notDirectory

/-- The locations that are new or hold something else than in another workspace,
    with their entries. -/
def changesSince (w before : Workspace) : List (Location × Entry) :=
  w.tree.table.entries.filter fun e => before.tree.get? e.1 ≠ some e.2

end Workspace

end Scaffold
