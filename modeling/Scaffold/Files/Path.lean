/-!
# Paths

Paths as they are written and printed. Repeated slashes and single points are
dropped when a path is read, double points are kept: what they lead back from
may be missing, and that makes a difference.

## Main definitions

* `Anchor`: Where a path begins.
* `Path`: An anchor and the parts after it.
* `Path.ofString`, `Path.text`: Reading and printing.
* `Path.join`: A path taken from another.
* `Path.selfAndParents`: A path and everything above it, as far as it says.
-/

namespace Scaffold

/-- Where a path begins. Exactly two slashes at the beginning are not the same as
    one; three or more are. -/
inductive Anchor where
  | relative
  | root
  | doubleRoot
  deriving DecidableEq, Repr

/-- An anchor as it is printed. -/
def Anchor.text : Anchor → String
  | relative => ""
  | root => "/"
  | doubleRoot => "//"

/-- A path: where it begins, and its parts from there on. -/
structure Path where
  anchor : Anchor := .relative
  parts : List String
  deriving DecidableEq, Repr

/-- The pieces of a text between slashes. -/
def splitSlashes : List Char → List (List Char)
  | [] => [[]]
  | c :: cs =>
    if c == '/' then [] :: splitSlashes cs
    else
      match splitSlashes cs with
      | [] => [[c]]
      | piece :: pieces => (c :: piece) :: pieces

namespace Path

/-- The anchor of a written path. -/
def anchorOf : List Char → Anchor
  | '/' :: '/' :: '/' :: _ => .root
  | '/' :: '/' :: _ => .doubleRoot
  | '/' :: _ => .root
  | _ => .relative

/-- A written path. Empty parts and single points say nothing. -/
def ofString (s : String) : Path where
  anchor := anchorOf s.toList
  parts := ((splitSlashes s.toList).map String.ofList).filter fun part =>
    part != "" && part != "."

/-- The path that leads nowhere. -/
def here : Path := { parts := [] }

/-- A path as it is printed. -/
def text (p : Path) : String :=
  if p = here then "." else p.anchor.text ++ "/".intercalate p.parts

/-- A path taken from another one; a path that begins at a root stays as it is. -/
def join (p q : Path) : Path :=
  if q.anchor = .relative then { p with parts := p.parts ++ q.parts } else q

/-- The path of something in a directory. -/
def child (p : Path) (name : String) : Path := p.join (ofString name)

/-- The last part of a path. -/
def name (p : Path) : String := (p.parts.getLast?).getD ""

/-- The path without its last part. -/
def parent (p : Path) : Path := { p with parts := p.parts.dropLast }

/-- All beginnings of a list, the longest first. -/
def beginnings : List String → List (List String)
  | [] => [[]]
  | x :: xs => (beginnings xs).map (x :: ·) ++ [[]]

/-- A path and everything above it, outwards. Nothing is looked up: a relative
    path ends where it begins. -/
def selfAndParents (p : Path) : List Path :=
  (beginnings p.parts).map fun parts => { p with parts }

end Path

end Scaffold
