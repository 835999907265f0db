import Scaffold.Indentation

/-!
# Script Lines

Generated code as a list of lines, each with the depth that it stands at. The
sections of a script say what their lines are; how deep a level looks is the
indentation's business, and it is settled once, when the lines are rendered.
So no choice of indentation can change what a script says.

`block` writes an opening line, a body and a closing line, which keeps the
brackets of everything built from it in pairs.

## Main definitions

* `Line`: A depth and the text that stands there.
* `Line.render`, `render`: The text of one line, and of many.
* `block`, `braced`: Lines between an opening and a closing one.

## Theorems

* `render_append`: Lines are rendered one after the other.
-/

namespace Scaffold.Script

/-- A line of code: the depth it is indented to, and its text. -/
structure Line where
  level : Nat
  text : String
  deriving DecidableEq, Repr

/-- The line that holds nothing. -/
def Line.blank : Line := ⟨0, ""⟩

/-- The text of one line, with the line feed that ends it. -/
def Line.render (ind : Indentation) (l : Line) : String :=
  ind.text l.level ++ l.text ++ "\n"

/-- The text of many lines. -/
def render (ind : Indentation) (ls : List Line) : String :=
  String.join (ls.map (Line.render ind))

/-- A body between an opening and a closing line of the same depth. -/
def block (level : Nat) (opening : String) (body : List Line) (closing : String) :
    List Line :=
  ⟨level, opening⟩ :: body ++ [⟨level, closing⟩]

/-- A body in braces. The head precedes the opening brace and the tail follows
    the closing one. -/
def braced (level : Nat) (head : String) (body : List Line) (tail : String) : List Line :=
  block level (head ++ "\x7b") body ("\x7d" ++ tail)

/-- A type annotation, where types are written at all. -/
def annotation (typed : Bool) (type : String) : String :=
  if typed then ": " ++ type else ""

/-- Lines that are there only under a condition. -/
def linesIf (cond : Bool) (ls : List Line) : List Line :=
  if cond then ls else []

private theorem foldl_append_text (ss : List String) (acc : String) :
    ss.foldl (· ++ ·) acc = acc ++ ss.foldl (· ++ ·) "" := by
  induction ss generalizing acc with
  | nil => simp
  | cons s ss ih =>
    simp only [List.foldl_cons]
    rw [ih (acc ++ s), ih ("" ++ s), String.append_assoc]
    simp

/-- Lines are rendered one after the other. -/
theorem render_append (ind : Indentation) (xs ys : List Line) :
    render ind (xs ++ ys) = render ind xs ++ render ind ys := by
  unfold render String.join
  rw [List.map_append, List.foldl_append, foldl_append_text]

end Scaffold.Script
