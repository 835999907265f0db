import Scaffold.Script.Line

/-!
# Lines Spelled Out

The texts of lines as lists of characters, and how the ways of putting lines
together spell.

A fact about the wording of generated code is a closed computation once every
literal text in it is spelled out as characters. The equations below carry
`spelled` and `String.toList` down to those literals, through blocks,
conditions and type annotations; the conditions stay behind as truth values,
so one computation settles all of their combinations.

## Main definitions

* `spelled`: The characters of the texts of some lines.

## Theorems

* `flatMap_text_eq_spelled`, `forall_text_of_spelled`: Looking at texts is
  looking at their spelling.
* `spelled_append`, `spelled_braced`, `spelled_block`, `spelled_ite`,
  `spelled_linesIf`: Spelling goes through the ways of putting lines together.
* `toList_ite`, `toList_annotated`: The same for parts of one line.
-/

namespace Scaffold.Script

/-- The characters of the texts of some lines. -/
def spelled : List Line → List (List Char)
  | [] => []
  | l :: ls => l.text.toList :: spelled ls

/-- To spell lines is to take the characters of each. The recursion is what `decide` runs, and this
    form is what the lemmas of the library are about. -/
theorem spelled_eq_map (ls : List Line) : spelled ls = ls.map fun l => l.text.toList := by
  induction ls with
  | nil => rfl
  | cons l ls ih => rw [spelled, List.map_cons, ih]

/-- A search through the texts of lines is a search through their spelling, which for given lines is
    a closed term. -/
theorem flatMap_text_eq_spelled {α : Type} (f : List Char → List α) (ls : List Line) :
    (ls.flatMap fun l => f l.text.toList) = (spelled ls).flatMap f := by
  rw [spelled_eq_map, List.flatMap_map]

/-- What holds of every spelling holds of every text. -/
theorem forall_text_of_spelled {P : List Char → Prop} {ls : List Line}
    (h : ∀ cs ∈ spelled ls, P cs) : ∀ l ∈ ls, P l.text.toList := by
  rw [spelled_eq_map] at h
  exact fun l hl => h _ (List.mem_map_of_mem hl)

/-- Lines put one after the other are spelled one after the other. -/
theorem spelled_append (xs ys : List Line) :
    spelled (xs ++ ys) = spelled xs ++ spelled ys := by
  induction xs with
  | nil => rfl
  | cons l xs ih => rw [List.cons_append, spelled, spelled, ih, List.cons_append]

/-- A block is spelled as its first line, its body and its last line. The level is gone: the
    spelling knows nothing of indentation. -/
theorem spelled_block (level : Nat) (opening : String) (body : List Line) (closing : String) :
    spelled (block level opening body closing)
      = opening.toList :: spelled body ++ [closing.toList] := by
  unfold block
  rw [spelled_append, spelled, spelled, spelled]

/-- A block in braces is spelled with the braces as characters of their own, since the texts around
    them need not be literals. -/
theorem spelled_braced (level : Nat) (head : String) (body : List Line) (tail : String) :
    spelled (braced level head body tail)
      = (head.toList ++ ['\x7b']) :: spelled body ++ ['\x7d' :: tail.toList] := by
  unfold braced
  rw [spelled_block, String.toList_append, String.toList_append]
  rfl

/-- A choice between lines is a choice between spellings. The condition stays as it is, to be
    generalized later. -/
theorem spelled_ite (cond : Bool) (xs ys : List Line) :
    spelled (if cond then xs else ys) = if cond then spelled xs else spelled ys := by
  cases cond <;> rfl

theorem spelled_linesIf (cond : Bool) (ls : List Line) :
    spelled (linesIf cond ls) = if cond then spelled ls else [] :=
  spelled_ite cond ls []

theorem toList_ite (cond : Bool) (s t : String) :
    (if cond then s else t).toList = if cond then s.toList else t.toList := by
  cases cond <;> rfl

/-- A type annotation adds its characters only where types are written. -/
theorem toList_annotated (typed : Bool) (type : String) :
    ( annotation typed type).toList = if typed then ": ".toList ++ type.toList else [] := by
  unfold annotation
  rw [toList_ite, String.toList_append]
  rfl

end Scaffold.Script
