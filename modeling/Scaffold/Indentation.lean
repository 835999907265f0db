/-!
# Indentation

The unit that generated lines are indented by: one tab, or a number of
spaces. The number is an integer because a context can be built with any
width; a width that is not positive indents by nothing.

## Main definitions

* `Indentation`: The unit.
* `Indentation.text`: The unit repeated to a level.

## Theorems

* `Indentation.text_zero`: Level zero is not indented.
-/

namespace Scaffold

/-- The unit of indentation. -/
structure Indentation where
  /-- One tab for each level, whatever the width. -/
  useTabs : Bool := false
  /-- Spaces for each level where tabs are not used. -/
  width : Int := 2
  deriving DecidableEq, Repr

namespace Indentation

/-- The unit repeated to a level. A count of zero or less, whether from the
    level or from the width, is the empty text. A count can be as large as it likes:
    that a host has no texts beyond some length, and no counts beyond some index, is
    left out. -/
def text (ind : Indentation) (level : Int) : String :=
  if ind.useTabs then
    String.ofList (List.replicate level.toNat '\t')
  else
    String.ofList (List.replicate (ind.width * level).toNat ' ')

/-- Level zero is not indented. -/
theorem text_zero (ind : Indentation) : ind.text 0 = "" := by
  unfold text
  split
  · rfl
  · rw [Int.mul_zero]
    rfl

end Indentation

end Scaffold
