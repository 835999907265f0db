/-!
# Blank Characters

The characters that count as surrounding space when a name is trimmed: the
ASCII blanks, the four information separators, the next-line character and
the spaces, line and paragraph separators of Unicode.

## Main definitions

* `isBlank`: Whether a character is blank.
* `trim`: A text without the blanks at its ends.
-/

namespace Scaffold.Text

/-- The blank characters, as ranges of code points. -/
def blankRanges : List (Nat × Nat) :=
  [(0x9, 0xd), (0x1c, 0x20), (0x85, 0x85), (0xa0, 0xa0), (0x1680, 0x1680), (0x2000, 0x200a),
    (0x2028, 0x2029), (0x202f, 0x202f), (0x205f, 0x205f), (0x3000, 0x3000)]

/-- Whether a character is blank. -/
def isBlank (c : Char) : Bool :=
  blankRanges.any fun r => r.1 ≤ c.toNat && c.toNat ≤ r.2

/-- A text without the blanks at its ends. -/
def trim (cs : List Char) : List Char :=
  ((cs.dropWhile isBlank).reverse.dropWhile isBlank).reverse

end Scaffold.Text
