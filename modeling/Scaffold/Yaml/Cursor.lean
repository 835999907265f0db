/-!
# Cursors

A place in a text that is being read: what is still to come, and the index,
line and column of the place. Columns decide the structure of a document, and
lines and indices how far a key may be from its colon.

Carriage returns are made line feeds before reading begins. A line feed, the
next-line character and the line and paragraph separators are breaks: they end
a token, a comment and a line of a text. But only a line feed begins a new line
in the count of lines and columns.

## Main definitions

* `normalizeBreaks`: A text without carriage returns.
* `breakText?`: What a line break stands for in a text.
* `Cursor`: A place in a text.
* `Cursor.advance`: The place some characters further on.
* `Cursor.break?`: The line break at a place.
* `isGap`, `atGap`: The characters that end a token, and the end of the text.
* `isMarker`: Whether a text begins with a document marker.
-/

namespace Scaffold.Yaml

/-- A text with a line feed for each of its carriage returns, and for a carriage
    return and a line feed together. -/
def normalizeBreaks : List Char → List Char
  | [] => []
  | '\r' :: '\n' :: cs => '\n' :: normalizeBreaks cs
  | c :: cs => (if c == '\r' then '\n' else c) :: normalizeBreaks cs

/-- What a line break stands for in a text, if a character is one. The line and
    paragraph separators stand for themselves. -/
def breakText? (c : Char) : Option Char :=
  if c == '\n' || c == '\u0085' then some '\n'
  else if c == '\u2028' || c == '\u2029' then some c
  else none

/-- Whether a character is a line break. -/
def isBreak (c : Char) : Bool := (breakText? c).isSome

/-- A place in a text. -/
structure Cursor where
  rest : List Char
  index : Nat := 0
  line : Nat := 0
  column : Nat := 0

namespace Cursor

/-- The place one character further on. A byte order mark takes up no column. Of the
    line breaks, only a line feed leads to another line. -/
def next (p : Cursor) : Cursor :=
  match p.rest with
  | [] => p
  | c :: cs =>
    if c == '\n' then ⟨cs, p.index + 1, p.line + 1, 0⟩
    else if c == '\ufeff' then ⟨cs, p.index + 1, p.line, p.column⟩
    else ⟨cs, p.index + 1, p.line, p.column + 1⟩

/-- The place some characters further on. -/
def advance : Nat → Cursor → Cursor
  | 0, p => p
  | n + 1, p => advance n p.next

/-- The characters from a place on, as long as a condition holds. -/
def run (p : Cursor) (cond : Char → Bool) : List Char := p.rest.takeWhile cond

/-- The place after the characters for which a condition holds. -/
def skip (p : Cursor) (cond : Char → Bool) : Cursor := p.advance (p.run cond).length

/-- What the line break at a place stands for, if there is one. -/
def break? (p : Cursor) : Option Char := p.rest.head?.bind breakText?

end Cursor

/-- Whether a character is a blank or a tab. -/
def isBlank (c : Char) : Bool := c == ' ' || c == '\t'

/-- Whether a character separates tokens: a blank, a tab or a line break. -/
def isGap (c : Char) : Bool := isBlank c || isBreak c

/-- Whether a text begins with a separator or is at its end. -/
def atGap : List Char → Bool
  | [] => true
  | c :: _ => isGap c

/-- Whether a text begins with a document marker: three hyphens or three points,
    and then a separator or the end. -/
def isMarker : List Char → Bool
  | '-' :: '-' :: '-' :: cs => atGap cs
  | '.' :: '.' :: '.' :: cs => atGap cs
  | _ => false

/-- Whether a document marker stands at a place between tokens, which it does only
    in the first column. -/
def Cursor.atMarker (p : Cursor) : Bool := p.column == 0 && isMarker p.rest

end Scaffold.Yaml
