import Scaffold.Yaml.Cursor
import Scaffold.Yaml.Malformed

/-!
# Scalar Texts

The texts of scalars: plain ones, quoted ones and blocks. Each reader begins at
the first character of a scalar and ends after the last one it takes.

A plain or quoted text may run over several lines; one line break in it counts
as a blank, and of more than one the first is dropped. The lines of a literal
block keep their breaks; those of a folded block are joined likewise, unless
they are indented further. This is about breaks that stand for a line feed;
the line and paragraph separators are always kept.

Fuel bounds the number of rounds. Every round takes at least one character, so
the length of the text is always enough.

## Main definitions

* `plainText`: A plain text.
* `quotedText`: A text in single or double quotes.
* `blockText`: A literal or folded block.
-/

namespace Scaffold.Yaml

/-! ### Plain texts -/

/-- Whether a character belongs to a flow collection and ends a plain text in
    one. -/
def isFlowMark (c : Char) : Bool :=
  c == ',' || c == '[' || c == ']' || c == '\x7b' || c == '\x7d'

/-- How many characters a plain text has up to its first gap. A colon belongs to
    the text unless a gap follows it. -/
def plainLength (inFlow : Bool) : List Char → Nat
  | [] => 0
  | c :: cs =>
    if isGap c || (c == ':' && atGap cs) || (inFlow && isFlowMark c) then 0
    else plainLength inFlow cs + 1

/-- What line breaks turn into where lines are joined, given the first and the
    others. A first one that stands for a line feed is dropped, and if there are no
    others it counts as a blank. -/
def foldedBreaks (first : Char) (others : List Char) : List Char :=
  if first != '\n' then first :: others
  else if others.isEmpty then [' ']
  else others

/-- The line breaks from the beginning of a line to the next line that is not
    blank, and the place where its text begins. Instead of the breaks there is
    nothing if a document marker stopped the search. -/
def plainBreaks : Nat → Cursor → List Char → Option (List Char) × Cursor
  | 0, p, breaks => (some breaks, p)
  | fuel + 1, p, breaks =>
    if isMarker p.rest then (none, p)
    else
      let q := p.skip (· == ' ')
      match q.break? with
      | some c => plainBreaks fuel q.next (breaks ++ [c])
      | none => (some breaks, q)

/-- A plain text as it is being read. -/
structure PlainText where
  chars : List Char
  stop : Cursor
  /-- Whether a line break was the last thing passed over. -/
  brokeLine : Bool

/-- The gap after a piece of plain text, as it shows in the text if more follows,
    and the place after it. Nothing can follow a document marker. -/
def plainGap (fuel : Nat) (p : Cursor) : Option (List Char) × Cursor × Bool :=
  let blanks := p.run (· == ' ')
  let q := p.skip (· == ' ')
  match q.break? with
  | some c =>
    let (others?, r) := plainBreaks fuel q.next []
    (others?.map (foldedBreaks c), r, true)
  | none => (if blanks.isEmpty then none else some blanks, q, false)

/-- A plain text from a place on, of which some has been read and a gap has been
    passed. In a block, a text goes on only on lines that are indented at least
    as far as given. A hash after a gap begins a comment. -/
def plainTextFrom (inFlow : Bool) (indent : Int) : Nat → PlainText → List Char → PlainText
  | 0, t, _ => t
  | fuel + 1, t, gap =>
    let n := if t.stop.rest.head? == some '#' then 0 else plainLength inFlow t.stop.rest
    if n = 0 then t
    else
      let chars := t.chars ++ gap ++ t.stop.rest.take n
      match plainGap fuel (t.stop.advance n) with
      | (none, p, broke) => ⟨chars, p, broke⟩
      | (some gap, p, broke) =>
        if p.rest.head? == some '#' || (!inFlow && p.column < indent) then ⟨chars, p, broke⟩
        else plainTextFrom inFlow indent fuel ⟨chars, p, broke⟩ gap

/-- The plain text at a place. -/
def plainText (inFlow : Bool) (indent : Int) (fuel : Nat) (p : Cursor) : PlainText :=
  plainTextFrom inFlow indent fuel ⟨[], p, false⟩ []

/-! ### Quoted texts -/

/-- What a character stands for after a backslash. -/
def escapes : List (Char × Char) :=
  [('0', '\x00'), ('a', '\x07'), ('b', '\x08'), ('t', '\t'), ('\t', '\t'), ('n', '\n'),
    ('v', '\x0b'), ('f', '\x0c'), ('r', '\r'), ('e', '\x1b'), (' ', ' '), ('"', '"'),
    ('/', '/'), ('\\', '\\'), ('N', '\u0085'), ('_', '\u00a0'), ('L', '\u2028'),
    ('P', '\u2029')]

/-- How many hexadecimal digits follow a letter after a backslash. -/
def escapeWidths : List (Char × Nat) := [('x', 2), ('u', 4), ('U', 8)]

/-- The value of a hexadecimal digit. -/
def hexValue? (c : Char) : Option Nat :=
  if c.isDigit then some (c.toNat - 48)
  else if 'a' ≤ c && c ≤ 'f' then some (c.toNat - 87)
  else if 'A' ≤ c && c ≤ 'F' then some (c.toNat - 55)
  else none

/-- The value of hexadecimal digits, if that is what all of them are. -/
def hexNumber? (cs : List Char) : Option Nat :=
  cs.foldl (fun acc c => do pure (16 * (← acc) + (← hexValue? c))) (some 0)

/-- The character of a code point, if it has one. -/
def charOfCode? (n : Nat) : Option Char :=
  if n.isValidChar then some (Char.ofNat n) else none

/-- The line breaks within quotes from the beginning of a line to the next line that
    is not blank, and the place where its text begins. No document marker may stand
    at the beginning of a line within quotes. -/
def quotedBreaks : Nat → Cursor → List Char → Except Malformed (List Char × Cursor)
  | 0, _, _ => .error .unfinished
  | fuel + 1, p, breaks =>
    if isMarker p.rest then .error .markerInQuotes
    else
      let q := p.skip isBlank
      match q.break? with
      | some c => quotedBreaks fuel q.next (breaks ++ [c])
      | none => .ok (breaks, q)

/-- What a backslash and the characters after it stand for, and the place after
    them. A backslash at the end of a line joins it with the next. -/
def escaped (fuel : Nat) (p : Cursor) : Except Malformed (List Char × Cursor) :=
  match p.next.rest with
  | [] => .error .unfinished
  | c :: cs =>
    if isBreak c then quotedBreaks fuel p.next.next []
    else
      match escapes.lookup c, escapeWidths.lookup c with
      | some d, _ => .ok ([d], p.advance 2)
      | none, some width =>
        let digits := cs.take width
        match if digits.length = width then hexNumber? digits else none with
        | none => .error .unknownEscape
        | some code =>
          match charOfCode? code with
          | some d => .ok ([d], p.advance (width + 2))
          | none => .error .noSuchCharacter
      | none, none => .error .unknownEscape

/-- A quoted text from a place after the opening quote on. -/
def quotedTextFrom (quote : Char) :
    Nat → Cursor → List Char → Except Malformed (List Char × Cursor)
  | 0, _, _ => .error .unfinished
  | fuel + 1, p, acc =>
    match p.rest with
    | [] => .error .unfinished
    | c :: cs =>
      if c == quote then
        if quote == '\'' && cs.head? == some '\'' then
          quotedTextFrom quote fuel (p.advance 2) (acc ++ ['\''])
        else .ok (acc, p.next)
      else if quote == '"' && c == '\\' then do
        let (chars, q) ← escaped fuel p
        quotedTextFrom quote fuel q (acc ++ chars)
      else if isGap c then do
        let q := p.skip isBlank
        match q.break? with
        | some c =>
          let (others, r) ← quotedBreaks fuel q.next []
          quotedTextFrom quote fuel r (acc ++ foldedBreaks c others)
        | none => quotedTextFrom quote fuel q (acc ++ p.run isBlank)
      else quotedTextFrom quote fuel p.next (acc ++ [c])

/-- The quoted text at a place, which is that of its opening quote. -/
def quotedText (quote : Char) (fuel : Nat) (p : Cursor) :
    Except Malformed (List Char × Cursor) :=
  quotedTextFrom quote fuel p.next []

/-! ### Blocks -/

/-- What becomes of the line breaks at the end of a block: one is kept, all are,
    or none is. -/
inductive Chomping where
  | clip
  | keep
  | strip
  deriving DecidableEq, Repr

/-- The head of a block: what to do at its end, and how much further it is
    indented than what it belongs to, if the head says so. -/
structure BlockHead where
  chomping : Chomping
  increment? : Option Nat

/-- The chomping that a sign asks for. -/
def chomping? : Char → Option Chomping
  | '+' => some .keep
  | '-' => some .strip
  | _ => none

/-- The indentation that a digit asks for. -/
def increment? (c : Char) : Option Nat :=
  if c.isDigit then some (c.toNat - 48) else none

/-- The head of a block and the place after it: a sign and a digit in any order,
    either of which may be missing. An indentation by zero is refused, and so is
    anything else that comes without a blank. -/
def blockHead (p : Cursor) : Except Malformed (BlockHead × Cursor) :=
  let head : BlockHead × Nat := match p.rest with
    | c :: d :: _ =>
      match chomping? c, increment? c, chomping? d, increment? d with
      | some m, _, _, some n => (⟨m, some n⟩, 2)
      | some m, _, _, none => (⟨m, none⟩, 1)
      | none, some n, some m, _ => (⟨m, some n⟩, 2)
      | none, some n, none, _ => (⟨.clip, some n⟩, 1)
      | none, none, _, _ => (⟨.clip, none⟩, 0)
    | [c] =>
      match chomping? c, increment? c with
      | some m, _ => (⟨m, none⟩, 1)
      | none, some n => (⟨.clip, some n⟩, 1)
      | none, none => (⟨.clip, none⟩, 0)
    | [] => (⟨.clip, none⟩, 0)
  let after := p.advance head.2
  if head.1.increment? = some 0 || !atGap after.rest then .error .badBlock
  else .ok (head.1, after)

/-- The place after the rest of the line that a head stands on: blanks and a
    comment. -/
def afterHeadLine (p : Cursor) : Except Malformed Cursor :=
  let q := p.skip (· == ' ')
  let r := if q.rest.head? == some '#' then q.skip (!isBreak ·) else q
  if r.rest.isEmpty || r.break?.isSome then .ok r.next else .error .badBlock

/-- The line breaks before the first line of a block that is not blank, the furthest
    that it or one of the lines before it is indented, and the place where its text
    begins. No blank line may be indented further than the first one was. -/
def blockIndentation : Nat → Cursor → List Char → Nat → Option Nat →
    Except Malformed (List Char × Nat × Cursor)
  | 0, _, _, _, _ => .error .badBlock
  | fuel + 1, p, breaks, furthest, first? =>
    match p.break? with
    | some c =>
      blockIndentation fuel p.next (breaks ++ [c]) furthest (some (first?.getD p.column))
    | none =>
      if p.rest.head? == some ' ' then
        blockIndentation fuel p.next breaks (max furthest p.next.column) first?
      else if first?.any fun first => 0 < first && first < furthest then .error .badBlock
      else .ok (breaks, furthest, p)

/-- The line breaks before the next line that is not blank, and the place after its
    indentation, which is taken off up to the given column. -/
def blockBreaks (indent : Nat) : Nat → Cursor → List Char → List Char × Cursor
  | 0, p, breaks => (breaks, p)
  | fuel + 1, p, breaks =>
    match p.break? with
    | some c => blockBreaks indent fuel p.next (breaks ++ [c])
    | none =>
      if p.rest.head? == some ' ' && p.column < indent then
        blockBreaks indent fuel p.next breaks
      else (breaks, p)

/-- Whether a text begins with a blank or a tab. -/
def beginsBlank (cs : List Char) : Bool := cs.head?.any isBlank

/-- How two lines of a block are joined, given the break after the first and those
    of the blank lines between them. In a folded block, breaks between lines that
    begin with neither blank nor tab are folded. -/
def blockJoint (folded : Bool) (line : List Char) (first : Char) (others next : List Char) :
    List Char :=
  if folded && !beginsBlank line && !beginsBlank next then foldedBreaks first others
  else first :: others

/-- The lines of a block from the first on. `top` says that the block belongs to
    nothing, so that a document marker can end it. -/
def blockLines (folded top : Bool) (chomping : Chomping) (indent : Nat) :
    Nat → Cursor → List Char → List Char × Cursor
  | 0, p, acc => (acc, p)
  | fuel + 1, p, acc =>
    let line := p.run (!isBreak ·)
    let q := p.skip (!isBreak ·)
    match q.break? with
    | none => (acc ++ line, q)
    | some c =>
      let (others, r) := blockBreaks indent fuel q.next []
      -- The block goes on with a line that is indented exactly as far as the first.
      if r.column == indent && !r.rest.isEmpty && !(top && r.atMarker) then
        blockLines folded top chomping indent fuel r
          (acc ++ line ++ blockJoint folded line c others r.rest)
      else
        let tail := match chomping with
          | .clip => [c]
          | .keep => c :: others
          | .strip => []
        (acc ++ line ++ tail, r)

/-- The block at a place, which is that of its mark. The indentation is that of
    what the block belongs to, and is negative at the top of a document. -/
def blockText (folded : Bool) (indent : Int) (fuel : Nat) (p : Cursor) :
    Except Malformed (List Char × Cursor) := do
  let (head, p) ← blockHead p.next
  let p ← afterHeadLine p
  let least := (indent + 1).toNat
  let (breaks, column, p) ← match head.increment? with
    | none => do
      let (breaks, furthest, p) ← blockIndentation fuel p [] 0 none
      pure (breaks, max least furthest, p)
    | some n =>
      let column := max least 1 + n - 1
      let (breaks, p) := blockBreaks column fuel p []
      pure (breaks, column, p)
  if p.column == column && !p.rest.isEmpty then
    pure (blockLines folded (least == 0) head.chomping column fuel p breaks)
  else
    pure (if head.chomping = .keep then breaks else [], p)

end Scaffold.Yaml
