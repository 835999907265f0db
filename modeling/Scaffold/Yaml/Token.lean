import Scaffold.Yaml.Scalar

/-!
# Tokens

The tokens of a document. Indentation has become opening and closing tokens, and
what turned out to be a key has a token before it that says so.

That something is a key shows only at the colon after it. So the place of
everything that could be a key is kept until its line ends, one place for each
level of flow collections, and the colon puts the tokens in at that place.

Whether the tokens make up nodes is not decided here: a flow collection may end
as another kind than it began, and have items of a block.

## Main definitions

* `Token`: The tokens.
* `Lexing`: What has been read, and what the next token depends on.
* `Lexing.startingWith`: What one more token does.
* `Lexing.run`: What is read up to the end of a text, or to something wrong.
* `Tokens`: The tokens of a text, and what is wrong after them.
* `tokens`: All tokens of a text.
* `tokensTaken`: The tokens that are taken of a text that goes on.
-/

namespace Scaffold.Yaml

/-- A token of a document. -/
inductive Token where
  | documentStart
  | documentEnd
  | blockSequenceStart
  | blockMappingStart
  | blockEnd
  | flowSequenceStart
  | flowSequenceEnd
  | flowMappingStart
  | flowMappingEnd
  | blockEntry
  | flowEntry
  | key
  | value
  | alias (name : List Char)
  | anchor (name : List Char)
  | scalar (text : List Char) (plain : Bool)
  deriving DecidableEq, Repr

/-- The kinds of flow collections. -/
inductive Flow where
  | sequence
  | mapping
  deriving DecidableEq, Repr

/-- Something that could be a key: how many tokens there were before it, and the
    place it stands at. It has to be a key if nothing else can begin there. -/
structure KeyCandidate where
  position : Nat
  required : Bool
  index : Nat
  line : Nat
  column : Nat

/-- The furthest that a colon may be from the beginning of its key. -/
def keySpan : Nat := 1024

/-- What has been read, and what the next token depends on. -/
structure Lexing where
  place : Cursor
  /-- The tokens so far, the last one first, and how many there are. -/
  done : List Token := []
  count : Nat := 0
  /-- The column of the innermost block, negative outside of all blocks. -/
  indent : Int := -1
  /-- The columns of the blocks around it. -/
  outer : List Int := []
  /-- The flow collections around the place, the innermost first. -/
  flow : List Flow := []
  /-- What could be a key, at the innermost level and at those around it. -/
  candidate : Option KeyCandidate := none
  outerCandidates : List (Option KeyCandidate) := []
  /-- Whether a key may begin here. -/
  keyAllowed : Bool := true
  /-- The line that the last token ends on. -/
  tokenLine : Nat := 0
  /-- The line of the first remark after the last token. Comments and empty lines
      are remarks. -/
  remarkLine? : Option Nat := none

namespace Lexing

/-- Whether the place is in a flow collection. -/
def inFlow (s : Lexing) : Bool := !s.flow.isEmpty

/-- One more token, which ends on the line of the place. -/
def emit (s : Lexing) (t : Token) : Lexing :=
  { s with
    done := t :: s.done
    count := s.count + 1
    tokenLine := s.place.line
    remarkLine? := none }

/-- Some characters taken. -/
def take (s : Lexing) (n : Nat) : Lexing := { s with place := s.place.advance n }

/-- The candidate given up, which it must not be if it has to be a key. -/
def dropCandidate (s : Lexing) : Except Malformed Lexing :=
  if s.candidate.any (·.required) then .error .missingColon
  else .ok { s with candidate := none }

/-- What begins here noted as a candidate, if a key may begin here. In a block, it
    has to be a key if it stands where the block's keys stand. -/
def noteCandidate (s : Lexing) : Except Malformed Lexing :=
  if s.keyAllowed then do
    let s ← s.dropCandidate
    .ok { s with
      candidate := some
        { position := s.count
          required := !s.inFlow && s.indent == (s.place.column : Int)
          index := s.place.index
          line := s.place.line
          column := s.place.column } }
  else .ok s

/-- Whether a candidate can still be a key: it is on the same line and not too
    far away. -/
def isLive (s : Lexing) (k : KeyCandidate) : Bool :=
  k.line == s.place.line && s.place.index - k.index ≤ keySpan

/-- The candidates that can no longer be keys given up, on all levels. -/
def dropStale (s : Lexing) : Except Malformed Lexing :=
  let stale (k? : Option KeyCandidate) : Bool := k?.any fun k => !s.isLive k
  -- A line break inside of a flow collection ends the candidates around it, too.
  let levels := s.candidate :: s.outerCandidates
  if levels.any fun k? => stale k? && k?.any (·.required) then .error .missingColon
  else
    let prune (k? : Option KeyCandidate) : Option KeyCandidate := if stale k? then none else k?
    .ok { s with
      candidate := prune s.candidate
      outerCandidates := s.outerCandidates.map prune }

/-- The blocks closed that begin to the right of a column. Flow collections know no
    indentation. -/
def closeBlocks (s : Lexing) (column : Int) : Lexing :=
  if s.inFlow then s else go s s.outer
where
  /-- Close blocks, given those around the innermost one. -/
  go (s : Lexing) : List Int → Lexing
    | [] => s
    | i :: outer =>
      if s.indent > column then go ({ s with indent := i, outer }.emit .blockEnd) outer else s

/-- Whether something at a column begins a block of its own, and the state with
    that block open. -/
def openBlock (s : Lexing) (column : Nat) : Bool × Lexing :=
  if s.indent < (column : Int) then
    (true, { s with indent := column, outer := s.indent :: s.outer })
  else (false, s)

/-- A line ended between tokens. Outside of flow collections, a key may begin after
    it. -/
def endLine (s : Lexing) : Lexing := { s with keyAllowed := s.keyAllowed || !s.inFlow }

/-- A remark on a line noted, unless there is one since the last token. -/
def noteRemark (s : Lexing) (line : Nat) : Lexing :=
  { s with remarkLine? := s.remarkLine? <|> some line }

/-- What is read once a gap at the place has been passed over, if one is there: blanks,
    a line break or a remark. Tabs are blanks only inside of flow collections and on
    lines after an empty one. -/
def skipGap? (s : Lexing) : Option Lexing :=
  let p := s.place.skip fun c => c == ' ' || (s.inFlow && c == '\t')
  if p.rest.head? == some '#' then
    let q := (p.skip (!isBreak ·)).skip isBreak
    some ({ s with place := q }.noteRemark p.line).endLine
  else if p.break?.isSome then
    let q := p.next
    if q.rest.head? == some '\n' then
      some ({ s with place := q.skip isGap }.noteRemark q.line).endLine
    else some { s with place := q }.endLine
  else if p.index == s.place.index then none
  else some { s with place := p }

/-- A document marker: everything open is closed. -/
def marker (s : Lexing) (t : Token) : Except Malformed Lexing := do
  let s ← (s.closeBlocks (-1)).dropCandidate
  .ok ({ s with keyAllowed := false }.emit t |>.take 3)

/-- The beginning of a flow collection, which as a whole could be a key. -/
def openFlow (s : Lexing) (kind : Flow) (t : Token) : Except Malformed Lexing := do
  let s ← s.noteCandidate
  .ok ({ s with
    flow := kind :: s.flow
    candidate := none
    outerCandidates := s.candidate :: s.outerCandidates
    keyAllowed := true }.emit t |>.take 1)

/-- The end of a flow collection. What was a candidate before it began is one again. -/
def closeFlow (s : Lexing) (t : Token) : Except Malformed Lexing := do
  let s ← s.dropCandidate
  .ok ({ s with
    flow := s.flow.tail
    candidate := s.outerCandidates.head?.join
    outerCandidates := s.outerCandidates.tail
    keyAllowed := false }.emit t |>.take 1)

/-- A comma between the items of a flow collection. -/
def flowEntry (s : Lexing) : Except Malformed Lexing := do
  let s ← s.dropCandidate
  .ok ({ s with keyAllowed := true }.emit .flowEntry |>.take 1)

/-- A hyphen before an item of a block. -/
def blockEntry (s : Lexing) : Except Malformed Lexing := do
  if !s.inFlow && !s.keyAllowed then throw .misplacedEntry
  let (opened, s) := if s.inFlow then (false, s) else s.openBlock s.place.column
  let s := if opened then s.emit .blockSequenceStart else s
  let s ← s.dropCandidate
  .ok ({ s with keyAllowed := true }.emit .blockEntry |>.take 1)

/-- A question mark before a key. -/
def explicitKey (s : Lexing) : Except Malformed Lexing := do
  if !s.inFlow && !s.keyAllowed then throw .misplacedEntry
  let (opened, s) := if s.inFlow then (false, s) else s.openBlock s.place.column
  let s := if opened then s.emit .blockMappingStart else s
  let s ← s.dropCandidate
  .ok ({ s with keyAllowed := !s.inFlow }.emit .key |>.take 1)

/-- The tokens of a key put in before it. -/
def insertKey (s : Lexing) (k : KeyCandidate) : Lexing :=
  let (opened, s) := if s.inFlow then (false, s) else s.openBlock k.column
  -- Tokens are kept last first, so what came after the candidate is in front.
  let after := s.count - k.position
  let put := if opened then [Token.key, .blockMappingStart] else [.key]
  { s with
    done := s.done.take after ++ put ++ s.done.drop after
    count := s.count + put.length }

/-- A colon before a value. What was a candidate is now a key; without one the key
    was explicit, or there is none. -/
def valueMark (s : Lexing) : Except Malformed Lexing := do
  match s.candidate with
  | some k =>
    let s := { s with candidate := none }.insertKey k
    .ok ({ s with keyAllowed := false }.emit .value |>.take 1)
  | none =>
    if !s.inFlow && !s.keyAllowed then throw .misplacedEntry
    let (opened, s) := if s.inFlow then (false, s) else s.openBlock s.place.column
    let s := if opened then s.emit .blockMappingStart else s
    .ok ({ s with keyAllowed := !s.inFlow }.emit .value |>.take 1)

/-- Whether a character may be part of an anchor's name: any one but blanks, line
    feeds and the marks of flow collections. The line and paragraph separators may. -/
def isAnchorChar (c : Char) : Bool :=
  !isFlowMark c && !isBlank c && breakText? c != some '\n' && c != '\ufeff'

/-- An anchor or an alias. A byte order mark cannot end its name. -/
def named (s : Lexing) (token : List Char → Token) : Except Malformed Lexing := do
  let s ← s.noteCandidate
  let p := s.place.next
  let name := p.run isAnchorChar
  let q := p.advance name.length
  if name.isEmpty || q.rest.head? == some '\ufeff' then throw .improperAnchor
  .ok ({ s with place := q, keyAllowed := false }.emit (token name))

/-- A scalar in quotes. -/
def quoted (s : Lexing) (quote : Char) (fuel : Nat) : Except Malformed Lexing := do
  let s ← s.noteCandidate
  let (text, p) ← quotedText quote fuel s.place
  .ok ({ s with place := p, keyAllowed := false }.emit (.scalar text false))

/-- A block of text. -/
def block (s : Lexing) (folded : Bool) (fuel : Nat) : Except Malformed Lexing := do
  let s ← s.dropCandidate
  let (text, p) ← blockText folded s.indent fuel s.place
  .ok ({ s with place := p, keyAllowed := true }.emit (.scalar text false))

/-- A plain scalar. A key may follow it if a line break does. -/
def plain (s : Lexing) (fuel : Nat) : Except Malformed Lexing := do
  let s ← s.noteCandidate
  let t := plainText s.inFlow (s.indent + 1) fuel s.place
  .ok ({ s with place := t.stop, keyAllowed := t.brokeLine }.emit (.scalar t.chars true))

/-- Whether the last token is the colon before a value, and there has been no remark
    since, or only such as begin on the line of the colon. -/
def followsValueMark (s : Lexing) : Bool :=
  s.done.head? == some .value && s.remarkLine?.all (· == s.tokenLine)

/-- Whether the colon at the place is before a value. It is if a gap follows, and in
    a flow mapping also without one, unless it follows another. -/
def isValueMark (s : Lexing) (after : List Char) : Bool :=
  match s.flow with
  | .mapping :: _ => !s.followsValueMark || atGap after
  | _ => atGap after

/-- Whether a character has a meaning of its own at the beginning of a token, in a
    flow collection and outside of it. -/
def isIndicator (c : Char) : Bool :=
  ['#', '&', '*', '!', '|', '>', '\'', '"', '%', '@', '\u0060'].contains c

/-- Whether a plain scalar can begin with a character, given what comes after. -/
def beginsPlain (s : Lexing) (c : Char) (after : List Char) : Bool :=
  if ['-', '?', ':'].contains c then
    !atGap after && (c == '-' || c == ':' || !s.inFlow)
  else !isGap c && !isFlowMark c && !isIndicator c

/-- The token that begins with a character, given what comes after it. -/
def startingWith (s : Lexing) (c : Char) (after : List Char) (fuel : Nat) :
    Except Malformed Lexing :=
  if s.place.atMarker then s.marker (if c == '-' then .documentStart else .documentEnd)
  else if c == '[' then s.openFlow .sequence .flowSequenceStart
  else if c == '\x7b' then s.openFlow .mapping .flowMappingStart
  else if c == ']' then s.closeFlow .flowSequenceEnd
  else if c == '\x7d' then s.closeFlow .flowMappingEnd
  else if c == ',' then s.flowEntry
  else if c == '-' && atGap after then s.blockEntry
  else if c == '?' && (s.inFlow || atGap after) then s.explicitKey
  else if c == ':' && s.isValueMark after then s.valueMark
  else if c == '*' then s.named .alias
  else if c == '&' then s.named .anchor
  else if c == '|' && !s.inFlow then s.block false fuel
  else if c == '>' && !s.inFlow then s.block true fuel
  else if c == '\'' || c == '"' then s.quoted c fuel
  else if s.beginsPlain c after then s.plain fuel
  else .error (.noSuchToken c)

/-- What is read once a gap or a token has been, given what the text goes on with. What
    stands further left than the blocks around it ends them. -/
def step (s : Lexing) (c : Char) (after : List Char) (fuel : Nat) : Except Malformed Lexing :=
  match s.skipGap? with
  | some s => .ok s
  | none => (s.closeBlocks s.place.column).startingWith c after fuel

/-- What is read at the end of the text, or when something is wrong. If the text goes
    on after what is known of it, then a gap or token that reaches the end is not read
    yet. Fuel bounds the number of gaps and tokens. -/
def run (goesOn : Bool) : Nat → Lexing → Lexing × Option Malformed
  | 0, s => (s, some .unexpectedToken)
  | fuel + 1, s =>
    match s.dropStale with
    | .error e => (s, some e)
    | .ok s =>
      match s.place.rest with
      | [] => (s, none)
      | c :: after =>
        match s.step c after fuel with
        | .error e => (s, if goesOn && e = .unfinished then none else some e)
        | .ok t => if goesOn && t.place.rest.isEmpty then (s, none) else run goesOn fuel t

/-- The end of the text, where everything open is closed. -/
def close (s : Lexing) : Except Malformed Lexing := (s.closeBlocks (-1)).dropCandidate

/-- The tokens before the first one that may still turn out to be a key. -/
def settled (s : Lexing) : List Token :=
  let keys := (s.candidate :: s.outerCandidates).filterMap (·.map (·.position))
  s.done.reverse.take (keys.foldl min s.count)

end Lexing

/-- Whether a character may occur in a document: a tab, a line feed, and anything
    that is not a control character. -/
def isDocumentChar (c : Char) : Bool :=
  c == '\t' || c == '\n' || c == '\r' || c == '\u0085'
    || (c.toNat ≥ 0x20 && c.toNat ≤ 0x7e)
    || (c.toNat ≥ 0xa0 && c != '\ufffe' && c != '\uffff')

/-- A text without a byte order mark at its beginning. -/
def dropByteOrderMark : List Char → List Char
  | '\ufeff' :: cs => cs
  | cs => cs

/-- The tokens of a text, up to its end or to something wrong. -/
structure Tokens where
  tokens : List Token
  fault? : Option Malformed

/-- What is read of a text, or of the beginning of one that goes on. -/
def scan (goesOn : Bool) (text : List Char) : Lexing × Option Malformed :=
  let start : Lexing := { place := { rest := normalizeBreaks (dropByteOrderMark text) } }
  if text.all isDocumentChar then start.run goesOn (text.length + 2)
  else (start, some .unprintable)

/-- All tokens of a text. -/
def tokens (text : List Char) : Tokens :=
  match scan false text with
  | (s, some e) => ⟨s.settled, some e⟩
  | (s, none) =>
    match s.close with
    | .error e => ⟨s.settled, some e⟩
    | .ok s => ⟨s.done.reverse, none⟩

/-- The tokens that are taken of a text that goes on before more of it is asked for. A
    token is taken only when another one or a remark has been read after it, and an
    alias only after another token. -/
def tokensTaken (text : List Char) : Tokens :=
  let (s, fault?) := scan true text
  let ts := if s.remarkLine?.isSome then s.settled else s.settled.dropLast
  ⟨if ts.getLast? matches some (.alias _) then ts.dropLast else ts, fault?⟩

end Scaffold.Yaml
