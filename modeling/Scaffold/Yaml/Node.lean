import Scaffold.Yaml.Token

/-!
# Nodes

The structure of a document: scalars, sequences and mappings, some of them
anchored, and aliases for anchored ones. What is left out, such as the value of
a key without one, is an empty plain scalar.

Fuel bounds the depth of calls. Each takes a token or is followed by one that
does, so a small multiple of the number of tokens is always enough.

## Main definitions

* `Node`: A node of a document.
* `Node.ofTokens?`: The node that the tokens of a document make up.
* `Tokens.wrong?`: What is wrong with the tokens of a text.
-/

namespace Scaffold.Yaml

/-- A node of a document. -/
inductive Node where
  | alias (name : List Char)
  | scalar (anchor? : Option (List Char)) (text : List Char) (plain : Bool)
  | sequence (anchor? : Option (List Char)) (items : List Node)
  | mapping (anchor? : Option (List Char)) (entries : List (Node × Node))
  deriving Repr

namespace Node

/-- What is left out. -/
def empty (anchor? : Option (List Char) := none) : Node := .scalar anchor? [] true

/-- What is wrong where the tokens are not what has to come: there may be none. -/
def unexpected : List Token → Malformed
  | [] => .unfinished
  | _ :: _ => .unexpectedToken

/-- Whether the next token is one of some, or there is no next token. -/
def isNext (stops : List Token) : List Token → Bool
  | [] => true
  | t :: _ => stops.contains t

/-- An anchor, if there is one. -/
def readAnchor : List Token → Option (List Char) × List Token
  | .anchor name :: ts => (some name, ts)
  | ts => (none, ts)

/-- What an anchor without anything after it is set to; without an anchor, there is
    nothing here that could be a node. -/
def ofAnchor (anchor? : Option (List Char)) (ts : List Token) :
    Except Malformed (Node × List Token) :=
  if anchor?.isSome then .ok (empty anchor?, ts) else .error (unexpected ts)

/-- The tokens after the comma that separates items; before the first item there is
    none. -/
def afterComma (first : Bool) : List Token → Except Malformed (List Token)
  | .flowEntry :: ts => if first then .error .unexpectedToken else .ok ts
  | ts => if first then .ok ts else .error (unexpected ts)

/-- What the readers of collections expect of the reader of nodes. -/
inductive Place where
  /-- Inside a flow collection. -/
  | flow
  /-- In a block. -/
  | block
  /-- After a key, where the items of a sequence need no further indentation. -/
  | afterKey
  deriving DecidableEq, Repr

mutual

/-- One node. -/
def read : Nat → Place → List Token → Except Malformed (Node × List Token)
  | 0, _, _ => .error .unexpectedToken
  | fuel + 1, place, ts =>
    match ts with
    | .alias name :: rest => .ok (.alias name, rest)
    | ts =>
      let (anchor?, rest) := readAnchor ts
      match place, rest with
      -- No token opens a sequence that stands no further right than its key.
      | .afterKey, .blockEntry :: _ => do
        let (items, rest) ← readLooseItems fuel rest
        .ok (.sequence anchor? items, rest)
      | _, .scalar text plain :: rest => .ok (.scalar anchor? text plain, rest)
      | _, .flowSequenceStart :: rest => do
        let (items, rest) ← readFlowItems fuel true rest
        .ok (.sequence anchor? items, rest)
      | _, .flowMappingStart :: rest => do
        let (entries, rest) ← readFlowEntries fuel true rest
        .ok (.mapping anchor? entries, rest)
      | .flow, rest => ofAnchor anchor? rest
      | _, .blockSequenceStart :: rest => do
        let (items, rest) ← readItems fuel rest
        .ok (.sequence anchor? items, rest)
      | _, .blockMappingStart :: rest => do
        let (entries, rest) ← readEntries fuel rest
        .ok (.mapping anchor? entries, rest)
      | _, rest => ofAnchor anchor? rest

/-- A node, unless one of some tokens shows that it is left out. -/
def readUnless :
    Nat → Place → List Token → List Token → Except Malformed (Node × List Token)
  | 0, _, _, _ => .error .unexpectedToken
  | fuel + 1, place, stops, ts =>
    if isNext stops ts then .ok (empty, ts) else read fuel place ts

/-- The items of a block sequence, up to its end. -/
def readItems : Nat → List Token → Except Malformed (List Node × List Token)
  | 0, _ => .error .unexpectedToken
  | fuel + 1, ts =>
    match ts with
    | .blockEntry :: rest => do
      let (item, rest) ← readUnless fuel .block [.blockEntry, .blockEnd] rest
      let (items, rest) ← readItems fuel rest
      .ok (item :: items, rest)
    | .blockEnd :: rest => .ok ([], rest)
    | ts => .error (unexpected ts)

/-- The items of a sequence that is not indented, up to something else. -/
def readLooseItems : Nat → List Token → Except Malformed (List Node × List Token)
  | 0, _ => .error .unexpectedToken
  | fuel + 1, ts =>
    match ts with
    | .blockEntry :: rest => do
      let (item, rest) ← readUnless fuel .block [.blockEntry, .key, .value, .blockEnd] rest
      let (items, rest) ← readLooseItems fuel rest
      .ok (item :: items, rest)
    | ts => .ok ([], ts)

/-- The value after a key, if there is one. -/
def readValue :
    Nat → Place → List Token → List Token → Except Malformed (Node × List Token)
  | 0, _, _, _ => .error .unexpectedToken
  | fuel + 1, place, stops, ts =>
    match ts with
    | .value :: rest => readUnless fuel place stops rest
    | ts => .ok (empty, ts)

/-- The entries of a block mapping, up to its end. -/
def readEntries : Nat → List Token → Except Malformed (List (Node × Node) × List Token)
  | 0, _ => .error .unexpectedToken
  | fuel + 1, ts =>
    let stops := [.key, .value, .blockEnd]
    match ts with
    | .blockEnd :: rest => .ok ([], rest)
    | .key :: rest => do
      let (key, rest) ← readUnless fuel .afterKey stops rest
      let (value, rest) ← readValue fuel .afterKey stops rest
      let (entries, rest) ← readEntries fuel rest
      .ok ((key, value) :: entries, rest)
    | .value :: _ => do
      let (value, rest) ← readValue fuel .afterKey stops ts
      let (entries, rest) ← readEntries fuel rest
      .ok ((empty, value) :: entries, rest)
    | ts => .error (unexpected ts)

/-- The items of a flow sequence, up to its end. An item with a key is a mapping of
    one entry. -/
def readFlowItems : Nat → Bool → List Token → Except Malformed (List Node × List Token)
  | 0, _, _ => .error .unexpectedToken
  | fuel + 1, first, ts => do
    if ts.head? = some .flowSequenceEnd then return ([], ts.drop 1)
    let ts ← afterComma first ts
    -- The end may also come after a last comma.
    match ts with
    | .flowSequenceEnd :: rest => .ok ([], rest)
    | .key :: rest => do
      let stops := [.flowEntry, .flowSequenceEnd]
      let (key, rest) ← readUnless fuel .flow (.value :: stops) rest
      let (value, rest) ← readValue fuel .flow stops rest
      let (items, rest) ← readFlowItems fuel false rest
      .ok (.mapping none [(key, value)] :: items, rest)
    | ts => do
      let (item, rest) ← read fuel .flow ts
      let (items, rest) ← readFlowItems fuel false rest
      .ok (item :: items, rest)

/-- The entries of a flow mapping, up to its end. Something that is not a key is one
    all the same, without a value. -/
def readFlowEntries :
    Nat → Bool → List Token → Except Malformed (List (Node × Node) × List Token)
  | 0, _, _ => .error .unexpectedToken
  | fuel + 1, first, ts => do
    if ts.head? = some .flowMappingEnd then return ([], ts.drop 1)
    let ts ← afterComma first ts
    let stops := [.flowEntry, .flowMappingEnd]
    -- The end may also come after a last comma.
    match ts with
    | .flowMappingEnd :: rest => .ok ([], rest)
    | .key :: rest => do
      let (key, rest) ← readUnless fuel .flow (.value :: stops) rest
      let (value, rest) ← readValue fuel .flow stops rest
      let (entries, rest) ← readFlowEntries fuel false rest
      .ok ((key, value) :: entries, rest)
    | .value :: _ => do
      let (value, rest) ← readValue fuel .flow stops ts
      let (entries, rest) ← readFlowEntries fuel false rest
      .ok ((empty, value) :: entries, rest)
    | ts => do
      let (key, rest) ← read fuel .flow ts
      let (entries, rest) ← readFlowEntries fuel false rest
      .ok ((key, empty) :: entries, rest)

end

/-- The node of a whole document. One marker may stand before it, and one after it; a
    text without any token is an empty document. -/
def ofTokens? (ts : List Token) : Except Malformed Node := do
  let fuel := 4 * ts.length + 4
  let (node, rest) ← match ts with
    | [] => pure (empty, [])
    | .documentStart :: rest => readUnless fuel .block [.documentStart, .documentEnd] rest
    | ts => read fuel .block ts
  if rest = [] ∨ rest = [.documentEnd] then pure node else throw .unexpectedToken

end Node

/-- The first alias for something that no anchor before it names, given the anchors so
    far. -/
def undefinedAlias? (known : List (List Char)) : List Token → Option (List Char)
  | [] => none
  | .anchor name :: ts => undefinedAlias? (name :: known) ts
  | .alias name :: ts => if known.contains name then undefinedAlias? known ts else some name
  | _ :: ts => undefinedAlias? known ts

/-- What is wrong with the tokens of a text, or after them. That they are unfinished
    is nothing wrong, since others may follow. -/
def Tokens.wrong? (r : Tokens) : Option Malformed :=
  match undefinedAlias? [] r.tokens, Node.ofTokens? r.tokens with
  | some name, _ => some (.undefinedAlias (String.ofList name))
  | none, .error e => if e = .unfinished then r.fault? else some e
  | none, .ok _ => r.fault?

end Scaffold.Yaml
