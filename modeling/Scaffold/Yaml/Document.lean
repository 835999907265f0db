import Scaffold.Settings.Value
import Scaffold.Yaml.Node

/-!
# Documents

The value that a document describes. Plain scalars are resolved to truth values,
numbers and null by their spelling; everything else is a text. Aliases stand for
what was anchored before; inside of what they stand for, they are null. A merge
adds to a mapping what others have and it has not.

## Main definitions

* `plainValue`: The value that a plain scalar spells.
* `Node.value`: The value that a node describes.
* `parse`: The value that a text describes.
-/

namespace Scaffold.Yaml

open Settings (Key Value Mapping)
open Decimal (Binary64)

/-! ### Plain scalars -/

/-- The value of digits in some base. -/
def digitsIn (base : Nat) (ds : List Char) : Nat :=
  ds.foldl (fun n c => base * n + (hexValue? c).getD 0) 0

/-- Whether a digit belongs to a base, or is an underscore between digits. -/
def isDigitIn (base : Nat) (c : Char) : Bool :=
  c == '_' || (hexValue? c).any (· < base)

/-- The natural that digits spell in some base, if they spell one. Underscores may
    stand between digits; they cannot stand alone. -/
def natIn? (base : Nat) (cs : List Char) : Option (Except Malformed Nat) :=
  if !cs.isEmpty && cs.all (isDigitIn base) then
    let ds := cs.filter (· != '_')
    some <|
      if ds.isEmpty then .error .emptyInteger
      else if base = 10 ∧ decimalSpan < ds.length then .error (.longInteger ds.length)
      else .ok (digitsIn base ds)
  else none

/-- The natural that a text spells, if it spells one. A beginning tells the base;
    zeros at the beginning do not change it. -/
def unsigned? : List Char → Option (Except Malformed Nat)
  | '0' :: 'b' :: cs => natIn? 2 cs
  | '0' :: 'o' :: cs => natIn? 8 cs
  | '0' :: 'x' :: cs => natIn? 16 cs
  | cs => natIn? 10 cs

/-- The integer that a text spells, if it spells one. It begins with a sign or a
    digit. -/
def int? (cs : List Char) : Option (Except Malformed Int) :=
  let (negative, rest) := Decimal.splitSign cs
  if cs.head? == some '_' then none
  else
    (unsigned? rest).map fun r =>
      r.map fun n => if negative then -(n : Int) else (n : Int)

/-- An exponent: the letter, a sign that may have to be there, and digits. -/
def isExponent (needsSign : Bool) : List Char → Bool
  | c :: cs =>
    let (signed, ds) := match cs with
      | '+' :: ds | '-' :: ds => (true, ds)
      | ds => (false, ds)
    (c == 'e' || c == 'E') && (signed || !needsSign) && !ds.isEmpty && ds.all Char.isDigit
  | [] => false

/-- Whether an unsigned text spells a fraction or a number with an exponent. One
    that begins with its point needs the sign of its exponent. -/
def isFraction (cs : List Char) : Bool :=
  let digits (c : Char) : Bool := c.isDigit || c == '_'
  match cs with
  | '.' :: rest =>
    let tail := rest.dropWhile digits
    rest.head?.any digits && (tail.isEmpty || isExponent true tail)
  | c :: rest =>
    c.isDigit &&
      match rest.dropWhile digits with
      | '.' :: r =>
        let tail := r.dropWhile digits
        tail.isEmpty || isExponent false tail
      | tail => isExponent false tail
  | [] => false

/-- The number that a text spells, if it spells one that is not an integer. -/
def float? (cs : List Char) : Option (Except Malformed Binary64) :=
  let (negative, rest) := Decimal.splitSign cs
  if [".inf", ".Inf", ".INF"].contains (String.ofList rest) then
    some (.ok (.infinite negative))
  else if [".nan", ".NaN", ".NAN"].contains (String.ofList cs) then some (.ok .nan)
  else if isFraction rest then
    let number := rest.filter (· != '_')
    some (match Decimal.unsigned? negative number with
      | some x => .ok x
      | none => .error (.emptyFraction (String.ofList (number.map Char.toLower))))
  else none

/-- The truth value that a text spells, if it spells one. -/
def bool? (s : String) : Option Bool :=
  if ["true", "True", "TRUE"].contains s then some true
  else if ["false", "False", "FALSE"].contains s then some false
  else none

/-- Whether a text spells null. -/
def isNull (s : String) : Bool := ["", "~", "null", "Null", "NULL"].contains s

/-- The value that a plain scalar spells. An anchored truth value becomes the number
    one or zero. -/
def plainValue (anchored : Bool) (cs : List Char) : Except Malformed Value :=
  let s := String.ofList cs
  if isNull s then .ok .null
  else
    -- Digits alone spell an integer as well as a fraction: the integer counts.
    match bool? s, int? cs, float? cs with
    | some b, _, _ => .ok (if anchored then .int (if b then 1 else 0) else .bool b)
    | none, some n, _ => n.map .int
    | none, none, some x => x.map .float
    | none, none, none => .ok (.str s)

/-! ### Nodes -/

/-- What an anchor stands for. -/
inductive Anchored where
  /-- Something that is still being read. -/
  | unfinished
  /-- The key of a merge. -/
  | mergeKey
  /-- Any other value. -/
  | value (v : Value)

/-- The text of the key of a merge. -/
def mergeKey : List Char := ['<', '<']

/-- The value of an alias. -/
def Anchored.aliasValue : Anchored → Value
  | unfinished => .null
  | mergeKey => .str (String.ofList Yaml.mergeKey)
  | value v => v

/-- Whether something is still being read. -/
def Anchored.isUnfinished : Anchored → Bool
  | unfinished => true
  | _ => false

/-- Whether something is the key of a merge. -/
def Anchored.isMergeKey : Anchored → Bool
  | mergeKey => true
  | _ => false

/-- What has been anchored so far, the latest first. -/
abbrev Anchors : Type := List (List Char × Anchored)

namespace Anchors

/-- The anchors with one more, if there is one, for something whose contents are to
    be read. -/
def opened (anchors : Anchors) (anchor? : Option (List Char)) : Anchors :=
  match anchor? with
  | some name => (name, .unfinished) :: anchors
  | none => anchors

/-- The anchors after contents have been read, with the value that they make up. It
    stands where its anchor was opened, above the anchors that there were before, so
    that one inside of it with the same name remains the latest. -/
def closed (anchors before : Anchors) (anchor? : Option (List Char)) (v : Value) : Anchors :=
  match anchor? with
  | some name => anchors.set (anchors.length - before.length - 1) (name, .value v)
  | none => anchors

/-- The anchors with one more, if there is one, for a scalar. -/
def note (anchors : Anchors) (anchor? : Option (List Char)) (a : Anchored) : Anchors :=
  match anchor? with
  | some name => (name, a) :: anchors
  | none => anchors

end Anchors

/-- A value as the key of an entry. -/
def keyOf : Value → Except Malformed Key
  | .null => .ok .null
  | .bool b => .ok (.bool b)
  | .int n => .ok (.int n)
  | .float x => .ok (.float x)
  | .str s => .ok (.str s)
  | .list _ | .map _ => .error .compoundKey

/-- Whether a mapping has a key. -/
def hasKey (entries : Mapping) (k : Key) : Bool := entries.any fun e => e.1.same k

/-- A mapping with the entries of another whose keys it has not. -/
def mergeInto (entries : Mapping) : Mapping → Mapping
  | [] => entries
  | (k, v) :: rest =>
    mergeInto (if hasKey entries k then entries else entries ++ [(k, v)]) rest

/-- Whether a node is an alias for something that is still being read. -/
def Node.isOpen (anchors : Anchors) : Node → Bool
  | .alias name => (anchors.lookup name).any (·.isUnfinished)
  | _ => false

/-- The mapping that a node with some value gives for merging. What is still being
    read has no entries to give. -/
def mergeSource (anchors : Anchors) (n : Node) : Value → Except Malformed Mapping
  | .map es => .ok es
  | _ => if n.isOpen anchors then .ok [] else .error .badMerge

/-- The mappings that a node with some value gives for merging: one, or a list of
    them. -/
def mergeSources (anchors : Anchors) : Node → Value → Except Malformed (List Mapping)
  | .sequence _ items, .list vs => (items.zip vs).mapM fun (n, v) => mergeSource anchors n v
  | n, .list vs => vs.mapM (mergeSource anchors n)
  | n, v => do pure [← mergeSource anchors n v]

/-- The entries of a mapping as they are being read, with what is to be merged. -/
structure Entries where
  own : Mapping := []
  merged : List Mapping := []

/-- The entries with one more. No key may occur twice. -/
def Entries.add (es : Entries) (k : Key) (v : Value) : Except Malformed Entries :=
  if hasKey es.own k then .error .repeatedKey
  else .ok { es with own := es.own ++ [(k, v)] }

/-- The entries with more to be merged. Only one merge may give anything. -/
def Entries.merge (es : Entries) (sources : List Mapping) : Except Malformed Entries :=
  if es.merged.isEmpty then .ok { es with merged := sources } else .error .badMerge

/-- The whole mapping: its own entries, and after them what is merged. -/
def Entries.mapping (es : Entries) : Mapping := es.merged.foldl mergeInto es.own

/-- Whether a node is the key of a merge, or an alias for one. -/
def Node.isMergeKey (anchors : Anchors) : Node → Bool
  | .scalar _ text plain => plain && text == mergeKey
  | .alias name => (anchors.lookup name).any (·.isMergeKey)
  | _ => false

namespace Node

mutual

/-- The value that a node describes, and what is anchored after it. -/
def value (anchors : Anchors) : Node → Except Malformed (Value × Anchors)
  | .alias name =>
    match anchors.lookup name with
    | some a => .ok (a.aliasValue, anchors)
    | none => .error (.undefinedAlias (String.ofList name))
  | .scalar anchor? text plain => do
    let v ← if plain then plainValue anchor?.isSome text else pure (.str (String.ofList text))
    let mark := (Node.scalar anchor? text plain).isMergeKey anchors
    pure (v, anchors.note anchor? (if mark then .mergeKey else .value v))
  | .sequence anchor? items => do
    let (vs, after) ← itemValues (anchors.opened anchor?) items
    pure (.list vs, after.closed anchors anchor? (.list vs))
  | .mapping anchor? entries => do
    let (es, after) ← entryValues (anchors.opened anchor?) {} entries
    pure (.map es.mapping, after.closed anchors anchor? (.map es.mapping))

/-- The values of a sequence's items. -/
def itemValues (anchors : Anchors) : List Node → Except Malformed (List Value × Anchors)
  | [] => .ok ([], anchors)
  | n :: ns => do
    let (v, anchors) ← n.value anchors
    let (vs, anchors) ← itemValues anchors ns
    pure (v :: vs, anchors)

/-- The entries of a mapping, added to those before them. -/
def entryValues (anchors : Anchors) (es : Entries) :
    List (Node × Node) → Except Malformed (Entries × Anchors)
  | [] => .ok (es, anchors)
  | (k, v) :: rest => do
    let (key, before) ← k.value anchors
    let (value, after) ← v.value before
    let es ← if k.isMergeKey anchors then do es.merge (← mergeSources before v value)
      else do es.add (← keyOf key) value
    entryValues after es rest

end

end Node

/-- The value that a text describes. -/
def parse (text : List Char) : Except Malformed Value := do
  let r := tokens text
  if let some e := r.wrong? then throw e
  let node ← Node.ofTokens? r.tokens
  pure (← node.value []).1

end Scaffold.Yaml
