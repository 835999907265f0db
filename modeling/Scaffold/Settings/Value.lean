import Scaffold.Decimal.Written
import Scaffold.Text.Quoted

/-!
# Settings Values

What a settings file can hold: scalars, lists and mappings. Keys of a mapping
are scalars. Entries keep their order, since a later one can override an
earlier one.

A value has a kind, which settings are checked against, and a literal form, in
which messages show it. Integers are written with all of their digits. The
program runs under an interpreter that may refuse to write an integer of more than
`Yaml.decimalSpan` digits, as it may refuse to read one. Only the refusal to read
is modelled, since an integer can also be read in another base, and a text that is
written is the same for all interpreters that do not refuse.

## Main definitions

* `Key`, `Value`: Keys and values.
* `Key.text`: The piece of a dotted key that a key stands for.
* `Kind`, `Value.kind`: The kinds of values; a truth value is not an integer.
* `Value.literal`: The form in which messages show a value.
* `Value.shown`: The form in which a listing shows a value.
-/

namespace Scaffold.Settings

open Decimal (Binary64)

/-- A key of a mapping. -/
inductive Key where
  | null
  | bool (b : Bool)
  | int (n : Int)
  | float (x : Binary64)
  | str (s : String)
  deriving DecidableEq, Repr

/-- A value of a settings file. -/
inductive Value where
  | null
  | bool (b : Bool)
  | int (n : Int)
  | float (x : Binary64)
  | str (s : String)
  | list (items : List Value)
  | map (entries : List (Key × Value))
  deriving Repr

/-- The entries of a mapping, in order. -/
abbrev Mapping : Type := List (Key × Value)

/-- The kinds of values. -/
inductive Kind where
  | null
  | boolean
  | integer
  | float
  | text
  | list
  | mapping
  deriving DecidableEq, Repr

/-- The word for a kind in messages. -/
def Kind.word : Kind → String
  | null => "null"
  | boolean => "boolean"
  | integer => "integer"
  | float => "float"
  | text => "str"
  | list => "list"
  | mapping => "dict"

/-- The word for a truth value in messages. -/
def truthWord (b : Bool) : String := if b then "True" else "False"

/-- The piece of a dotted key that a key stands for. An integer is written however many
    digits it has: the limit that `Yaml.decimalSpan` sets when integers are read is left
    out here. -/
def Key.text : Key → String
  | null => "None"
  | bool b => truthWord b
  | int n => toString n
  | float x => String.ofList x.text
  | str s => s

/-- A key as messages show it. -/
def Key.literal : Key → String
  | str s => Text.quote s
  | k => k.text

/-- The integer that a key is equal to, if there is one: a truth value counts as
    one or zero. -/
def Key.integer? : Key → Option Int
  | bool b => some (if b then 1 else 0)
  | int n => some n
  | float x => x.toInt?
  | _ => none

/-- Whether two keys are one. Numbers of whatever kind are compared by value. -/
def Key.same : Key → Key → Bool
  | null, null => true
  | str s, str t => s == t
  | float x, float y => x.sameValue y
  | k, k' =>
    match k.integer?, k'.integer? with
    | some m, some n => m == n
    | _, _ => false

namespace Value

/-- The kind of a value. A truth value is not an integer. -/
def kind : Value → Kind
  | null => .null
  | bool _ => .boolean
  | int _ => .integer
  | float _ => .float
  | str _ => .text
  | list _ => .list
  | map _ => .mapping

mutual

/-- A value as messages show it. As in `Key.text`, there is no limit to the digits of an
    integer. -/
def literal : Value → String
  | null => "None"
  | bool b => truthWord b
  | int n => toString n
  | float x => String.ofList x.text
  | str s => Text.quote s
  | list vs => "[" ++ ", ".intercalate (itemLiterals vs) ++ "]"
  | map es => "\x7b" ++ ", ".intercalate (entryLiterals es) ++ "\x7d"

/-- The items of a list as messages show them. -/
def itemLiterals : List Value → List String
  | [] => []
  | v :: vs => v.literal :: itemLiterals vs

/-- The entries of a mapping as messages show them. -/
def entryLiterals : List (Key × Value) → List String
  | [] => []
  | (k, v) :: es => (k.literal ++ ": " ++ v.literal) :: entryLiterals es

end

/-- A value as a listing of settings shows it: truth values in lower case, and
    texts without quotes. An integer is shown with all of its digits, as by `literal`. -/
def shown : Value → String
  | bool b => if b then "true" else "false"
  | str s => s
  | v => v.literal

end Value

end Scaffold.Settings
