import Scaffold.Text.Quoted

/-!
# Malformed Documents

The ways in which a text fails to be a document of settings.

Most of them are found by the parser, and what it says of them is its own affair. Some
are only found when a scalar is made into a value, by an operation that has nothing to do
with documents. These come with the message of that operation.

## Main definitions

* `decimalSpan`: How many digits a decimal integer may have.
* `Malformed`: What is wrong with a text.
* `Malformed.valueMessage?`: What is said of a scalar that makes no value.
-/

namespace Scaffold.Yaml

/-- How many digits a decimal integer may have. In other bases, which are powers of
    two, any number of digits is read. -/
def decimalSpan : Nat := 4300

/-- What is wrong with a text. -/
inductive Malformed where
  /-- A control character. -/
  | unprintable
  /-- A character that nothing can begin with. -/
  | noSuchToken (c : Char)
  /-- A line that has to be a key and is not followed by a colon. -/
  | missingColon
  /-- An entry where none may begin. -/
  | misplacedEntry
  /-- A document marker inside of quotes. -/
  | markerInQuotes
  /-- A backslash before something it does not go with. -/
  | unknownEscape
  /-- A backslash before a number that no character has. -/
  | noSuchCharacter
  /-- An anchor or alias without a proper name. -/
  | improperAnchor
  /-- A block of text with an improper head or first line. -/
  | badBlock
  /-- Tokens that do not make up a document, or more than one document. -/
  | unexpectedToken
  /-- The end where something has to come, such as the end of a flow collection or of
      quotes. -/
  | unfinished
  /-- An alias for an anchor that was never set. -/
  | undefinedAlias (name : String)
  /-- An integer that has no digits. -/
  | emptyInteger
  /-- A fraction that has no digits, given without its sign and underscores and in
      small letters. -/
  | emptyFraction (text : String)
  /-- A decimal integer that has more digits than are read. -/
  | longInteger (digits : Nat)
  /-- A list or a mapping as a key. -/
  | compoundKey
  /-- A key that its mapping already has. -/
  | repeatedKey
  /-- Something other than mappings to merge, or a second merge. -/
  | badMerge
  deriving DecidableEq, Repr

/-- What is said of a scalar that makes no value. Of everything else that can be wrong
    there is no such message: it is a fault of the document. -/
def Malformed.valueMessage? : Malformed → Option String
  | emptyFraction text => some ("could not convert string to float: " ++ Text.quote text)
  | longInteger digits =>
    some ("Exceeds the limit (" ++ toString decimalSpan
      ++ " digits) for integer string conversion: value has " ++ toString digits
      ++ " digits; use sys.set_int_max_str_digits() to increase the limit")
  | noSuchCharacter => some "chr() arg not in range(0x110000)"
  | _ => none

end Scaffold.Yaml
