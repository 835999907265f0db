import Scaffold.Yaml.Node

/-!
# Beginnings

What can be said about bytes that as a whole are no text. A file is read from
its beginning on: a portion of its bytes is decoded once characters of it are
asked for, and a page of characters is asked for once the reader has come to the
end of those before. So something wrong with the document is found first if the
reader gets to it without the portion that cannot be decoded.

## Main definitions

* `readable`: The characters that are read before the bytes that are no text.
* `wrongBeginning?`: What is wrong with a document, found before these bytes.
-/

namespace Scaffold.Yaml

/-- How many bytes are decoded at once. -/
def portionSize : Nat := 8192

/-- How many characters are asked for at once. The first time it is two pages. -/
def pageSize : Nat := 4096

/-- What may complete a character: the first and the last of the bytes that go on with
    one, up to three times. -/
def completions : List (List UInt8) :=
  [0x80, 0xbf].flatMap fun b => (List.range 4).map fun n => List.replicate n b

/-- The text that bytes make up. -/
def decoded? (bytes : List UInt8) : Option String := String.fromUTF8? ⟨bytes.toArray⟩

/-- The text that bytes begin with, if they are the beginning of a text. A character
    that is not complete is left out. -/
def begun? (bytes : List UInt8) : Option String :=
  if completions.any fun more => (decoded? (bytes ++ more)).isSome then
    (List.range 4).findSome? fun n => decoded? (bytes.take (bytes.length - n))
  else none

/-- The text that as many portions make up as do. -/
def decodedPortions (bytes : List UInt8) : String :=
  let counts := (List.range (bytes.length / portionSize + 2)).reverse
  (counts.findSome? fun n => begun? (bytes.take (n * portionSize))).getD ""

/-- The characters of bytes that are read before those that are no text: whole pages,
    two at least. -/
def readable (bytes : List UInt8) : List Char :=
  let cs := normalizeBreaks (decodedPortions bytes).toList
  let pages := cs.length / pageSize
  if pages < 2 then [] else cs.take (pages * pageSize)

/-- What is wrong with a document in bytes that are no text, if it is found before
    them. -/
def wrongBeginning? (bytes : List UInt8) : Option Malformed :=
  (tokensTaken (readable bytes)).wrong?

end Scaffold.Yaml
