import Scaffold.Text.Printable

/-!
# Quoted Text

A text as messages show it: between quotes, and with everything escaped that
could be taken for something else. The quotes are single ones unless the text
holds a single quote and no double one.

## Main definitions

* `hexDigits`: A number in hexadecimal, filled up to a width.
* `quoteFor`: The quote that a text is put in.
* `escapeChar`: How one character is written.
* `quote`: The quoted text.
-/

namespace Scaffold.Text

/-- The digit of a number below sixteen. -/
def hexDigit (n : Nat) : Char :=
  if n < 10 then Char.ofNat (48 + n) else Char.ofNat (87 + n)

/-- The last `width` hexadecimal digits of a number. -/
def hexDigits : Nat → Nat → List Char
  | 0, _ => []
  | width + 1, n => hexDigits width (n / 16) ++ [hexDigit (n % 16)]

/-- The quote that a text is put in. -/
def quoteFor (cs : List Char) : Char :=
  if cs.contains '\'' && !cs.contains '"' then '"' else '\''

/-- How a character is written between the given quotes: the quote and the
    backslash after a backslash, the common controls by their letter, anything
    else that is not printable by the shortest of three hexadecimal forms. -/
def escapeChar (q c : Char) : List Char :=
  if c == q || c == '\\' then ['\\', c]
  else if c == '\n' then ['\\', 'n']
  else if c == '\r' then ['\\', 'r']
  else if c == '\t' then ['\\', 't']
  else if isPrintable c then [c]
  else if c.toNat < 0x100 then '\\' :: 'x' :: hexDigits 2 c.toNat
  else if c.toNat < 0x10000 then '\\' :: 'u' :: hexDigits 4 c.toNat
  else '\\' :: 'U' :: hexDigits 8 c.toNat

/-- A text between quotes. -/
def quote (s : String) : String :=
  let cs := s.toList
  let q := quoteFor cs
  String.ofList (q :: cs.flatMap (escapeChar q) ++ [q])

end Scaffold.Text
