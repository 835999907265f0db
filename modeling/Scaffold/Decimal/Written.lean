import Scaffold.Decimal.Shortest

/-!
# Written Numbers

How numbers are written and read. A number is written by its shortest decimal,
positionally within a range of magnitudes and with an exponent outside it.
Reading takes a sign, digits with a point, and an exponent.

## Main definitions

* `Layout`: The decisions of a written form.
* `Layout.messages`: The form that numbers have in messages.
* `Binary64.text`: A number in its written form.
* `Binary64.ofText?`: The number that a text stands for.
-/

namespace Scaffold.Decimal

/-- The decisions of a written form. The magnitude of a number is the number of
    its digits before the point; it is zero or less for fractions. -/
structure Layout where
  /-- The least magnitude that is written positionally. -/
  leastPositional : Int
  /-- The greatest magnitude that is written positionally. -/
  greatestPositional : Int
  /-- The least number of digits of an exponent. -/
  exponentDigits : Nat

/-- Numbers are written positionally from a ten-thousandth up to, but not
    including, ten to the sixteenth; an exponent has a sign and at least two
    digits. -/
def Layout.messages : Layout := ⟨-3, 16, 2⟩

/-- The decimal digits of a natural. -/
def digitsOf (n : Nat) : List Char := Nat.toDigits 10 n

/-- The digits of an exponent, filled up with zeros on the left. -/
def Layout.exponentText (l : Layout) (n : Nat) : List Char :=
  let ds := digitsOf n
  List.replicate (l.exponentDigits - ds.length) '0' ++ ds

/-- A positive decimal in a written form. A number written positionally has at
    least one digit on either side of its point. -/
def Layout.write (l : Layout) (d : Digits) : List Char :=
  let ds := digitsOf d.value
  let magnitude : Int := ds.length + d.place
  if l.leastPositional ≤ magnitude && magnitude ≤ l.greatestPositional then
    if magnitude ≤ 0 then
      '0' :: '.' :: List.replicate (-magnitude).toNat '0' ++ ds
    else if d.place < 0 then
      ds.take magnitude.toNat ++ '.' :: ds.drop magnitude.toNat
    else
      ds ++ List.replicate d.place.toNat '0' ++ ['.', '0']
  else
    let e := magnitude - 1
    let fraction := if ds.length > 1 then '.' :: ds.drop 1 else []
    ds.take 1 ++ fraction ++ ['e', if e < 0 then '-' else '+'] ++ l.exponentText e.natAbs

namespace Binary64

/-- A number as messages show it. -/
def text : Binary64 → List Char
  | nan => ['n', 'a', 'n']
  | infinite negative => signed negative ['i', 'n', 'f']
  | finite negative 0 _ => signed negative ['0', '.', '0']
  | finite negative m e => signed negative (Layout.messages.write (shortest m e))
where
  /-- Digits after a minus sign, where there is one. -/
  signed (negative : Bool) (cs : List Char) : List Char :=
    if negative then '-' :: cs else cs

end Binary64

/-- The value of decimal digits. -/
def valueOf (ds : List Char) : Nat :=
  ds.foldl (fun n c => 10 * n + (c.toNat - 48)) 0

/-- A sign, if there is one, and what follows: whether the sign is a minus. -/
def splitSign : List Char → Bool × List Char
  | '-' :: cs => (true, cs)
  | '+' :: cs => (false, cs)
  | cs => (false, cs)

/-- An exponent after its `e`: a sign and at least one digit; no exponent is
    zero. -/
def exponent? : List Char → Option Int
  | [] => some 0
  | c :: cs =>
    let (negative, ds) := splitSign cs
    if (c == 'e' || c == 'E') && !ds.isEmpty && ds.all Char.isDigit then
      some (if negative then -(valueOf ds : Int) else (valueOf ds : Int))
    else none

/-- The number that an unsigned text stands for: digits with a point among or
    beside them, and possibly an exponent. -/
def unsigned? (negative : Bool) (cs : List Char) : Option Binary64 :=
  let whole := cs.takeWhile Char.isDigit
  let rest := cs.dropWhile Char.isDigit
  let (fraction, rest) := match rest with
    | '.' :: r => (r.takeWhile Char.isDigit, r.dropWhile Char.isDigit)
    | r => ([], r)
  if whole.isEmpty && fraction.isEmpty then none
  else
    (exponent? rest).map fun e =>
      .ofScientific negative (valueOf (whole ++ fraction)) (e - fraction.length)

/-- The number that a text stands for, if it stands for one. -/
def Binary64.ofText? (cs : List Char) : Option Binary64 :=
  let (negative, rest) := splitSign cs
  match rest with
  | ['n', 'a', 'n'] => some .nan
  | ['i', 'n', 'f'] => some (.infinite negative)
  | rest => unsigned? negative rest

end Scaffold.Decimal
