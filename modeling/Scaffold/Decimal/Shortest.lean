import Scaffold.Decimal.Binary64

/-!
# Shortest Decimals

The decimal with the fewest digits that is rounded to a given number, and of
those the nearest to it.

The decimals that are rounded to a number fill an interval around it, whose
ends belong to it if the significand is even. For one digit, two digits, and so
on, the two neighbours of the number on the grid of that many digits are tried;
the first grid with a neighbour inside the interval wins. Seventeen digits
always suffice. All comparisons are between integers.

## Main definitions

* `Digits`: A decimal as an integer and the place of its last digit.
* `Interval`: The decimals that are rounded to a number.
* `shortest`: The shortest decimal in the interval.
-/

namespace Scaffold.Decimal

/-- The decimal `value * 10 ^ place`. -/
structure Digits where
  value : Nat
  place : Int
  deriving DecidableEq, Repr

/-- A positive number with the interval that is rounded to it: all three are
    multiples of `2 ^ exponent`. -/
structure Interval where
  low : Nat
  mid : Nat
  high : Nat
  exponent : Int
  /-- Whether the ends belong to the interval. -/
  closed : Bool
  deriving DecidableEq, Repr

namespace Interval

/-- The interval of a number. It reaches half a unit of the last place to either
    side, but only a quarter downwards from a power of two, where the numbers
    below are twice as dense. -/
def around (significand : Nat) (exponent : Int) : Interval where
  low :=
    if significand = Nat.pow 2 (Binary64.precision - 1) && exponent > Binary64.leastExponent then
      4 * significand - 1
    else
      4 * significand - 2
  mid := 4 * significand
  high := 4 * significand + 2
  exponent := exponent - 2
  closed := significand % 2 = 0

/-- The factor that makes integers of multiples of `10 ^ place`. -/
def decimalScale (i : Interval) (place : Int) : Nat :=
  Nat.pow 10 place.toNat * Nat.pow 2 (-i.exponent).toNat

/-- The factor that makes comparable integers of the interval's own numbers. -/
def binaryScale (i : Interval) (place : Int) : Nat :=
  Nat.pow 2 i.exponent.toNat * Nat.pow 10 (-place).toNat

/-- Whether a decimal lies in the interval. -/
def contains (i : Interval) (d : Digits) : Bool :=
  let x := d.value * i.decimalScale d.place
  let low := i.low * i.binaryScale d.place
  let high := i.high * i.binaryScale d.place
  if i.closed then low ≤ x && x ≤ high else low < x && x < high

/-- The place of the leading digit, counted down from the given place. -/
def leadingPlace (i : Interval) : Nat → Int → Int
  | 0, place => place
  | fuel + 1, place =>
    if i.decimalScale place ≤ i.mid * i.binaryScale place then place
    else leadingPlace i fuel (place - 1)

/-- The better neighbour on the grid of a place, if one is in the interval: the
    nearer of two, and of two equally near ones the even. -/
def neighbour? (i : Interval) (place : Int) : Option Digits :=
  let unit := i.decimalScale place
  let x := i.mid * i.binaryScale place
  let below : Digits := ⟨x / unit, place⟩
  let above : Digits := ⟨x / unit + 1, place⟩
  match i.contains below, i.contains above with
  | true, false => some below
  | false, true => some above
  | true, true => some ⟨Binary64.roundHalfEven x unit, place⟩
  | false, false => none

/-- The first hit on finer and finer grids, for so many of them. -/
def firstHit (i : Interval) : Nat → Int → Digits
  | 0, place => ⟨i.mid * i.binaryScale place / i.decimalScale place, place⟩
  | fuel + 1, place => (i.neighbour? place).getD (firstHit i fuel (place - 1))

end Interval

/-- A decimal without the zeros at its end. -/
def Digits.strip : Nat → Digits → Digits
  | 0, d => d
  | fuel + 1, d =>
    if d.value % 10 = 0 && d.value != 0 then strip fuel ⟨d.value / 10, d.place + 1⟩ else d

/-- The shortest decimal that is rounded to a positive number. The search for the
    leading digit starts above the largest numbers and ends below the smallest;
    seventeen digits always suffice. -/
def shortest (significand : Nat) (exponent : Int) : Digits :=
  let i := Interval.around significand exponent
  (i.firstHit 17 (i.leadingPlace 640 310)).strip 20

end Scaffold.Decimal
