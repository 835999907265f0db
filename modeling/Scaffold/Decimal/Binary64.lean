/-!
# Double Precision Numbers

Numbers with a significand of 53 bits and the exponents of the usual 64-bit
format, kept as integers so that nothing about them is left to hardware. A
decimal fraction is rounded to the nearest such number, an exact half to the
even significand.

## Main definitions

* `Binary64`: Not a number, an infinity, or a signed significand and exponent.
* `Binary64.ofFraction`: The number nearest to a quotient.
* `Binary64.ofScientific`: The number nearest to a decimal significand times a
  power of ten.
* `Binary64.toInt?`: The integer that a number is equal to, if there is one.
-/

namespace Scaffold.Decimal

/-- A number of double precision. A finite one is `significand * 2 ^ exponent`
    with its sign; `Binary64.ofFraction` makes the significand as long as the
    53 bits and the least exponent allow. -/
inductive Binary64 where
  | nan
  | infinite (negative : Bool)
  | finite (negative : Bool) (significand : Nat) (exponent : Int)
  deriving DecidableEq, Repr

namespace Binary64

/-- The number of bits of a significand. -/
def precision : Nat := 53

/-- The exponent of the last bit of the smallest numbers. -/
def leastExponent : Int := -1074

/-- The exponent of the last bit of the largest numbers. -/
def greatestExponent : Int := 971

/-- A quotient rounded to the nearest integer, an exact half to the even one. -/
def roundHalfEven (num den : Nat) : Nat :=
  let floor := num / den
  match compare (2 * (num % den)) den with
  | .lt => floor
  | .gt => floor + 1
  | .eq => floor + floor % 2

/-- The power of two that the last bit of a quotient's significand stands for.
    The two lengths decide it up to one, and one comparison settles the rest. -/
def lastBit (num den : Nat) : Int :=
  let guess : Int := (Nat.log2 num : Int) - (Nat.log2 den : Int) - (precision - 1 : Nat)
  let tooLong :=
    num * Nat.pow 2 (-guess).toNat < den * Nat.pow 2 (guess.toNat + (precision - 1))
  max leastExponent (if tooLong then guess - 1 else guess)

/-- The number nearest to the quotient of two naturals, the second not zero. -/
def ofFraction (negative : Bool) (num den : Nat) : Binary64 :=
  if num = 0 then finite negative 0 leastExponent
  else
    let e := lastBit num den
    -- Rounding up can make the significand one bit too long.
    let m := roundHalfEven (num * Nat.pow 2 (-e).toNat) (den * Nat.pow 2 e.toNat)
    let (m, e) := if m = Nat.pow 2 precision then (Nat.pow 2 (precision - 1), e + 1) else (m, e)
    if e > greatestExponent then infinite negative else finite negative m e

/-- The number nearest to `significand * 10 ^ exponent`. Magnitudes far outside
    the range are settled before any power is computed. -/
def ofScientific (negative : Bool) (significand : Nat) (exponent : Int) : Binary64 :=
  let magnitude : Int := (Nat.log2 significand : Int) / 4 + exponent
  if significand = 0 then finite negative 0 leastExponent
  else if magnitude > 400 then infinite negative
  else if exponent + (Nat.log2 significand : Int) < -400 then finite negative 0 leastExponent
  else ofFraction negative (significand * Nat.pow 10 exponent.toNat) (Nat.pow 10 (-exponent).toNat)

/-- The integer that a number is equal to, if it is equal to one. -/
def toInt? : Binary64 → Option Int
  | finite negative m e =>
    let num := m * Nat.pow 2 e.toNat
    let den := Nat.pow 2 (-e).toNat
    if num % den = 0 then
      some (if negative then -((num / den : Nat) : Int) else ((num / den : Nat) : Int))
    else none
  | _ => none

/-- Whether two numbers have the same value: zeros do whatever their signs. -/
def sameValue : Binary64 → Binary64 → Bool
  | finite _ 0 _, finite _ 0 _ => true
  | x, y => x == y

end Binary64

end Scaffold.Decimal
