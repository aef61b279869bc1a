/-!
# JSON numbers

A number is read into a significand of 64 bits and a power of ten.

* `significand`: the digits that the significand has room for.
* `exceeds`: which numbers are refused because double precision cannot hold them. The significand
  and the power of ten are rounded one by one before they are multiplied, so near the greatest
  number of double precision the answer is not that of the exact value.
-/

namespace RequestFeed

/-- A number, without the digits that its significand has no room for. -/
inductive JsonNumber where
  /-- Digits only, perhaps after a minus sign. -/
  | integer (negative : Bool) (digits : Nat)
  /-- `significand` times ten to the power of `exponent`. -/
  | scaled (negative : Bool) (significand : Nat) (exponent : Int)
  deriving DecidableEq, Repr

namespace JsonNumber

/-- How many binary digits double precision keeps. -/
def precision : Nat := 53

/--
The natural number of at most 53 significant binary digits that is nearest to `n`; of two that
are equally near, the one with an even last digit.
-/
def rounded (n : Nat) : Nat :=
  let unit := Nat.pow 2 (Nat.log2 n + 1 - precision)
  let quotient := n / unit
  let excess := 2 * (n % unit)
  if unit < excess ∨ (unit = excess ∧ quotient % 2 = 1) then (quotient + 1) * unit
  else quotient * unit

/-- The least magnitude that no finite number of double precision is nearest to. -/
def overflow : Nat := Nat.pow 2 1024 - Nat.pow 2 970

/-- The greatest power of ten that is a finite number of double precision. -/
def greatestPower : Nat := 308

/-- A significand times a power of ten is too large for double precision. -/
def exceeds (significand : Nat) : Int → Bool
  | .negSucc _ => false
  | .ofNat exponent =>
    significand ≠ 0 &&
      (greatestPower < exponent ||
        overflow ≤ rounded significand * rounded (Nat.pow 10 exponent))

/-- The number has a value of double precision. -/
def isFinite : JsonNumber → Bool
  | .integer _ _ => true
  | .scaled _ significand exponent => !exceeds significand exponent

/-- The natural number, if it is written as one and is below `bound`. -/
def natural? (bound : Nat) : JsonNumber → Option Nat
  | .integer false digits => if digits < bound then some digits else none
  | _ => none

/--
Appends decimal digits to a significand for as long as 64 bits can hold it; gives the significand
and the digits that are left.
-/
def significand (n : Nat) : List Char → Nat × List Char
  | [] => (n, [])
  | c :: cs =>
    let longer := n * 10 + (c.toNat - 48)
    if longer < UInt64.size then significand longer cs else (n, c :: cs)

/--
The number with these digits before and after the point and this exponent. A digit left over
before the point counts as a power of ten; one left over after the point does not count.
-/
def ofDigits (negative : Bool) (whole fraction : List Char) (exponent : Option Int) : JsonNumber :=
  let (n, left) := significand 0 whole
  if left = [] ∧ fraction = [] ∧ exponent = none then .integer negative n
  else
    let (n, dropped) := significand n fraction
    .scaled negative n
      (exponent.getD 0 + left.length - ((fraction.length : Int) - dropped.length))

end JsonNumber
end RequestFeed
