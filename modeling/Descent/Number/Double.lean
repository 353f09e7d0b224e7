import Descent.Number.Power

/-!
Binary floating point numbers of 64 bits: their exact values, and the number nearest to a quotient.
-/

set_option autoImplicit false
set_option relaxedAutoImplicit false

namespace Descent

/-- What the bits of a floating point number say: a finite number is its significand times a power
of two. -/
inductive Double where
  | nan
  | infinite (negative : Bool)
  | finite (negative : Bool) (significand : Nat) (exponent : Int)
  deriving Repr, DecidableEq

namespace Double

/-- The number of significands that numbers of one exponent have. -/
def significandCount : Nat := 0x10000000000000

/-- The exact value of a floating point number. -/
def ofFloat (x : Float) : Double :=
  let bits : Nat := x.toBits.toNat
  let negative : Bool := 0x8000000000000000 ≤ bits
  let biased : Nat := bits / significandCount % 0x800
  let fraction : Nat := bits % significandCount
  if biased == 0x7FF then if fraction == 0 then .infinite negative else .nan
  else if biased == 0 then .finite negative fraction (-1074)
  else .finite negative (significandCount + fraction) (biased - 1075)

/-- A natural quotient rounded to the nearest natural number, a half to the even neighbour. -/
def roundHalfEven (num den : Nat) : Nat :=
  let q := num / den
  let r := num % den
  if 2 * r < den then q else if den < 2 * r then q + 1 else if q % 2 == 0 then q else q + 1

/-- The quotient of two positive numbers lies from two to this power up to the next power. -/
def binaryOrder (num den : Nat) : Int :=
  let guess : Int := num.log2 - den.log2
  let reached : Bool :=
    if 0 ≤ guess then den * twoTo guess ≤ num else den ≤ num * twoTo (-guess)
  if reached then guess else guess - 1

/-- The floating point number nearest to a quotient of natural numbers, infinite past the largest;
a half goes to the neighbour with the even significand. -/
def nearest (num den : Nat) : Float :=
  if num == 0 then 0.0
  else
    let scale : Int := max (binaryOrder num den - 52) (-1074)
    let significand :=
      if 0 ≤ scale then roundHalfEven num (den * twoTo scale)
      else roundHalfEven (num * twoTo (-scale)) den
    let bits :=
      if significand < significandCount then significand
      else (scale + 1074).toNat * significandCount + significand
    Float.ofBits (min bits (0x7FF * significandCount)).toUInt64

/-- The floating point number nearest to a natural number times a power of two. -/
def ofScaled (negative : Bool) (n : Nat) (exponent : Int) : Float :=
  let size :=
    if 0 ≤ exponent then nearest (n * twoTo exponent) 1 else nearest n (twoTo (-exponent))
  if negative then -size else size

/-- The floating point number nearest to a decimal number; exponents far outside the range of the
format are not expanded. -/
def ofDecimal (coefficient : Nat) (exponent : Int) : Float :=
  let order : Int := exponent + (Nat.toDigits 10 coefficient).length
  if coefficient == 0 then 0.0
  else if 400 < order then nearest (twoTo 1024) 1
  else if order < -400 then 0.0
  else if 0 ≤ exponent then nearest (coefficient * tenTo exponent) 1
  else nearest coefficient (tenTo (-exponent))

/-- The floating point number nearest to an integer, if it is finite. -/
def ofInt? (i : Int) : Option Float :=
  let size := nearest i.natAbs 1
  if size.isInf then none else some (if i < 0 then -size else size)

/-- How an integer compares with a finite number of the given significand and exponent. -/
def compareInt (i : Int) (negative : Bool) (significand : Nat) (exponent : Int) : Ordering :=
  let signed : Int := if negative then -(significand : Int) else significand
  if 0 ≤ exponent then compare i (signed * twoTo exponent)
  else compare (i * twoTo (-exponent)) signed

/-- The integer part of a finite number, rounded toward zero. -/
def truncate (negative : Bool) (significand : Nat) (exponent : Int) : Int :=
  let size : Nat :=
    if 0 ≤ exponent then significand * twoTo exponent else significand / twoTo (-exponent)
  if negative then -(size : Int) else size

end Double

end Descent
