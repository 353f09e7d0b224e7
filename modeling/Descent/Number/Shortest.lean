import Descent.Number.Double
import Descent.Text

/-!
The shortest decimal that reads back as a given floating point number, and its text.
-/

set_option autoImplicit false
set_option relaxedAutoImplicit false

namespace Descent.Shortest

/-- A decimal number: a coefficient times a power of ten. -/
structure Decimal where
  coefficient : Nat
  exponent : Int
  deriving Repr, DecidableEq

/-- The reals that round to a number: `low` and `high` over `unit`, around `value` over `unit`, the
ends included or not. -/
structure Interval where
  low : Nat
  value : Nat
  high : Nat
  unit : Nat
  closed : Bool

/-- The interval of a positive finite number.  Below a power of two the neighbours are nearer. -/
def Interval.ofParts (significand : Nat) (exponent : Int) : Interval :=
  let up : Nat := twoTo (exponent - 2)
  let below := if significand == Double.significandCount && -1074 < exponent then 1 else 2
  { low := (4 * significand - below) * up
    value := 4 * significand * up
    high := (4 * significand + 2) * up
    unit := twoTo (2 - exponent)
    closed := significand % 2 == 0 }

/-- A quotient lies in the interval. -/
def Interval.holds (i : Interval) (num den : Nat) : Bool :=
  let x := num * i.unit
  if i.closed then i.low * den ≤ x && x ≤ i.high * den else i.low * den < x && x < i.high * den

/-- The exponent of the leading decimal digit of a positive quotient. -/
def leadingExponent (num den : Nat) : Int :=
  if den ≤ num then (Nat.toDigits 10 (num / den)).length - 1
  else -((Nat.toDigits 10 ((den - 1) / num)).length : Int)

/-- The multiple of a power of ten in the interval that is nearest to its value, if there is one; of
two at the same distance the even multiple. -/
def Interval.onGrid? (i : Interval) (exponent : Int) : Option Decimal :=
  let up := tenTo exponent
  let down := tenTo (-exponent)
  let lower := i.value * down / (i.unit * up)
  let inside (k : Nat) : Bool := i.holds (k * up) down
  let gapBelow := i.value * down - lower * i.unit * up
  let gapAbove := (lower + 1) * i.unit * up - i.value * down
  let pickUpper := gapAbove < gapBelow || (gapAbove == gapBelow && lower % 2 == 1)
  match inside lower, inside (lower + 1) with
  | false, false => none
  | true, false => some ⟨lower, exponent⟩
  | false, true => some ⟨lower + 1, exponent⟩
  | true, true => some ⟨if pickUpper then lower + 1 else lower, exponent⟩

/-- A decimal without the zeros at the end of its coefficient; `bound` is at least their number. -/
def Decimal.strip (d : Decimal) : Nat → Decimal
  | 0 => d
  | bound + 1 =>
    if d.coefficient % 10 == 0 then Decimal.strip ⟨d.coefficient / 10, d.exponent + 1⟩ bound else d

/-- The decimal of the fewest digits that rounds to a positive finite number, and of those the
nearest. -/
def ofParts (significand : Nat) (exponent : Int) : Decimal :=
  let i := Interval.ofParts significand exponent
  let leading := leadingExponent i.value i.unit
  let found := (List.range 17).findSome? fun (n : Nat) => i.onGrid? (leading - (n : Int))
  (found.getD ⟨0, 0⟩).strip 17

/-- A decimal written out: positional if its leading digit stands for a power of ten from -4 to 15,
and otherwise with an exponent of at least two digits and a sign. -/
def Decimal.text (d : Decimal) : Text :=
  let digits := Nat.toDigits 10 d.coefficient
  let leading : Int := d.exponent + digits.length - 1
  let chars :=
    if -4 ≤ leading ∧ leading < 16 then
      if 0 ≤ d.exponent then
        digits ++ List.replicate d.exponent.toNat '0' ++ ['.', '0']
      else if 0 ≤ leading then
        digits.take (leading.toNat + 1) ++ '.' :: digits.drop (leading.toNat + 1)
      else
        '0' :: '.' :: (List.replicate (-leading - 1).toNat '0' ++ digits)
    else
      let mantissa :=
        match digits with
        | first :: second :: rest => first :: '.' :: second :: rest
        | short => short
      let size := Nat.toDigits 10 leading.natAbs
      let padded := if size.length < 2 then '0' :: size else size
      mantissa ++ 'e' :: (if leading < 0 then '-' else '+') :: padded
  chars.map Code.ofChar

/-- The text of a floating point number. -/
def text (x : Float) : Text :=
  match Double.ofFloat x with
  | .nan => Text.ofString "nan"
  | .infinite negative => Text.ofString (if negative then "-inf" else "inf")
  | .finite negative significand exponent =>
    (if negative then Text.ofString "-" else []) ++
      if significand == 0 then Text.ofString "0.0" else (ofParts significand exponent).text

end Descent.Shortest
