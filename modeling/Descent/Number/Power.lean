/-!
Powers of two and of ten with integer exponents, of which the negative ones are left to the
denominator of a quotient.
-/

set_option autoImplicit false
set_option relaxedAutoImplicit false

namespace Descent

/-- A power of two; a negative exponent counts as zero. -/
def twoTo (exponent : Int) : Nat :=
  Nat.pow 2 exponent.toNat

/-- A power of ten; a negative exponent counts as zero. -/
def tenTo (exponent : Int) : Nat :=
  Nat.pow 10 exponent.toNat

end Descent
