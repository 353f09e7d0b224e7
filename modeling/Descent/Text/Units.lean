import Descent.Text

/-!
UTF-16 code units.  Writing a text as units and reading it back joins every high surrogate with a
low one that follows it, and keeps the rest.
-/

set_option autoImplicit false
set_option relaxedAutoImplicit false

namespace Descent.Text

/-- The code units of a code point: one below U+10000, a surrogate pair above. -/
def unitsOfCode (c : Code) : List UInt16 :=
  if c.val < 0x10000 then [c.val.toUInt16]
  else
    let n := c.val - 0x10000
    [(0xD800 + n / 0x400).toUInt16, (0xDC00 + n % 0x400).toUInt16]

/-- The code units of a text; a surrogate is its own unit. -/
def toUnits (t : Text) : List UInt16 :=
  t.flatMap unitsOfCode

/-- The code point of two surrogates. -/
def codeOfPair (high low : Nat) : Code :=
  Code.ofNat (0x10000 + (high - 0xD800) * 0x400 + (low - 0xDC00))

/-- Reads code units; a surrogate without its partner is kept as it is. -/
def ofUnits : List UInt16 → Text
  | [] => []
  | [u] => [Code.ofNat u.toNat]
  | u :: v :: rest =>
    if 0xD800 ≤ u.toNat ∧ u.toNat ≤ 0xDBFF ∧ 0xDC00 ≤ v.toNat ∧ v.toNat ≤ 0xDFFF then
      codeOfPair u.toNat v.toNat :: ofUnits rest
    else
      Code.ofNat u.toNat :: ofUnits (v :: rest)

/-- Joins the surrogate pairs of a text by way of its code units. -/
def joinSurrogates (t : Text) : Text :=
  ofUnits (toUnits t)

end Descent.Text
