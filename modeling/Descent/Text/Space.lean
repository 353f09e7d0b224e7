import Descent.Text.Ranges

/-!
White space: the space characters of Unicode 14 and the separators among the control characters.
-/

set_option autoImplicit false
set_option relaxedAutoImplicit false

namespace Descent.Code

/-- Ranges of the white space. -/
def spaceRanges : List (Nat × Nat) := [
  (0x9, 0xD), (0x1C, 0x20), (0x85, 0x85), (0xA0, 0xA0), (0x1680, 0x1680), (0x2000, 0x200A),
  (0x2028, 0x2029), (0x202F, 0x202F), (0x205F, 0x205F), (0x3000, 0x3000)]

/-- A space, tab, line end or separator of any script. -/
def isSpace (c : Code) : Bool :=
  covers spaceRanges c.val

/-- The white space of ASCII without the information separators. -/
def isAsciiSpace (c : Code) : Bool :=
  (0x9 ≤ c.val && c.val ≤ 0xD) || c.val == 0x20

/-- A code point after which a line ends. -/
def isLineEnd (c : Code) : Bool :=
  (0xA ≤ c.val && c.val ≤ 0xD) || (0x1C ≤ c.val && c.val ≤ 0x1E) || c.val == 0x85
    || c.val == 0x2028 || c.val == 0x2029

end Descent.Code
