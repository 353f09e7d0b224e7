import Descent.Text

/-!
Classes of code points given by ascending ranges.
-/

set_option autoImplicit false
set_option relaxedAutoImplicit false

namespace Descent.Code

/-- Some range of an ascending list holds the number; the search stops at the first range above it. -/
def covers : List (Nat × Nat) → Nat → Bool
  | [], _ => false
  | (low, high) :: rest, n => if n < low then false else if n ≤ high then true else covers rest n

end Descent.Code
