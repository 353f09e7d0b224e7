import Descent.Input

/-!
Outcomes of parsers: a success with a result and what is left, or a failure with a position and an
explanation.
-/

set_option autoImplicit false
set_option relaxedAutoImplicit false

namespace Descent

/-- What a parser returns. -/
inductive Outcome where
  | success (result : Value) (rest : Input)
  | failure (position : Int) (explanation : Text)

namespace Outcome

/-- The outcomes are of one kind and agree in all their parts. -/
def same : Outcome → Outcome → Bool
  | .success v i, .success w j => v.same w && i.same j
  | .failure p s, .failure q t => p == q && s == t
  | _, _ => false

/-- A short account of an outcome. -/
def summary : Outcome → Text
  | .success v i =>
    Text.ofString "Success(result = " ++ v.shown ++ Text.ofString ", remaining = "
      ++ i.rest.toValue.shown ++ Text.ofString ")"
  | .failure p s =>
    Text.ofString "Failure(fail_pos = " ++ Text.ofInt p ++ Text.ofString ", explanation = " ++ s
      ++ Text.ofString ")"

/-- The full text of an outcome. -/
def shown : Outcome → Text
  | .success v i =>
    Text.ofString "Success(result=" ++ v.shown ++ Text.ofString ", remaining=" ++ i.shown
      ++ Text.ofString ")"
  | .failure p s =>
    Text.ofString "Failure(fail_pos=" ++ Text.ofInt p ++ Text.ofString ", explanation="
      ++ s.quoted ++ Text.ofString ")"

end Outcome

end Descent
