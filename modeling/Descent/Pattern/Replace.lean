import Descent.Fault
import Descent.Pattern

/-!
Replacing what a pattern matches.
-/

set_option autoImplicit false
set_option relaxedAutoImplicit false

namespace Descent.Pattern

/-- Replaces the matches of a pattern in a text from the left, each by a text that depends on what
the groups have matched.  What lies between matches is kept, and a match of nothing is passed over. -/
def replace (pattern : Pattern) (f : List (Nat × Text) → Except Fault Text) (t : Text) :
    Except Fault Text :=
  match t with
  | [] => .ok []
  | c :: rest =>
    match pattern.matchAt some (Place.start (c :: rest)) with
    | some q =>
      if q.ahead.length < rest.length + 1 then do
        let new ← f q.groups
        return new ++ (← replace pattern f q.ahead)
      else (replace pattern f rest).map (c :: ·)
    | none => (replace pattern f rest).map (c :: ·)
termination_by t.length

end Descent.Pattern
