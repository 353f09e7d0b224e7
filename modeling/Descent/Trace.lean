import Descent.Input

/-!
Traces: one event when a labelled parser starts, and one when it ends with an outcome.
-/

set_option autoImplicit false
set_option relaxedAutoImplicit false

namespace Descent

/-- An event of a trace.  `next` describes the element at which the parser stands. -/
inductive Event where
  | attempt (label : Text) (input : Input) (next : Text)
  | success (label : Text) (input rest : Input) (next : Text)
  | failure (label : Text) (input : Input) (explanation next : Text)

/-- A sequence inside a line of a trace: a text as it is, any other by its text as a value. -/
def Sequence.plain (s : Sequence) : Text :=
  s.toValue.plain

/-- The line of an event. -/
def Event.line : Event → Text
  | .attempt label input next =>
    Text.ofString "[attempting: " ++ label ++ Text.ofString " on \"" ++ input.rest.plain
      ++ Text.ofString "\", next char: " ++ next ++ Text.ofString "]"
  | .success label input rest next =>
    Text.ofString "[success: " ++ label ++ Text.ofString ", consumed: \""
      ++ (input.consumed rest).plain ++ Text.ofString "\", remaining: \"" ++ rest.rest.plain
      ++ Text.ofString "\", next char: " ++ next ++ Text.ofString "]"
  | .failure label input explanation next =>
    Text.ofString "[failure at pos " ++ Text.ofInt input.position ++ Text.ofString " in rule ["
      ++ explanation ++ Text.ofString "]: " ++ label ++ Text.ofString ", remaining input: \""
      ++ input.rest.plain ++ Text.ofString "\", next char: " ++ next ++ Text.ofString "]"

/-- A sequence of events. -/
abbrev Trace := List Event

/-- The lines of a trace, each with a line feed. -/
def Trace.text (trace : Trace) : Text :=
  trace.flatMap fun e => e.line ++ [Code.ofChar '\n']

end Descent
