import Descent.Sequence

/-!
Inputs: a sequence with the position from which it is still to be read.  The position may be any
integer.
-/

set_option autoImplicit false
set_option relaxedAutoImplicit false

namespace Descent

/-- What a parser reads, and whether it is to leave a trace. -/
structure Input where
  data : Sequence
  position : Int := 0
  traced : Bool := false

namespace Input

/-- The input some elements further. -/
def advance (i : Input) (n : Int) : Input :=
  { i with position := i.position + n }

/-- Nothing is left to read. -/
def atEnd (i : Input) : Bool :=
  (i.data.length : Int) ≤ i.position

/-- What is left to read. -/
def rest (i : Input) : Sequence :=
  i.data.sliceFrom i.position

/-- How much is left to read. -/
def left (i : Input) : Nat :=
  ((i.data.length : Int) - i.position).toNat

/-- The next element; there must be one. -/
def next (i : Input) : Except Fault Value :=
  i.data.get i.position

/-- The next elements, as many as given if there are so many. -/
def window (i : Input) (n : Nat) : Sequence :=
  i.data.slice i.position (i.position + n)

/-- The elements between two positions of the same data. -/
def consumed (i rest : Input) : Sequence :=
  i.data.slice i.position rest.position

/-- The inputs have the same data, position and trace setting. -/
def same (i j : Input) : Bool :=
  i.data.toValue.same j.data.toValue && i.position == j.position && i.traced == j.traced

/-- The text of an input. -/
def shown (i : Input) : Text :=
  Text.ofString "Input(data=" ++ i.data.toValue.shown ++ Text.ofString ", position="
    ++ Text.ofInt i.position ++ Text.ofString ", is_debug=" ++ (Value.bool i.traced).shown
    ++ Text.ofString ")"

end Input

/-- An element in a trace: a single code point by its number in hexadecimal digits, any other value
by its text. -/
def describeElement (v : Value) : Text :=
  match v with
  | .str [c] => Text.ofString "0x" ++ Text.hex 2 c.val
  | _ => v.shown

/-- The next element in a trace. -/
def describeNext (i : Input) : Except Fault Text :=
  if i.atEnd then .ok (Text.ofString "EOF") else i.next.map describeElement

end Descent
