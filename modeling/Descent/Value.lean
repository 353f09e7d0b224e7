import Descent.Text

/-!
The values that parsers read and return.
-/

set_option autoImplicit false
set_option relaxedAutoImplicit false

namespace Descent

/-- A value.  A dictionary keeps its entries in the order in which their keys were first given;
`absent` is the result of an optional parser that found nothing. -/
inductive Value where
  | null
  | bool (b : Bool)
  | int (i : Int)
  | float (x : Float)
  | str (t : Text)
  | list (items : List Value)
  | tuple (items : List Value)
  | dict (entries : List (Value × Value))
  | bytes (data : List UInt8)
  | absent

namespace Value

instance : Inhabited Value := ⟨.null⟩

/-- The text of a string, as a value. -/
def ofString (s : String) : Value :=
  .str (Text.ofString s)

/-- The text of one code point, as a value. -/
def ofCode (c : Code) : Value :=
  .str [c]

/-- A byte as an integer. -/
def ofByte (b : UInt8) : Value :=
  .int b.toNat

/-- The pair of two values. -/
def pair (a b : Value) : Value :=
  .tuple [a, b]

end Value

/-- A number that is exact or floating; the truth values count as zero and one. -/
inductive Number where
  | int (i : Int)
  | float (x : Float)

/-- The number that a value is. -/
def Value.number? : Value → Option Number
  | .bool b => some (.int (if b then 1 else 0))
  | .int i => some (.int i)
  | .float x => some (.float x)
  | _ => none

/-- A number as a value. -/
def Number.toValue : Number → Value
  | .int i => .int i
  | .float x => .float x

end Descent
