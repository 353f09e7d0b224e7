import Descent.Value.Printer

/-!
What stops a run.  A fault is not a failure: no parser turns it into a result.
-/

set_option autoImplicit false
set_option relaxedAutoImplicit false

namespace Descent

/-- The kinds of sequences that have elements by position. -/
inductive SequenceKind where
  | text
  | list
  | tuple
  | bytes
  deriving Repr, DecidableEq

/-- The repetitions that a round without progress would repeat forever. -/
inductive Repetition where
  | many
  | separated
  deriving Repr, DecidableEq

/-- Why a number is no integer. -/
inductive NotIntegral where
  | nan
  | infinite
  deriving Repr, DecidableEq

/-- The causes for which a run, or the building of a grammar, stops without an outcome. -/
inductive Fault where
  /-- A repeated parser succeeded and left as much to read as before. -/
  | endlessRepetition (repetition : Repetition)
  /-- A cell was entered that holds no grammar. -/
  | undefinedCell
  /-- A cell was defined that holds a grammar. -/
  | filledCell
  /-- More cells were entered, one inside the other, than the limit allows. -/
  | tooDeep
  /-- An operation got a value that it does not take. -/
  | unsupported
  /-- A pattern is malformed. -/
  | badPattern
  /-- A sequence has no element at a position. -/
  | noElement (kind : SequenceKind)
  /-- A dictionary or a table has no such key. -/
  | noKey (key : Value)
  /-- A quoted text is no integer. -/
  | badInteger (quoted : Text)
  /-- An integer has more digits than are read. -/
  | tooManyDigits (digits : Nat)
  /-- A quoted text is no floating point number. -/
  | badFloat (quoted : Text)
  /-- A floating point number has no integer part. -/
  | notIntegral (reason : NotIntegral)
  /-- An integer is past the largest floating point number. -/
  | integerTooLarge
  /-- An element from which a dictionary entry is made does not have two parts. -/
  | notAPair (index length : Nat)
  /-- A number was divided by zero; the numbers were integers or not. -/
  | divisionByZero (integers : Bool)

namespace Fault

/-- The longest part of a quoted text that the message of `badInteger` shows. -/
def shownWidth : Nat := 200

/-- What a fault says.  Some causes have nothing to add. -/
def message? : Fault → Option Text
  | .endlessRepetition .many => some (Text.ofString "pmany parser loops infinitely!")
  | .endlessRepetition .separated => some (Text.ofString "psepby parser loops infinitely!")
  | .undefinedCell => some (Text.ofString "recursive parser was used before being defined")
  | .filledCell => some (Text.ofString "parser cell is already defined")
  | .tooDeep => none
  | .unsupported => none
  | .badPattern => none
  | .noElement .text => some (Text.ofString "string index out of range")
  | .noElement .list => some (Text.ofString "list index out of range")
  | .noElement .tuple => some (Text.ofString "tuple index out of range")
  | .noElement .bytes => some (Text.ofString "index out of range")
  | .noKey key => some key.shown
  | .badInteger quoted =>
    some (Text.ofString "invalid literal for int() with base 10: " ++ quoted.take shownWidth)
  | .tooManyDigits digits =>
    some (Text.ofString "Exceeds the limit (4300 digits) for integer string conversion: value has "
      ++ Text.ofNat digits
      ++ Text.ofString " digits; use sys.set_int_max_str_digits() to increase the limit")
  | .badFloat quoted => some (Text.ofString "could not convert string to float: " ++ quoted)
  | .notIntegral .nan => some (Text.ofString "cannot convert float NaN to integer")
  | .notIntegral .infinite => some (Text.ofString "cannot convert float infinity to integer")
  | .integerTooLarge => some (Text.ofString "int too large to convert to float")
  | .notAPair index length =>
    some (Text.ofString "dictionary update sequence element #" ++ Text.ofNat index
      ++ Text.ofString " has length " ++ Text.ofNat length ++ Text.ofString "; 2 is required")
  | .divisionByZero true => some (Text.ofString "integer division or modulo by zero")
  | .divisionByZero false => some (Text.ofString "float floor division by zero")

end Fault

end Descent
