import Descent.Number.Double
import Descent.Text.Digit
import Descent.Text.Space

/-!
Reading integers and floating point numbers.  The digits may be those of any script; one low line
may stand between two digits; white space may stand around the whole.
-/

set_option autoImplicit false
set_option relaxedAutoImplicit false

namespace Descent.Numeral

/-- Why a text is no integer. -/
inductive Refusal where
  | malformed
  | tooLong (digits : Nat)
  deriving Repr, DecidableEq

/-- The most digits that an integer is read from. -/
def digitLimit : Nat := 4300

/-- White space that may stand around a number: all but the information separators of ASCII. -/
def isPadding (c : Code) : Bool :=
  c.isSpace && !(0x1C ≤ c.val && c.val ≤ 0x1F)

/-- Splits off a sign: whether it is a minus, and the rest. -/
def splitSign : Text → Bool × Text
  | [] => (false, [])
  | c :: rest =>
    if c == Code.ofChar '-' then (true, rest)
    else if c == Code.ofChar '+' then (false, rest)
    else (false, c :: rest)

/-- The longest run of digits at the start, with single low lines between them, and the rest; a run
that is empty or has a low line without a digit on each side is refused. -/
def digitRun? : Text → Option (List Nat × Text)
  | [] => none
  | c :: rest =>
    match c.decimalValue? with
    | none => none
    | some d =>
      match rest with
      | [] => some ([d], [])
      | e :: after =>
        if e == Code.ofChar '_' then (digitRun? after).map fun (ds, t) => (d :: ds, t)
        else if e.isDecimal then (digitRun? (e :: after)).map fun (ds, t) => (d :: ds, t)
        else some ([d], e :: after)

/-- The number that decimal digits denote. -/
def ofDigits (digits : List Nat) : Nat :=
  digits.foldl (fun n d => 10 * n + d) 0

/-- Reads an integer. -/
def readInt (t : Text) : Except Refusal Int :=
  let (negative, body) := splitSign (t.dropWhile isPadding)
  match digitRun? body with
  | none => .error .malformed
  | some (digits, rest) =>
    if digitLimit < digits.length then .error (.tooLong digits.length)
    else if (rest.dropWhile isPadding).isEmpty then
      .ok (if negative then -(ofDigits digits : Int) else ofDigits digits)
    else .error .malformed

/-- Takes out the low lines, each of which must have a digit on either side. -/
def dropLowLines (afterDigit : Bool) : Text → Option Text
  | [] => some []
  | c :: rest =>
    if c == Code.ofChar '_' then
      if afterDigit && (rest.head?.map Code.isDecimal).getD false then dropLowLines false rest
      else none
    else (dropLowLines c.isDecimal rest).map (c :: ·)

/-- The digits at the start of a text, by value, and the rest. -/
def spanDigits : Text → List Nat × Text
  | [] => ([], [])
  | c :: rest =>
    match c.decimalValue? with
    | none => ([], c :: rest)
    | some d =>
      let (ds, t) := spanDigits rest
      (d :: ds, t)

/-- The exponent that ends a number; an empty text is the exponent zero. -/
def readExponent? : Text → Option Int
  | [] => some 0
  | c :: rest =>
    if c == Code.ofChar 'e' || c == Code.ofChar 'E' then
      let (negative, body) := splitSign rest
      match spanDigits body with
      | ([], _) => none
      | (digits, []) => some (if negative then -(ofDigits digits : Int) else ofDigits digits)
      | (_, _ :: _) => none
    else none

/-- An unsigned number: digits with at most one point among them, and an exponent. -/
def readUnsigned? (t : Text) : Option Float :=
  let (whole, afterWhole) := spanDigits t
  let (fraction, rest) :=
    match afterWhole with
    | c :: after => if c == Code.ofChar '.' then spanDigits after else ([], c :: after)
    | [] => ([], [])
  if whole.isEmpty && fraction.isEmpty then none
  else (readExponent? rest).map fun e =>
    Double.ofDecimal (ofDigits (whole ++ fraction)) (e - fraction.length)

/-- The names of infinity and of what is not a number, in any case. -/
def readName? (t : Text) : Option Float :=
  let name := t.map Code.asciiLower
  if name == Text.ofString "inf" || name == Text.ofString "infinity" then some (1.0 / 0.0)
  else if name == Text.ofString "nan" then some (0.0 / 0.0)
  else none

/-- Reads a floating point number. -/
def readFloat? (t : Text) : Option Float :=
  let trimmed := ((t.dropWhile isPadding).reverse.dropWhile isPadding).reverse
  match dropLowLines false trimmed with
  | none => none
  | some plain =>
    let (negative, body) := splitSign plain
    let size := (readName? body).orElse fun _ => readUnsigned? body
    size.map fun x => if negative then -x else x

end Descent.Numeral
