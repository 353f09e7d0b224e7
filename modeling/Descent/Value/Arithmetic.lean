import Descent.Number.Numeral
import Descent.Value.Elements

/-!
Numbers made of values, and arithmetic on values.  An integer that meets a floating point number is
rounded to one first.
-/

set_option autoImplicit false
set_option relaxedAutoImplicit false

namespace Descent

/-- Reads an integer; a text that is none is shown quoted. -/
def Text.toInt (t quoted : Text) : Except Fault Int :=
  match Numeral.readInt t with
  | .ok i => .ok i
  | .error .malformed => .error (.badInteger quoted)
  | .error (.tooLong digits) => .error (.tooManyDigits digits)

/-- Reads a floating point number; a text that is none is shown quoted. -/
def Text.toFloat (t quoted : Text) : Except Fault Float :=
  match Numeral.readFloat? t with
  | some x => .ok x
  | none => .error (.badFloat quoted)

namespace Number

/-- The number as a floating point number. -/
def toFloat : Number → Except Fault Float
  | .float x => .ok x
  | .int i =>
    match Double.ofInt? i with
    | some x => .ok x
    | none => .error .integerTooLarge

/-- An operation on two numbers: on integers if both are, else on floating point numbers. -/
def combine (onInt : Int → Int → Int) (onFloat : Float → Float → Float) :
    Number → Number → Except Fault Number
  | .int a, .int b => .ok (.int (onInt a b))
  | a, b => do
    let x ← a.toFloat
    let y ← b.toFloat
    return .float (onFloat x y)

/-- The quotient of two floating point numbers rounded down.  The first number less its exact
remainder is divided by the second; what that gives is rounded to the integer that it is nearest to,
since only the rounding of the division keeps it from being one. -/
def floorQuotient (a b : Float) : Float :=
  match Double.ofFloat a, Double.ofFloat b with
  | .finite an as ae, .finite bn bs be =>
    let common := min ae be
    let left := as * twoTo (ae - common) % (bs * twoTo (be - common))
    let whole := (a - Double.ofScaled an left common) / b
    let quotient := if left == 0 || an == bn then whole else whole - 1.0
    if quotient == 0.0 then (if an == bn then 0.0 else -0.0)
    else
      let below := quotient.floor
      if 0.5 < quotient - below then below + 1.0 else below
  | .finite an as _, .infinite bn =>
    if an == bn then 0.0 else if as == 0 then -0.0 else -1.0
  | _, _ => 0.0 / 0.0

/-- The quotient rounded down. -/
def floorDiv (a b : Number) : Except Fault Number :=
  match a, b with
  | .int x, .int y => if y == 0 then .error (.divisionByZero true) else .ok (.int (Int.fdiv x y))
  | _, _ => do
    let x ← a.toFloat
    let y ← b.toFloat
    if y == 0.0 then throw (.divisionByZero false) else return .float (floorQuotient x y)

/-- The number with the other sign. -/
def negate : Number → Number
  | .int i => .int (-i)
  | .float x => .float (-x)

end Number

namespace Value

/-- The text whose digits a byte string spells; bytes outside ASCII are no digits. -/
def digitsOfBytes (data : List UInt8) : Text :=
  data.map fun b => if b.toNat < 0x80 then Code.ofNat b.toNat else Code.ofChar '?'

/-- The integer that a value is, is rounded to, or spells. -/
def toInt : Value → Except Fault Int
  | .bool b => .ok (if b then 1 else 0)
  | .int i => .ok i
  | .float x =>
    match Double.ofFloat x with
    | .nan => .error (.notIntegral .nan)
    | .infinite _ => .error (.notIntegral .infinite)
    | .finite negative significand exponent =>
      .ok (Double.truncate negative significand exponent)
  | .str t => t.toInt t.quoted
  | .bytes data => (digitsOfBytes data).toInt (Text.quotedBytes data)
  | _ => .error .unsupported

/-- The floating point number that a value is, is rounded to, or spells. -/
def toFloat (v : Value) : Except Fault Float :=
  match v with
  | .str t => t.toFloat t.quoted
  | .bytes data => (digitsOfBytes data).toFloat (Text.quotedBytes data)
  | _ =>
    match v.number? with
    | some n => n.toFloat
    | none => .error .unsupported

/-- The sum of two numbers, or two sequences of one kind one after the other. -/
def add (v w : Value) : Except Fault Value :=
  match v, w with
  | .str s, .str t => .ok (.str (s ++ t))
  | .list s, .list t => .ok (.list (s ++ t))
  | .tuple s, .tuple t => .ok (.tuple (s ++ t))
  | .bytes s, .bytes t => .ok (.bytes (s ++ t))
  | _, _ =>
    match v.number?, w.number? with
    | some a, some b => (a.combine (· + ·) (· + ·) b).map Number.toValue
    | _, _ => .error .unsupported

/-- The difference of two numbers. -/
def subtract (v w : Value) : Except Fault Value :=
  match v.number?, w.number? with
  | some a, some b => (a.combine (· - ·) (· - ·) b).map Number.toValue
  | _, _ => .error .unsupported

/-- A sequence some number of times; a negative number counts as zero. -/
def replicate (s : Sequence) (n : Int) : Value :=
  (s.mapItems fun items => (List.replicate n.toNat items).flatten).toValue

/-- The product of two numbers, or a sequence some number of times. -/
def multiply (v w : Value) : Except Fault Value :=
  match v.number?, w.number? with
  | some a, some b => (a.combine (· * ·) (· * ·) b).map Number.toValue
  | _, _ =>
    match Sequence.ofValue? v, w.position?, Sequence.ofValue? w, v.position? with
    | some s, some n, _, _ => .ok (replicate s n)
    | _, _, some s, some n => .ok (replicate s n)
    | _, _, _, _ => .error .unsupported

/-- The quotient of two numbers, rounded down. -/
def floorDivide (v w : Value) : Except Fault Value :=
  match v.number?, w.number? with
  | some a, some b => (a.floorDiv b).map Number.toValue
  | _, _ => .error .unsupported

/-- The number with the other sign. -/
def negated (v : Value) : Except Fault Value :=
  match v.number? with
  | some n => .ok n.negate.toValue
  | none => .error .unsupported

/-- The sum of the elements. -/
def total (v : Value) : Except Fault Value := do
  (← v.elements).foldlM add (.int 0)

/-- Applies one operation of a chain to what has been computed so far. -/
def applyOperation (v operation : Value) : Except Fault Value := do
  match ← operation.elements with
  | [sign, w] =>
    if sign.same (ofString "+") then v.add w
    else if sign.same (ofString "-") then v.subtract w
    else if sign.same (ofString "*") then v.multiply w
    else v.floorDivide w
  | _ => throw .unsupported

/-- The value of a chain: a number and a list of operations, applied from the left. -/
def chain (v : Value) : Except Fault Value := do
  let start ← v.element (.int 0)
  let operations ← v.element (.int 1)
  (← operations.elements).foldlM applyOperation start

end Value

end Descent
