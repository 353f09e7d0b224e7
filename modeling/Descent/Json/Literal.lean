import Descent.Pattern.Replace
import Descent.Text.Units
import Descent.Value.Arithmetic

/-!
The literals of JSON: how numbers and strings are written, and what they denote.
-/

set_option autoImplicit false
set_option relaxedAutoImplicit false

namespace Descent.Json

open Pattern

/-- One of the code points of a string. -/
def isOneOf (s : String) (c : Code) : Bool :=
  (Text.ofString s).contains c

/-- A hexadecimal digit. -/
def isHexDigit (c : Code) : Bool :=
  c.hexValue?.isSome

/-- The digits one to nine. -/
def isPositiveDigit (c : Code) : Bool :=
  0x31 ≤ c.val && c.val ≤ 0x39

/-- Four hexadecimal digits. -/
def fourHexDigits : Pattern :=
  .run isHexDigit 4 (some 4) true

/-- How a number is written: a minus sign or none, digits without a zero in front, and perhaps a
fraction and an exponent. -/
def numberPattern : Pattern :=
  sequence [
    .run (· == Code.ofChar '-') 0 (some 1) true,
    .alt (.one (· == Code.ofChar '0'))
      (.seq (.one isPositiveDigit) (.run Code.isDecimal 0 none true)),
    .rep (.seq (.one (· == Code.ofChar '.')) (.run Code.isDecimal 1 none true)) 0 (some 1) true,
    .rep (sequence [.one (isOneOf "eE"), .run (isOneOf "+-") 0 (some 1) true,
      .run Code.isDecimal 1 none true]) 0 (some 1) true]

/-- A code point that stands for itself in a string. -/
def isPlain (c : Code) : Bool :=
  c != Code.ofChar '"' && c != Code.ofChar '\\' && !(c.val ≤ 0x1F)

/-- How a string is written: between quotation marks, plain code points and escapes. -/
def stringPattern : Pattern :=
  sequence [
    .one (· == Code.ofChar '"'),
    .rep (.alt (.one isPlain)
      (.alt (.seq (.one (· == Code.ofChar '\\')) (.one (isOneOf "\"\\/bfnrt")))
        (sequence [.one (· == Code.ofChar '\\'), .one (· == Code.ofChar 'u'), fourHexDigits])))
      0 none true,
    .one (· == Code.ofChar '"')]

/-- A backslash with what it escapes: the letter u and four hexadecimal digits, which are the first
group, or any code point but a line feed, which is the second. -/
def escapePattern : Pattern :=
  .seq (.one (· == Code.ofChar '\\'))
    (.alt (.seq (.one (· == Code.ofChar 'u')) (.group 1 fourHexDigits))
      (.group 2 (.one (· != Code.ofChar '\n'))))

/-- The code point that a letter after a backslash stands for. -/
def escapedCode? (c : Code) : Option Code :=
  match c.toChar with
  | '"' => some (Code.ofChar '"')
  | '\\' => some (Code.ofChar '\\')
  | '/' => some (Code.ofChar '/')
  | 'b' => some (Code.ofChar '\x08')
  | 'f' => some (Code.ofChar '\x0c')
  | 'n' => some (Code.ofChar '\n')
  | 'r' => some (Code.ofChar '\r')
  | 't' => some (Code.ofChar '\t')
  | _ => none

/-- The number that hexadecimal digits denote. -/
def ofHexDigits (t : Text) : Nat :=
  t.foldl (fun n c => 16 * n + c.hexValue?.getD 0) 0

/-- The text of an escape, by its groups. -/
def escapeText (groups : List (Nat × Text)) : Except Fault Text :=
  match groups.lookup 1 with
  | some digits => .ok [Code.ofNat (ofHexDigits digits)]
  | none =>
    let letter := (groups.lookup 2).getD []
    match letter.head?.bind escapedCode? with
    | some c => .ok [c]
    | none => .error (.noKey (.str letter))

/-- The text of a string literal: what stands between its first and its last code point, with the
escapes replaced and the surrogate pairs joined. -/
def unescape (t : Text) : Except Fault Text :=
  (escapePattern.replace escapeText (Sequence.between 1 (-1) t)).map Text.joinSurrogates

/-- The number of a number literal: floating point if it has a fraction or an exponent. -/
def toNumber (t : Text) : Except Fault Value :=
  if t.any (isOneOf ".eE") then (t.toFloat t.quoted).map .float else (t.toInt t.quoted).map .int

end Descent.Json
