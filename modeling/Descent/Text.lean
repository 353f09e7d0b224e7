/-!
Texts as lists of code points.  A text may hold a surrogate that has no partner, so it is not a
`String`; every `String` is the text of its characters.
-/

set_option autoImplicit false
set_option relaxedAutoImplicit false

namespace Descent

/-- A Unicode code point, surrogates included. -/
abbrev Code := Fin 0x110000

/-- A sequence of code points. -/
abbrev Text := List Code

namespace Code

/-- The code point of a character. -/
def ofChar (c : Char) : Code :=
  ⟨c.toNat, by
    have h := c.valid
    simp only [UInt32.isValidChar, Nat.isValidChar] at h
    show c.val.toNat < 0x110000
    omega⟩

/-- The character at a code point; a surrogate, which is no character, gives the null character. -/
def toChar (c : Code) : Char :=
  Char.ofNat c.val

/-- The code point of a number; one past the last code point gives code point zero. -/
def ofNat (n : Nat) : Code :=
  if h : n < 0x110000 then ⟨n, h⟩ else 0

theorem ofNat_val (c : Code) : ofNat c.val = c := by
  rw [ofNat, dif_pos c.isLt]

/-- The first half of a surrogate pair. -/
def isHighSurrogate (c : Code) : Bool :=
  0xD800 ≤ c.val && c.val ≤ 0xDBFF

/-- The second half of a surrogate pair. -/
def isLowSurrogate (c : Code) : Bool :=
  0xDC00 ≤ c.val && c.val ≤ 0xDFFF

/-- Either half of a surrogate pair. -/
def isSurrogate (c : Code) : Bool :=
  c.isHighSurrogate || c.isLowSurrogate

/-- The decimal digits, the ASCII ones only. -/
def isAsciiDigit (c : Code) : Bool :=
  0x30 ≤ c.val && c.val ≤ 0x39

/-- The ASCII letters. -/
def isAsciiLetter (c : Code) : Bool :=
  (0x41 ≤ c.val && c.val ≤ 0x5A) || (0x61 ≤ c.val && c.val ≤ 0x7A)

/-- The small letter of an ASCII capital; every other code point stays. -/
def asciiLower (c : Code) : Code :=
  if 0x41 ≤ c.val ∧ c.val ≤ 0x5A then ofNat (c.val + 0x20) else c

/-- The value of a hexadecimal digit, in either case. -/
def hexValue? (c : Code) : Option Nat :=
  if 0x30 ≤ c.val ∧ c.val ≤ 0x39 then some (c.val - 0x30)
  else if 0x41 ≤ c.val ∧ c.val ≤ 0x46 then some (c.val - 0x37)
  else if 0x61 ≤ c.val ∧ c.val ≤ 0x66 then some (c.val - 0x57)
  else none

end Code

namespace Text

/-- The code points of a string. -/
def ofString (s : String) : Text :=
  s.toList.map Code.ofChar

instance : Coe String Text := ⟨ofString⟩

/-- The string of a text that holds no surrogate. -/
def toString? (t : Text) : Option String :=
  if t.any Code.isSurrogate then none else some (String.ofList (t.map Code.toChar))

/-- The decimal digits of a natural number. -/
def ofNat (n : Nat) : Text :=
  ofString (String.ofList (Nat.toDigits 10 n))

/-- The decimal digits of an integer, after a minus sign if it is negative. -/
def ofInt (i : Int) : Text :=
  if i < 0 then ofString "-" ++ ofNat i.natAbs else ofNat i.natAbs

/-- Texts joined by a separator. -/
def join (separator : Text) (parts : List Text) : Text :=
  separator.intercalate parts

/-- The small hexadecimal digits of a number, with zeros in front up to a width. -/
def hex (width n : Nat) : Text :=
  let digits := Nat.toDigits 16 n
  ofString (String.ofList (List.replicate (width - digits.length) '0' ++ digits))

/-- One of the texts comes first in the order of code points, a shorter one before its extensions. -/
def le : Text → Text → Bool
  | [], _ => true
  | _ :: _, [] => false
  | a :: s, b :: t => a.val < b.val || (a.val == b.val && le s t)

/-- The text starts with another one. -/
def startsWith (t start : Text) : Bool :=
  start.isPrefixOf t

end Text

end Descent
