import Descent.Text

/-!
UTF-8.  Decoding refuses overlong forms, surrogates and what lies past the last code point.
-/

set_option autoImplicit false
set_option relaxedAutoImplicit false

namespace Descent.Text

/-- The payload of a continuation byte. -/
private def tail? (b : UInt8) : Option Nat :=
  if 0x80 ≤ b.toNat ∧ b.toNat ≤ 0xBF then some (b.toNat - 0x80) else none

/-- The bytes of a code point. -/
def utf8OfCode (c : Code) : List UInt8 :=
  let n := c.val
  if n < 0x80 then [n.toUInt8]
  else if n < 0x800 then [(0xC0 + n / 0x40).toUInt8, (0x80 + n % 0x40).toUInt8]
  else if n < 0x10000 then
    [(0xE0 + n / 0x1000).toUInt8, (0x80 + n / 0x40 % 0x40).toUInt8, (0x80 + n % 0x40).toUInt8]
  else
    [(0xF0 + n / 0x40000).toUInt8, (0x80 + n / 0x1000 % 0x40).toUInt8,
      (0x80 + n / 0x40 % 0x40).toUInt8, (0x80 + n % 0x40).toUInt8]

/-- The bytes of a text that holds no surrogate. -/
def toUtf8? (t : Text) : Option (List UInt8) :=
  if t.any Code.isSurrogate then none else some (t.flatMap utf8OfCode)

/-- The text of well-formed bytes. -/
def ofUtf8? : List UInt8 → Option Text
  | [] => some []
  | a :: rest =>
    if a.toNat < 0x80 then
      (ofUtf8? rest).map (Code.ofNat a.toNat :: ·)
    else if 0xC2 ≤ a.toNat ∧ a.toNat ≤ 0xDF then
      match rest with
      | b :: rest => do
        let x ← tail? b
        let t ← ofUtf8? rest
        return Code.ofNat ((a.toNat - 0xC0) * 0x40 + x) :: t
      | _ => none
    else if 0xE0 ≤ a.toNat ∧ a.toNat ≤ 0xEF then
      match rest with
      | b :: c :: rest => do
        let x ← tail? b
        let y ← tail? c
        let n := (a.toNat - 0xE0) * 0x1000 + x * 0x40 + y
        if n < 0x800 ∨ (0xD800 ≤ n ∧ n ≤ 0xDFFF) then none
        else (ofUtf8? rest).map (Code.ofNat n :: ·)
      | _ => none
    else if 0xF0 ≤ a.toNat ∧ a.toNat ≤ 0xF4 then
      match rest with
      | b :: c :: d :: rest => do
        let x ← tail? b
        let y ← tail? c
        let z ← tail? d
        let n := (a.toNat - 0xF0) * 0x40000 + x * 0x1000 + y * 0x40 + z
        if n < 0x10000 ∨ 0x110000 ≤ n then none
        else (ofUtf8? rest).map (Code.ofNat n :: ·)
      | _ => none
    else none

end Descent.Text
