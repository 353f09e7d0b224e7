import Descent.Proofs.Text.Surrogates

/-!
UTF-16 as bytes: the units of a text behind a byte order mark, the two bytes of each in either
order.  The mark tells the order when the bytes are read and is left out, and only that one is.
-/

set_option autoImplicit false
set_option relaxedAutoImplicit false

namespace Descent.Text

/-- Which byte of a unit comes first. -/
inductive ByteOrder where
  | little
  | big

namespace ByteOrder

/-- The bytes of a unit. -/
def bytes (order : ByteOrder) (u : UInt16) : List UInt8 :=
  let low := (u.toNat % 0x100).toUInt8
  let high := (u.toNat / 0x100).toUInt8
  match order with
  | .little => [low, high]
  | .big => [high, low]

/-- The unit of two bytes. -/
def unit (order : ByteOrder) (a b : UInt8) : UInt16 :=
  match order with
  | .little => (a.toNat + 0x100 * b.toNat).toUInt16
  | .big => (b.toNat + 0x100 * a.toNat).toUInt16

/-- The units of bytes; a byte that is left over makes them ill-formed. -/
def units? (order : ByteOrder) : List UInt8 → Option (List UInt16)
  | [] => some []
  | [_] => none
  | a :: b :: rest => (order.units? rest).map (order.unit a b :: ·)

end ByteOrder

/-- The bytes of a text behind a byte order mark; a surrogate is written as its own unit. -/
def toUtf16 (order : ByteOrder) (t : Text) : List UInt8 :=
  (0xFEFF :: toUnits t).flatMap order.bytes

/-- Reads bytes in the order that a mark in front of them tells, or in a given one if there is no
mark; a surrogate without its partner is kept as it is. -/
def ofUtf16? (native : ByteOrder) : List UInt8 → Option Text
  | a :: b :: rest =>
    if a = 0xFF ∧ b = 0xFE then (ByteOrder.little.units? rest).map ofUnits
    else if a = 0xFE ∧ b = 0xFF then (ByteOrder.big.units? rest).map ofUnits
    else (native.units? (a :: b :: rest)).map ofUnits
  | bytes => (native.units? bytes).map ofUnits

private theorem toUInt16_split (u : UInt16) :
    ((u.toNat % 0x100).toUInt8.toNat + 0x100 * (u.toNat / 0x100).toUInt8.toNat).toUInt16 = u := by
  have hlt := u.toNat_lt
  refine UInt16.toNat_inj.mp ?_
  simp only [Nat.toUInt8, Nat.toUInt16, UInt8.toNat_ofNat', UInt16.toNat_ofNat']
  omega

/-- The bytes of a unit are read as that unit. -/
private theorem units?_bytes_append (order : ByteOrder) (u : UInt16) (rest : List UInt8) :
    order.units? (order.bytes u ++ rest) = (order.units? rest).map (u :: ·) := by
  cases order with
  | little =>
    exact congrArg (fun v => (ByteOrder.little.units? rest).map (v :: ·)) (toUInt16_split u)
  | big => exact congrArg (fun v => (ByteOrder.big.units? rest).map (v :: ·)) (toUInt16_split u)

theorem ByteOrder.units?_flatMap_bytes (order : ByteOrder) (units : List UInt16) :
    order.units? (units.flatMap order.bytes) = some units := by
  induction units with
  | nil => rfl
  | cons u units ih => rw [List.flatMap_cons, units?_bytes_append, ih, Option.map_some]

/-- Bytes that a text was written as are read as its units, whatever order they were written in. -/
theorem ofUtf16?_toUtf16 (order native : ByteOrder) (t : Text) :
    ofUtf16? native (toUtf16 order t) = some (joinSurrogates t) := by
  -- The mark alone decides the order, so a mark of the text behind it is a unit like any other.
  have hmark : ofUtf16? native (toUtf16 order t) =
      (order.units? ((toUnits t).flatMap order.bytes)).map ofUnits := by
    cases order <;> rfl
  rw [hmark, order.units?_flatMap_bytes]
  rfl

/-- Writing a text as UTF-16 and reading it back joins, in one pass from left to right, every high
surrogate with a low one right behind it, and keeps everything else.  No such pair is left behind, so
doing it again changes nothing, and it changes a text exactly if it has such a pair. -/
theorem utf16_joins_pairs (t : Text) :
    (∀ order native, ofUtf16? native (toUtf16 order t) = some (joinSurrogates t)) ∧
      joinSurrogates t = joinPairs t ∧
      PairFree (joinSurrogates t) ∧
      joinSurrogates (joinSurrogates t) = joinSurrogates t ∧
      (joinSurrogates t = t ↔ PairFree t) := by
  have hfree : PairFree (joinSurrogates t) := by
    rw [joinSurrogates_eq_joinPairs]
    exact pairFree_joinPairs t
  have hsame : ∀ {u}, PairFree u → joinSurrogates u = u := by
    intro u hu
    rw [joinSurrogates_eq_joinPairs, joinPairs_of_pairFree hu]
  exact ⟨fun order native => ofUtf16?_toUtf16 order native t, joinSurrogates_eq_joinPairs t, hfree,
    hsame hfree, fun h => h ▸ hfree, hsame⟩

example : joinSurrogates [0xFEFF, 0xD83D, 0xD83D, 0xDE00, 0xDE00] =
    [0xFEFF, 0xD83D, 0x1F600, 0xDE00] := by
  decide

end Descent.Text
