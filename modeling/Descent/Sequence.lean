import Descent.Fault
import Descent.Value.Equality

/-!
The sequences that parsers read: texts, lists, tuples and byte strings.  Positions are integers; a
negative one counts from the end.
-/

set_option autoImplicit false
set_option relaxedAutoImplicit false

namespace Descent

/-- A sequence of elements of one kind. -/
inductive Sequence where
  | text (t : Text)
  | list (items : List Value)
  | tuple (items : List Value)
  | bytes (data : List UInt8)

namespace Sequence

/-- How many elements a list leaves in front of a position: a negative position counts from the end,
and one before the start is the start. -/
def offset {α : Type} (items : List α) (position : Int) : Nat :=
  if 0 ≤ position then position.toNat else (position + items.length).toNat

/-- The part of a list between two positions, as far as there is one. -/
def between {α : Type} (start stop : Int) (items : List α) : List α :=
  (items.take (offset items stop)).drop (offset items start)

/-- The part of a list from a position on. -/
def onward {α : Type} (start : Int) (items : List α) : List α :=
  items.drop (offset items start)

/-- The element of a list at a position. -/
def at? {α : Type} (items : List α) (position : Int) : Option α :=
  if 0 ≤ position then items[position.toNat]?
  else if 0 ≤ position + items.length then items[(position + items.length).toNat]?
  else none

/-- The kind of a sequence. -/
def kind : Sequence → SequenceKind
  | .text _ => .text
  | .list _ => .list
  | .tuple _ => .tuple
  | .bytes _ => .bytes

/-- The number of elements. -/
def length : Sequence → Nat
  | .text t => t.length
  | .list items => items.length
  | .tuple items => items.length
  | .bytes data => data.length

/-- The elements as values: the code points of a text as texts, the bytes as integers. -/
def items : Sequence → List Value
  | .text t => t.map Value.ofCode
  | .list items => items
  | .tuple items => items
  | .bytes data => data.map Value.ofByte

/-- The sequence as a value. -/
def toValue : Sequence → Value
  | .text t => .str t
  | .list items => .list items
  | .tuple items => .tuple items
  | .bytes data => .bytes data

/-- The sequence that a value is. -/
def ofValue? : Value → Option Sequence
  | .str t => some (.text t)
  | .list items => some (.list items)
  | .tuple items => some (.tuple items)
  | .bytes data => some (.bytes data)
  | _ => none

/-- The same operation on the elements of any kind of sequence. -/
def mapItems (f : {α : Type} → List α → List α) : Sequence → Sequence
  | .text t => .text (f t)
  | .list items => .list (f items)
  | .tuple items => .tuple (f items)
  | .bytes data => .bytes (f data)

/-- The elements between two positions, as far as there are any. -/
def slice (s : Sequence) (start stop : Int) : Sequence :=
  s.mapItems (between start stop)

/-- The elements from a position on. -/
def sliceFrom (s : Sequence) (start : Int) : Sequence :=
  s.mapItems (onward start)

/-- The element at a position. -/
def get? (s : Sequence) (position : Int) : Option Value :=
  match s with
  | .text t => (at? t position).map Value.ofCode
  | .list items => at? items position
  | .tuple items => at? items position
  | .bytes data => (at? data position).map Value.ofByte

/-- The element at a position; there must be one. -/
def get (s : Sequence) (position : Int) : Except Fault Value :=
  match s.get? position with
  | some v => .ok v
  | none => .error (.noElement s.kind)

/-- The sequences hold the same elements; a text agrees with texts only, the other kinds with each
other. -/
def agrees : Sequence → Sequence → Bool
  | .text s, .text t => s == t
  | .text _, _ => false
  | _, .text _ => false
  | s, t => Value.sameAll s.items t.items

end Sequence

end Descent
