import Descent.Sequence

/-!
The elements of values: how many there are, which stands where, and the other forms that the same
elements can take.
-/

set_option autoImplicit false
set_option relaxedAutoImplicit false

namespace Descent.Value

/-- Applies a function to a text; no other value is taken. -/
def onText (v : Value) (f : Text → Except Fault Value) : Except Fault Value :=
  match v with
  | .str t => f t
  | _ => .error .unsupported

/-- The elements of a sequence, or the keys of a dictionary. -/
def elements : Value → Except Fault (List Value)
  | .dict entries => .ok (entries.map Prod.fst)
  | v =>
    match Sequence.ofValue? v with
    | some s => .ok s.items
    | none => .error .unsupported

/-- The number of elements. -/
def count (v : Value) : Except Fault Value :=
  v.elements.map fun vs => .int vs.length

/-- The integer that a position is given by. -/
def position? : Value → Option Int
  | .int i => some i
  | .bool b => some (if b then 1 else 0)
  | _ => none

/-- The value can be the key of a dictionary: no list or dictionary is in it. -/
def isKey : Value → Bool
  | .list _ => false
  | .dict _ => false
  | .tuple items => allKeys items
  | _ => true
where
  /-- All values can be keys. -/
  allKeys : List Value → Bool
    | [] => true
    | v :: rest => isKey v && allKeys rest

/-- The element at a position of a sequence, or the value of a key of a dictionary. -/
def element (v index : Value) : Except Fault Value :=
  match v with
  | .dict entries =>
    if index.isKey then
      match entries.find? fun e => e.1.same index with
      | some e => .ok e.2
      | none => .error (.noKey index)
    else .error .unsupported
  | _ =>
    match Sequence.ofValue? v, index.position? with
    | some s, some i => s.get i
    | _, _ => .error .unsupported

/-- The elements of a sequence in the opposite order. -/
def reversed (v : Value) : Except Fault Value :=
  match Sequence.ofValue? v with
  | some s => .ok (s.mapItems List.reverse).toValue
  | none => .error .unsupported

/-- The texts of a list, one after the other. -/
def joined (v : Value) : Except Fault Value := do
  let parts ← (← v.elements).mapM fun
    | .str t => Except.ok t
    | _ => .error .unsupported
  return .str parts.flatten

/-- The two parts of the element of a list at an index. -/
def entry (index : Nat) (v : Value) : Except Fault (Value × Value) := do
  match ← v.elements with
  | [key, value] => if key.isKey then return (key, value) else throw .unsupported
  | parts => throw (.notAPair index parts.length)

/-- A dictionary made of the pairs of a list. -/
def toDict (v : Value) : Except Fault Value :=
  match v with
  | .dict entries => .ok (.dict entries)
  | _ => do
    let parts ← v.elements
    let entries ← parts.zipIdx.mapM fun (part, index) => entry index part
    return ofEntries entries

end Descent.Value
