import Descent.Json.Literal

/-!
Named functions on values, which written grammars apply to results, and named tests of elements.
-/

set_option autoImplicit false
set_option relaxedAutoImplicit false

namespace Descent

/-- A named function on values. -/
inductive Action where
  | keep
  | count
  | toInt
  | toFloat
  | toText
  | shown
  | toBool
  | successor
  | negate
  | concat
  | prepend
  | first
  | second
  | reversed
  | join
  | toList
  | toTuple
  | toDict
  | sum
  | isAbsent
  | toNumber
  | unescape
  | chain
  | const (v : Value)
  | element (index : Value)
  | pairAfter (v : Value)
  | plus (v : Value)

namespace Action

/-- Applies a named function. -/
def apply (a : Action) (v : Value) : Except Fault Value :=
  match a with
  | keep => .ok v
  | count => v.count
  | toInt => v.toInt.map .int
  | toFloat => v.toFloat.map .float
  | toText => .ok (.str v.plain)
  | shown => .ok (.str v.shown)
  | toBool => .ok (.bool v.isTruthy)
  | successor => v.add (.int 1)
  | negate => v.negated
  | concat => do (← v.element (.int 0)).add (← v.element (.int 1))
  | prepend => do (Value.list [← v.element (.int 0)]).add (← v.element (.int 1))
  | first => v.element (.int 0)
  | second => v.element (.int 1)
  | reversed => v.reversed
  | join => v.joined
  | toList => v.elements.map .list
  | toTuple => v.elements.map .tuple
  | toDict => v.toDict
  | sum => v.total
  | isAbsent => .ok (match v with | .absent => .bool true | _ => .bool false)
  | toNumber => v.onText Json.toNumber
  | unescape => v.onText fun t => (Json.unescape t).map .str
  | chain => v.chain
  | const w => .ok w
  | element index => v.element index
  | pairAfter w => .ok (Value.pair w v)
  | plus w => v.add w

end Action

/-- A named test of elements. -/
inductive Condition where
  | always
  | never
  | truthy
  | digit
  | same (v : Value)
  | differs (v : Value)
  | among (v : Value)
  | within (low high : Value)

namespace Condition

/-- The order of two texts, or of two numbers; no other values are compared. -/
def atMost (v w : Value) : Except Fault Bool :=
  match v, w with
  | .str s, .str t => .ok (Text.le s t)
  | _, _ =>
    match v.number?, w.number? with
    | some a, some b => .ok (a.le b)
    | _, _ => .error .unsupported

/-- Tests an element. -/
def holds (c : Condition) (v : Value) : Except Fault Bool :=
  match c with
  | always => .ok true
  | never => .ok false
  | truthy => .ok v.isTruthy
  | digit =>
    match v with
    | .str [c] => .ok c.isAsciiDigit
    | _ => .ok false
  | same w => .ok (v.same w)
  | differs w => .ok (!v.same w)
  | among w => w.elements.map v.isAmong
  | within low high => do
    if ← atMost low v then atMost v high else return false

end Condition

end Descent
