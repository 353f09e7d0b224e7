import Descent.Number.Double
import Descent.Value

/-!
When two values are the same.  Numbers are the same if they denote the same number, whether exact
or floating; a list is never the same as a tuple; the order of a dictionary does not count.
-/

set_option autoImplicit false
set_option relaxedAutoImplicit false

namespace Descent

namespace Number

/-- Two numbers denote the same number; what is not a number is not the same as anything. -/
def same : Number → Number → Bool
  | .int a, .int b => a == b
  | .float x, .float y => x == y
  | .int a, .float y | .float y, .int a =>
    match Double.ofFloat y with
    | .finite negative significand exponent =>
      Double.compareInt a negative significand exponent == .eq
    | _ => false

/-- One number is at most the other. -/
def le : Number → Number → Bool
  | .int a, .int b => a ≤ b
  | .float x, .float y => x ≤ y
  | .int a, .float y =>
    match Double.ofFloat y with
    | .finite negative significand exponent =>
      Double.compareInt a negative significand exponent != .gt
    | .infinite negative => !negative
    | .nan => false
  | .float x, .int b =>
    match Double.ofFloat x with
    | .finite negative significand exponent =>
      Double.compareInt b negative significand exponent != .lt
    | .infinite negative => negative
    | .nan => false

/-- The number is not zero. -/
def isNonzero : Number → Bool
  | .int i => i != 0
  | .float x => !(x == 0.0)

end Number

namespace Value

mutual

/-- The two values are the same. -/
def same : Value → Value → Bool
  | .null, b => match b with | .null => true | _ => false
  | .absent, b => match b with | .absent => true | _ => false
  | .str s, b => match b with | .str t => s == t | _ => false
  | .bytes s, b => match b with | .bytes t => s == t | _ => false
  | .list s, b => match b with | .list t => sameAll s t | _ => false
  | .tuple s, b => match b with | .tuple t => sameAll s t | _ => false
  | .dict s, b => match b with | .dict t => s.length == t.length && sameEntries s t | _ => false
  | .bool a, b => match b.number? with | some y => (Number.int (if a then 1 else 0)).same y | none => false
  | .int a, b => match b.number? with | some y => (Number.int a).same y | none => false
  | .float a, b => match b.number? with | some y => (Number.float a).same y | none => false

/-- The lists hold the same values in the same order. -/
def sameAll : List Value → List Value → Bool
  | [], t => t.isEmpty
  | a :: s, t =>
    match t with
    | [] => false
    | b :: t => same a b && sameAll s t

/-- Every entry of the first dictionary is an entry of the second. -/
def sameEntries : List (Value × Value) → List (Value × Value) → Bool
  | [], _ => true
  | (k, v) :: rest, t => t.any (fun e => same k e.1 && same v e.2) && sameEntries rest t

end

/-- Some value of the list is the same as the given one. -/
def isAmong (v : Value) (items : List Value) : Bool :=
  items.any (same v)

/-- Sets an entry of a dictionary: the value of a key that is there is replaced, a new key comes
last. -/
def setEntry (key value : Value) : List (Value × Value) → List (Value × Value)
  | [] => [(key, value)]
  | (k, v) :: rest =>
    if same k key then (k, value) :: rest else (k, v) :: setEntry key value rest

/-- The dictionary of entries in order: a repeated key keeps its first place and takes its last
value. -/
def ofEntries (entries : List (Value × Value)) : Value :=
  .dict (entries.foldl (fun d e => setEntry e.1 e.2 d) [])

/-- The value counts as true: all but zero, nothing, absence and what is empty. -/
def isTruthy : Value → Bool
  | .null => false
  | .absent => false
  | .bool b => b
  | .int i => i != 0
  | .float x => (Number.float x).isNonzero
  | .str t => !t.isEmpty
  | .list items => !items.isEmpty
  | .tuple items => !items.isEmpty
  | .dict entries => !entries.isEmpty
  | .bytes data => !data.isEmpty

end Value

end Descent
