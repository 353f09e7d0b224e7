import Descent.Text.Space
import Descent.Text.Word

/-!
Patterns that match the start of a text, and how they match.

A pattern tries its ways of matching in a fixed order: the first branch before the second, the
longer repetition before the shorter one or, if it is lazy, the other way round.  The answer is the
first way with which what follows matches too, so the matcher takes the rest of the work as a
function and the order of the attempts is the order of its calls.
-/

set_option autoImplicit false
set_option relaxedAutoImplicit false

namespace Descent

/-- Conditions on a place in a text that consume nothing. -/
inductive Anchor where
  /-- Nothing comes before. -/
  | textStart
  /-- Nothing comes after. -/
  | textEnd
  /-- Nothing comes after but perhaps one line feed. -/
  | lastLineEnd
  /-- Nothing or a line feed comes before. -/
  | lineStart
  /-- Nothing or a line feed comes after. -/
  | lineEnd
  /-- A word character is on exactly one side. -/
  | wordEdge (isWord : Code → Bool)
  /-- The text is not empty, and a word character is on both sides or on neither. -/
  | notWordEdge (isWord : Code → Bool)

/-- A pattern. -/
inductive Pattern where
  | empty
  /-- One code point of a class. -/
  | one (holds : Code → Bool)
  /-- Code points of a class, a number of them between two bounds. -/
  | run (holds : Code → Bool) (least : Nat) (most : Option Nat) (greedy : Bool)
  | seq (first second : Pattern)
  | alt (first second : Pattern)
  /-- A number of matches between two bounds. -/
  | rep (body : Pattern) (least : Nat) (most : Option Nat) (greedy : Bool)
  /-- A numbered group: what it matches is remembered. -/
  | group (number : Nat) (body : Pattern)
  /-- What a group has matched, once more. -/
  | back (number : Nat) (fold : Code → Code)
  | anchor (a : Anchor)
  /-- The body matches here, or does not; nothing is consumed. -/
  | ahead (positive : Bool) (body : Pattern)
  /-- The body matches the given number of code points before this place, or does not. -/
  | behind (positive : Bool) (width : Nat) (body : Pattern)

namespace Pattern

/-- A place in a text: what has been passed, the last first, what is to come, and what the groups
have matched, the latest first. -/
structure Place where
  passed : List Code
  ahead : List Code
  groups : List (Nat × Text)

namespace Place

/-- The start of a text. -/
def start (t : Text) : Place :=
  ⟨[], t, []⟩

/-- One code point further. -/
def forward (p : Place) : Place :=
  match p.ahead with
  | [] => p
  | c :: rest => { p with passed := c :: p.passed, ahead := rest }

/-- One code point back. -/
def backward (p : Place) : Place :=
  match p.passed with
  | [] => p
  | c :: rest => { p with passed := rest, ahead := c :: p.ahead }

/-- A number of code points further. -/
def advance : Nat → Place → Place
  | 0, p => p
  | n + 1, p => advance n p.forward

/-- A number of code points back. -/
def retreat : Nat → Place → Place
  | 0, p => p
  | n + 1, p => retreat n p.backward

/-- The text from this place to a later one. -/
def upTo (p q : Place) : Text :=
  p.ahead.take (p.ahead.length - q.ahead.length)

/-- The condition holds at this place. -/
def satisfies (p : Place) : Anchor → Bool
  | .textStart => p.passed.isEmpty
  | .textEnd => p.ahead.isEmpty
  | .lastLineEnd => p.ahead.isEmpty || p.ahead == [Code.ofChar '\n']
  | .lineStart => p.passed.isEmpty || p.passed.head? == some (Code.ofChar '\n')
  | .lineEnd => p.ahead.isEmpty || p.ahead.head? == some (Code.ofChar '\n')
  | .wordEdge isWord => (p.passed.head?.any isWord) != (p.ahead.head?.any isWord)
  | .notWordEdge isWord =>
    !(p.passed.isEmpty && p.ahead.isEmpty)
      && (p.passed.head?.any isWord) == (p.ahead.head?.any isWord)

end Place

/-- What follows a match: it gets the place reached and may refuse it. -/
abbrev Next := Place → Option Place

/-- How many code points at the start of a text are in the class, at most a given number. -/
def runLength (holds : Code → Bool) : Option Nat → Text → Nat
  | _, [] => 0
  | some 0, _ :: _ => 0
  | some (n + 1), c :: rest => if holds c then runLength holds (some n) rest + 1 else 0
  | none, c :: rest => if holds c then runLength holds none rest + 1 else 0

/-- Tries this place and then those before it, a number of times. -/
def tryBackward (next : Next) : Nat → Place → Option Place
  | 0, p => next p
  | n + 1, p =>
    match next p with
    | some q => some q
    | none => tryBackward next n p.backward

/-- Tries this place and then those after it, a number of times. -/
def tryForward (next : Next) : Nat → Place → Option Place
  | 0, p => next p
  | n + 1, p =>
    match next p with
    | some q => some q
    | none => tryForward next n p.forward

/-- A matcher used a fixed number of times. -/
def times (body : Next → Next) (next : Next) : Nat → Place → Option Place
  | 0, p => next p
  | n + 1, p => body (times body next n) p

/-- A matcher used as often as it can, or as a bound allows, giving back uses one at a time.  A use
that consumes nothing is the last. -/
def greedily (body : Next → Next) (next : Next) (most : Option Nat) (p : Place) : Option Place :=
  if most == some 0 then next p
  else
    match body (fun q =>
        if q.ahead.length < p.ahead.length then
          greedily body next (most.map (· - 1)) q
        else next q) p with
    | some q => some q
    | none => next p
termination_by p.ahead.length

/-- A matcher used as rarely as it can, and once more each time that what follows refuses. -/
def lazily (body : Next → Next) (next : Next) (most : Option Nat) (p : Place) : Option Place :=
  match next p with
  | some q => some q
  | none =>
    if most == some 0 then none
    else body (fun q =>
      if q.ahead.length < p.ahead.length then
        lazily body next (most.map (· - 1)) q
      else next q) p
termination_by p.ahead.length

/-- The text goes on with another text, compared after folding; gives the place behind it. -/
def spell (fold : Code → Code) : Text → Place → Option Place
  | [], p => some p
  | c :: rest, p =>
    match p.ahead with
    | [] => none
    | d :: _ => if fold c == fold d then spell fold rest p.forward else none

/-- Matches a pattern at a place and hands what it reached to what follows. -/
def matchAt : Pattern → Next → Next
  | .empty, next, p => next p
  | .one holds, next, p =>
    match p.ahead with
    | [] => none
    | c :: _ => if holds c then next p.forward else none
  | .run holds least most greedy, next, p =>
    let length := runLength holds most p.ahead
    if length < least then none
    else if greedy then tryBackward next (length - least) (p.advance length)
    else tryForward next (length - least) (p.advance least)
  | .seq first second, next, p => first.matchAt (second.matchAt next) p
  | .alt first second, next, p =>
    match first.matchAt next p with
    | some q => some q
    | none => second.matchAt next p
  | .rep body least most greedy, next, p =>
    let extra := most.map (· - least)
    let more := if greedy then greedily body.matchAt next extra else lazily body.matchAt next extra
    times body.matchAt more least p
  | .group number body, next, p =>
    body.matchAt (fun q => next { q with groups := (number, p.upTo q) :: q.groups }) p
  | .back number fold, next, p =>
    match p.groups.lookup number with
    | none => none
    | some t => (spell fold t p).bind next
  | .anchor a, next, p => if p.satisfies a then next p else none
  | .ahead positive body, next, p =>
    match body.matchAt some p with
    | some q => if positive then next { p with groups := q.groups } else none
    | none => if positive then none else next p
  | .behind positive width body, next, p =>
    let found := if width ≤ p.passed.length then body.matchAt some (p.retreat width) else none
    match found with
    | some q => if positive then next { p with groups := q.groups } else none
    | none => if positive then none else next p

/-- The text that a pattern matches at the start of a text. -/
def matched? (pattern : Pattern) (t : Text) : Option Text :=
  (pattern.matchAt some (Place.start t)).map fun p => p.passed.reverse

/-- A repetition; that of a class of code points is a run. -/
def repeated (body : Pattern) (least : Nat) (most : Option Nat) (greedy : Bool) : Pattern :=
  match body with
  | .one holds => .run holds least most greedy
  | _ => .rep body least most greedy

/-- Patterns one after the other. -/
def sequence : List Pattern → Pattern
  | [] => .empty
  | [p] => p
  | p :: q :: rest => .seq p (sequence (q :: rest))

/-- The least and the most number of code points that a pattern can match, given those of the groups
that it refers to. -/
def widths (groupWidths : Nat → Nat × Option Nat) : Pattern → Nat × Option Nat
  | .empty => (0, some 0)
  | .one _ => (1, some 1)
  | .run _ least most _ => (least, most)
  | .seq first second =>
    let (a, b) := first.widths groupWidths
    let (c, d) := second.widths groupWidths
    (a + c, b.bind fun b => d.map (b + ·))
  | .alt first second =>
    let (a, b) := first.widths groupWidths
    let (c, d) := second.widths groupWidths
    (min a c, b.bind fun b => d.map (max b ·))
  | .rep body least most _ =>
    let (a, b) := body.widths groupWidths
    (a * least, if b == some 0 then some 0 else b.bind fun b => most.map (b * ·))
  | .group _ body => body.widths groupWidths
  | .back number _ => groupWidths number
  | .anchor _ => (0, some 0)
  | .ahead _ _ => (0, some 0)
  | .behind _ _ _ => (0, some 0)

end Pattern

end Descent
