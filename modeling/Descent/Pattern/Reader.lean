import Descent.Pattern.Mark

/-!
Written patterns.  The marks are taken one after the other; the brackets that are open stand on a
stack with what has been read inside each of them.
-/

set_option autoImplicit false
set_option relaxedAutoImplicit false

namespace Descent.Pattern

/-- The bracket that opened a level. -/
inductive Bracket where
  | whole
  | plain
  | numbered (number : Nat)
  | ahead (positive : Bool)
  | behind (positive : Bool)

/-- A part of a branch, and whether a repetition may follow it. -/
structure Part where
  pattern : Pattern
  repeatable : Bool

/-- What has been read inside one bracket: the branches that are complete and the parts of the
present one, the latest first.  Inside a look behind, groups past `known` may not be referred to. -/
structure Level where
  bracket : Bracket
  branches : List Pattern
  parts : List Part
  known : Option Nat

/-- The state of the reading: the present level, those around it, how many groups have been opened,
their names, and the widths of those that are closed. -/
structure Reading where
  level : Level
  outer : List Level
  groups : Nat
  names : List (Text × Nat)
  closed : List (Nat × (Nat × Option Nat))

namespace Reading

/-- The state before the first mark. -/
def start : Reading :=
  ⟨⟨.whole, [], [], none⟩, [], 0, [], []⟩

/-- One more part. -/
def add (r : Reading) (pattern : Pattern) (repeatable : Bool) : Reading :=
  { r with level := { r.level with parts := ⟨pattern, repeatable⟩ :: r.level.parts } }

/-- One more open bracket. -/
def enter (r : Reading) (bracket : Bracket) (known : Option Nat) : Reading :=
  { r with level := ⟨bracket, [], [], known⟩, outer := r.level :: r.outer }

/-- The widths of a closed group. -/
def widthsOf (r : Reading) (number : Nat) : Nat × Option Nat :=
  (r.closed.lookup number).getD (0, none)

/-- A group may be referred to: it is closed, and not in the look behind around. -/
def knows (r : Reading) (number : Nat) : Bool :=
  (r.closed.lookup number).isSome && r.level.known.all (number ≤ ·)

end Reading

namespace Level

/-- The present branch as a pattern. -/
def branch (l : Level) : Pattern :=
  sequence (l.parts.reverse.map Part.pattern)

/-- All branches as one pattern. -/
def pattern (l : Level) : Pattern :=
  l.branches.foldl (fun later earlier => .alt earlier later) l.branch

end Level

/-- Closes the present level; a look behind must have one width. -/
def close? (r : Reading) : Option Reading :=
  match r.outer with
  | [] => none
  | around :: outer =>
    let p := r.level.pattern
    let back : Reading := { r with level := around, outer := outer }
    match r.level.bracket with
    | .whole => none
    | .plain => some (back.add p true)
    | .numbered n =>
      some { back.add (.group n p) true with closed := (n, p.widths r.widthsOf) :: r.closed }
    | .ahead positive => some (back.add (.ahead positive p) true)
    | .behind positive =>
      match p.widths r.widthsOf with
      | (least, some most) =>
        if least == most then some (back.add (.behind positive least p) true) else none
      | (_, none) => none

/-- Repeats the part read last, which must not be an anchor or a repetition. -/
def repeatLast? (r : Reading) (least : Nat) (most : Option Nat) (greedy : Bool) : Option Reading :=
  match r.level.parts with
  | [] => none
  | last :: parts =>
    if last.repeatable then
      let part : Part := ⟨repeated last.pattern least most greedy, false⟩
      some { r with level := { r.level with parts := part :: parts } }
    else none

/-- Takes one mark. -/
def step? (r : Reading) : Mark → Option Reading
  | .one holds => some (r.add (.one holds) true)
  | .anchor a => some (r.add (.anchor a) false)
  | .back number fold => if r.knows number then some (r.add (.back number fold) true) else none
  | .backNamed name fold =>
    match r.names.lookup name with
    | none => none
    | some number => if r.knows number then some (r.add (.back number fold) true) else none
  | .openGroup name =>
    let number := r.groups + 1
    let opened := { r with groups := number }.enter (.numbered number) r.level.known
    match name with
    | none => some opened
    | some name =>
      if (r.names.lookup name).isSome then none
      else some { opened with names := (name, number) :: r.names }
  | .openPlain => some (r.enter .plain r.level.known)
  | .openAhead positive => some (r.enter (.ahead positive) r.level.known)
  | .openBehind positive =>
    some (r.enter (.behind positive) (some (r.level.known.getD r.groups)))
  | .bar =>
    some { r with level := { r.level with branches := r.level.branch :: r.level.branches, parts := [] } }
  | .close => close? r
  | .times least most greedy => repeatLast? r least most greedy

/-- Reads a written pattern; a malformed one gives nothing. -/
def read? (o : Options) (source : Text) : Option Pattern := do
  let marks ← marks? o source
  let r ← marks.foldlM step? Reading.start
  if r.outer.isEmpty then some r.level.pattern else none

end Descent.Pattern
