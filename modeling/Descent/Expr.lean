import Descent.Action
import Descent.Json.Grammar
import Descent.Pattern.Reader

/-!
Written grammars: expressions in which parsers are named and values, patterns and functions are
given by what is written for them.  Building one gives a grammar, and new cells where it asks for
them.
-/

set_option autoImplicit false
set_option relaxedAutoImplicit false

namespace Descent

/-- The rules of JSON that an expression can name. -/
inductive JsonRule where
  | null
  | bool
  | number
  | string
  | value
  | document

/-- A written grammar. -/
inductive Expr where
  | fail
  | item
  | spaces
  | eof
  | json (rule : JsonRule)
  | lit (v : Value)
  | spacedLit (v : Value)
  | result (v : Value)
  | sat (c : Condition)
  | pattern (source : Text) (options : Pattern.Options)
  | many (e : Expr)
  | many1 (e : Expr)
  | opt (e : Expr)
  | skip (e : Expr)
  /-- A new cell that holds the grammar. -/
  | shared (e : Expr)
  | seq (e f : Expr)
  | left (e f : Expr)
  | right (e f : Expr)
  | between (e f g : Expr)
  | sepBy1 (e separator : Expr)
  | sepBy0 (e separator : Expr)
  | choice (e f : Expr) (more : List Expr)
  | cause (e : Expr) (why : Text)
  | labelled (e : Expr) (label : Text)
  | replace (e : Expr) (v : Value)
  | transform (e : Expr) (a : Action)
  /-- Then the elements of the result. -/
  | thenLit (e : Expr)
  /-- Then the elements of a sequence as often as the result says. -/
  | thenRepeat (e : Expr) (v : Value)
  /-- Then as many elements as the result says. -/
  | thenTake (e : Expr)
  /-- Then the value that a function has for the result. -/
  | thenResult (e : Expr) (a : Action)
  /-- Then a grammar whose result is paired with the first one. -/
  | thenPair (e f : Expr)
  /-- Then the grammar of the first case whose value is the result. -/
  | thenSwitch (e : Expr) (cases : List (Value × Expr)) (otherwise : Expr)
  | ref (name : Text)

namespace Expr

/-- Grammars by name. -/
abbrev Names := List (Text × Grammar)

/-- A step of building: it may stop with a fault, and adds cells to a store. -/
abbrev Builder (α : Type) := Store → Except Fault (α × Store)

namespace Builder

variable {α β : Type}

/-- Gives a value and adds no cells. -/
def give (a : α) : Builder α :=
  fun s => .ok (a, s)

/-- One step after the other. -/
def andThen (b : Builder α) (next : α → Builder β) : Builder β :=
  fun s =>
    match b s with
    | .ok (a, s) => next a s
    | .error f => .error f

instance : Monad Builder where
  pure := give
  bind := andThen

/-- A step that adds no cells. -/
def ofExcept (e : Except Fault α) : Builder α :=
  fun s => e.map fun a => (a, s)

end Builder

/-- The grammar of the elements of a value; a dictionary is read by its keys. -/
def litOf (v : Value) : Except Fault Grammar :=
  match Sequence.ofValue? v with
  | some s => .ok (.lit s)
  | none =>
    v.elements.map fun keys =>
      Grammar.replace
        (.cause (.lit (.tuple keys)) (Text.ofString "plit(" ++ v.shown ++ Text.ofString ")")) v

/-- The grammar of the elements of a value with white space around it. -/
def spacedLitOf (v : Value) : Except Fault Grammar :=
  (litOf v).map fun g => .left (.right .spaces g) .spaces

/-- A grammar, or the fault for which there is none. -/
def orFault (e : Except Fault Grammar) : Grammar :=
  match e with
  | .ok g => g
  | .error f => .fault f

/-- The grammar of a rule of JSON. -/
def jsonRule : JsonRule → Builder Grammar
  | .null => Builder.give Json.null
  | .bool => Builder.give Json.bool
  | .number => Builder.give Json.number
  | .string => Builder.give Json.string
  | .value => fun s => .ok (Json.value s)
  | .document => fun s => .ok (Json.document s)

/-- The grammar of a pattern. -/
def patternOf (source : Text) (options : Pattern.Options) : Except Fault Grammar :=
  match Pattern.read? options source with
  | some p => .ok (.pattern source p)
  | none => .error .badPattern

/-- The grammar that runs after a result that says how often a sequence comes. -/
def repeated (v w : Value) : Except Fault Grammar := do
  litOf (← v.multiply (.int (← w.toInt)))

/-- The grammar that runs after a result that says how many elements come. -/
def taken (w : Value) : Except Fault Grammar :=
  w.toInt.map fun n => .take .item n.toNat

/-- The grammar of the first case whose value is the given one. -/
def select (cases : List (Value × Grammar)) (otherwise : Grammar) (v : Value) : Grammar :=
  ((cases.find? fun c => v.same c.1).map Prod.snd).getD otherwise

mutual

/-- Builds a grammar from an expression. -/
def build (names : Names) : Expr → Builder Grammar
  | fail => Builder.give .fail
  | item => Builder.give .item
  | spaces => Builder.give .spaces
  | eof => Builder.give .eof
  | json rule => jsonRule rule
  | lit v => Builder.ofExcept (litOf v)
  | spacedLit v => Builder.ofExcept (spacedLitOf v)
  | result v => Builder.give (.result v)
  | sat c => Builder.give (.sat c.holds)
  | pattern source options => Builder.ofExcept (patternOf source options)
  | many e => return .many (← build names e)
  | many1 e => return .many1 (← build names e)
  | opt e => return .opt (← build names e)
  | skip e => return .skip (← build names e)
  | shared e => do
    let g ← build names e
    fun s =>
      let (cell, s) := s.allocate (some g)
      .ok (.enter cell, s)
  | seq e f => return .seq (← build names e) (← build names f)
  | left e f => return .left (← build names e) (← build names f)
  | right e f => return .right (← build names e) (← build names f)
  | between e f g => return .between (← build names e) (← build names f) (← build names g)
  | sepBy1 e separator => return .sepBy1 (← build names e) (← build names separator)
  | sepBy0 e separator => return .sepBy0 (← build names e) (← build names separator)
  | choice e f more =>
    return .choiceOf (← build names e) (← build names f) (← buildAll names more)
  | cause e why => return .cause (← build names e) why
  | labelled e label => return .labelled (← build names e) label
  | replace e v => return .replace (← build names e) v
  | transform e a => return .transform (← build names e) a.apply
  | thenLit e => return .bind (← build names e) fun v => orFault (litOf v)
  | thenRepeat e v => return .bind (← build names e) fun w => orFault (repeated v w)
  | thenTake e => return .bind (← build names e) fun w => orFault (taken w)
  | thenResult e a =>
    return .bind (← build names e) fun v => orFault ((a.apply v).map .result)
  | thenPair e f => do
    let g ← build names e
    let h ← build names f
    return .bind g fun v => .transform h fun w => .ok (Value.pair v w)
  | thenSwitch e cases otherwise => do
    let g ← build names e
    let built ← buildCases names cases
    let h ← build names otherwise
    return .bind g (select built h)
  | ref name =>
    match names.lookup name with
    | some g => Builder.give g
    | none => Builder.ofExcept (.error (.noKey (.str name)))

/-- Builds several grammars in order. -/
def buildAll (names : Names) : List Expr → Builder (List Grammar)
  | [] => Builder.give []
  | e :: rest => return (← build names e) :: (← buildAll names rest)

/-- Builds the grammars of cases in order. -/
def buildCases (names : Names) : List (Value × Expr) → Builder (List (Value × Grammar))
  | [] => Builder.give []
  | (v, e) :: rest => return (v, ← build names e) :: (← buildCases names rest)

end

end Expr

end Descent
