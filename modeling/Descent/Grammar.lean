import Descent.Parser

/-!
Grammars: parsers as data, so that what they mean can depend on the cells that they enter.
-/

set_option autoImplicit false
set_option relaxedAutoImplicit false

namespace Descent

/-- The number of a cell. -/
abbrev CellId := Nat

/-- A grammar.  A choice has at least two branches; `enter` runs what a cell holds. -/
inductive Grammar where
  | result (v : Value)
  | fail
  | fault (f : Fault)
  | item
  | sat (test : Value → Except Fault Bool)
  | lit (s : Sequence)
  | pattern (source : Text) (p : Pattern)
  | eof
  | bind (g : Grammar) (next : Value → Grammar)
  | seq (first second : Grammar)
  | right (first second : Grammar)
  | between (opening body closing : Grammar)
  | cause (g : Grammar) (why : Text)
  | transform (g : Grammar) (f : Value → Except Fault Value)
  | orElse (g : Grammar) (v : Value)
  | choice (more : Nat) (branch : Fin (more + 2) → Grammar)
  | many (g : Grammar)
  | sepBy1 (g separator : Grammar)
  | labelled (g : Grammar) (label : Text)
  | enter (cell : CellId)

namespace Grammar

/-- The parser that a grammar is, given what entering a cell does. -/
def parser (onEnter : CellId → Parser) : Grammar → Parser
  | result v => Parser.result v
  | fail => Parser.fail (Text.ofString "pzero")
  | fault f => Parser.fault f
  | item => Parser.item
  | sat test => Parser.sat test
  | lit s => Parser.lit s
  | pattern source p => Parser.pattern source p
  | eof => Parser.eof
  | bind g next => Parser.bind (g.parser onEnter) fun v => (next v).parser onEnter
  | seq g h => Parser.seq (g.parser onEnter) (h.parser onEnter)
  | right g h => Parser.right (g.parser onEnter) (h.parser onEnter)
  | between g h k => Parser.between (g.parser onEnter) (h.parser onEnter) (k.parser onEnter)
  | cause g why => Parser.cause (g.parser onEnter) why
  | transform g f => Parser.transform (g.parser onEnter) f
  | orElse g v => Parser.orElse (g.parser onEnter) v
  | choice _ branch =>
    Parser.choice ((branch 0).parser onEnter)
      (List.ofFn fun k => (branch k.succ).parser onEnter)
  | many g => Parser.many (g.parser onEnter)
  | sepBy1 g separator => Parser.sepBy1 (g.parser onEnter) (separator.parser onEnter)
  | labelled g label => Parser.labelled (g.parser onEnter) label
  | enter cell => onEnter cell

/-- The first of two branches that succeeds. -/
def either (g h : Grammar) : Grammar :=
  choice 0 fun k => if k = 0 then g else h

/-- The first of several branches that succeeds. -/
def choiceOf (g h : Grammar) (more : List Grammar) : Grammar :=
  choice more.length (g :: h :: more).get

/-- Runs two grammars and keeps the first result. -/
def left (g h : Grammar) : Grammar :=
  between (result .null) g h

/-- Replaces the result. -/
def replace (g : Grammar) (v : Value) : Grammar :=
  transform g fun _ => .ok v

/-- Drops the result. -/
def skip (g : Grammar) : Grammar :=
  replace g .null

/-- A result, or its absence. -/
def opt (g : Grammar) : Grammar :=
  orElse g .absent

/-- A value in front of a list, both given as a pair. -/
def prepend : Value → Except Fault Value
  | .tuple [v, .list vs] => .ok (.list (v :: vs))
  | _ => .error .unsupported

/-- One or more. -/
def many1 (g : Grammar) : Grammar :=
  transform (seq g (many g)) prepend

/-- None or more, with a separator between. -/
def sepBy0 (g separator : Grammar) : Grammar :=
  orElse (sepBy1 g separator) (.list [])

/-- White space, which may be none. -/
def spaces : Grammar :=
  cause (pattern (Text.ofString "\\s*") (.run Code.isSpace 0 none true)) (Text.ofString "pspaces")

/-- A sequence with white space around it. -/
def spacedLit (s : Sequence) : Grammar :=
  left (right spaces (lit s)) spaces

/-- Runs a grammar a number of times and appends the results to those found before. -/
def takeFrom (g : Grammar) (found : List Value) : Nat → Grammar
  | 0 => result (.list found)
  | n + 1 => bind g fun v => takeFrom g (found ++ [v]) n

/-- Runs a grammar a number of times and lists the results. -/
def take (g : Grammar) (n : Nat) : Grammar :=
  takeFrom g [] n

end Grammar

end Descent
