import Descent.Expr
import Descent.Proofs.Parser.Laws

/-!
The laws of sequence and of choice for grammars.  A choice among several grammars is a choice between
two, taken again and again from either end, and all sequences are one monad.
-/

set_option autoImplicit false
set_option relaxedAutoImplicit false

namespace Descent

namespace Grammar

/-- A choice between the first grammar and the next, then between that choice and the one behind, and
so on. -/
def eitherFromLeft (g : Grammar) (others : List Grammar) : Grammar :=
  others.foldl either g

/-- A choice between the first grammar and the choice among the others, made in the same way. -/
def eitherFromRight (g : Grammar) : List Grammar → Grammar
  | [] => g
  | h :: others => either g (eitherFromRight h others)

variable (onEnter : CellId → Parser)

theorem parser_either (g h : Grammar) :
    (either g h).parser onEnter = Parser.choice (g.parser onEnter) [h.parser onEnter] := rfl

theorem parser_eitherFromLeft (g : Grammar) (others : List Grammar) :
    (eitherFromLeft g others).parser onEnter =
      Parser.choice (g.parser onEnter) (others.map fun h => h.parser onEnter) := by
  induction others generalizing g with
  | nil => exact (Parser.choice_nil _).symm
  | cons h others ih =>
    rw [eitherFromLeft, List.foldl_cons, List.map_cons, Parser.choice_choice, ← parser_either]
    exact ih (either g h)

theorem parser_eitherFromRight (g : Grammar) (others : List Grammar) :
    (eitherFromRight g others).parser onEnter =
      Parser.choice (g.parser onEnter) (others.map fun h => h.parser onEnter) := by
  induction others generalizing g with
  | nil => exact (Parser.choice_nil _).symm
  | cons h others ih =>
    rw [eitherFromRight, parser_either, ih, List.map_cons, ← Parser.choice_pair]

theorem parser_choice {more : Nat} (branch : Fin (more + 2) → Grammar) :
    (choice more branch).parser onEnter = Parser.choice ((branch 0).parser onEnter)
      ((List.ofFn fun k => branch k.succ).map fun h => h.parser onEnter) := by
  rw [List.map_ofFn]
  rfl

/-- The grammar of a function that may refuse the value for which it is to give a result. -/
theorem parser_orFault (e : Except Fault Value) (i : Input) :
    (Expr.orFault (e.map result)).parser onEnter i =
      (Run.ofExcept e).andThen fun w => Parser.result w i := by
  cases e with
  | error f => rfl
  | ok w => exact (Run.done_andThen w fun w => Parser.result w i).symm

variable (g h k : Grammar) (s : Store) (limit : Nat)

/-- Choices are associative: a choice among any number of grammars is the same as the choices between
two from the left and from the right, on every input, with the same trace.  A grammar that always
fails is their unit on the left.  A sequence distributes over a choice behind it: the outcome is the
same, or the fault, also which failure is reported if all fail. -/
theorem choice_associates {more : Nat} (branch : Fin (more + 2) → Grammar) :
    (choice more branch).run s limit =
      (eitherFromLeft (branch 0) (List.ofFn fun j => branch j.succ)).run s limit ∧
    (choice more branch).run s limit =
      (eitherFromRight (branch 0) (List.ofFn fun j => branch j.succ)).run s limit ∧
    (either fail g).run s limit = g.run s limit ∧
    ∀ i, ((seq g (either h k)).run s limit i).ending =
      ((either (seq g h) (seq g k)).run s limit i).ending := by
  refine ⟨?_, ?_, Parser.choice_fail _ _, fun i => Parser.ending_seq_choice _ _ _ i⟩
  · exact (parser_choice _ branch).trans (parser_eitherFromLeft _ _ _).symm
  · exact (parser_choice _ branch).trans (parser_eitherFromRight _ _ _).symm

/-- Sequences are one monad: a result is a unit of `bind` on either side, `bind` is associative, and
each of the other sequences is `bind` with a certain function.  The runs are the same on every input,
with their results and what is left, their failures, faults and traces. -/
theorem sequences_are_bind (a : Value) (next next' : Value → Grammar)
    (f : Value → Except Fault Value) :
    (bind (result a) next).run s limit = (next a).run s limit ∧
    (bind g result).run s limit = g.run s limit ∧
    (bind (bind g next) next').run s limit =
      (bind g fun v => bind (next v) next').run s limit ∧
    (seq g h).run s limit =
      (bind g fun v => bind h fun w => result (Value.pair v w)).run s limit ∧
    (right g h).run s limit = (bind g fun _ => h).run s limit ∧
    (between g h k).run s limit =
      (bind g fun _ => bind h fun v => bind k fun _ => result v).run s limit ∧
    (left g h).run s limit = (bind g fun v => bind h fun _ => result v).run s limit ∧
    (transform g f).run s limit =
      (bind g fun v => Expr.orFault ((f v).map result)).run s limit ∧
    (replace g a).run s limit = (bind g fun _ => result a).run s limit ∧
    (skip g).run s limit = (bind g fun _ => result .null).run s limit := by
  have hbetween : ∀ g h k : Grammar, (between g h k).run s limit =
      (bind g fun _ => bind h fun v => bind k fun _ => result v).run s limit := fun g h k =>
    Parser.between_eq_bind _ _ _
  have htransform : ∀ f : Value → Except Fault Value, (transform g f).run s limit =
      (bind g fun v => Expr.orFault ((f v).map result)).run s limit := by
    intro f
    refine (Parser.transform_eq_bind _ f).trans (congrArg (Parser.bind _) ?_)
    funext v i
    exact (parser_orFault _ (f v) i).symm
  refine ⟨Parser.result_bind a fun v => (next v).run s limit, Parser.bind_result _,
    Parser.bind_assoc _ _ _, Parser.seq_eq_bind _ _, Parser.right_eq_bind _ _, hbetween g h k, ?_,
    htransform f, htransform fun _ => .ok a, htransform fun _ => .ok .null⟩
  -- The opening that does nothing is a unit, which leaves two parsers.
  exact (hbetween (result .null) g h).trans
    (Parser.result_bind .null fun _ => (bind g fun v => bind h fun _ => result v).run s limit)

end Grammar

end Descent
