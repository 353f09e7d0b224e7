import Descent.Outcome
import Descent.Pattern
import Descent.Run

/-!
Parsers as functions from inputs to runs, and the ways to combine them.

A failure is an outcome like a success, and what combines parsers decides what becomes of it; a
fault ends everything.  A repetition goes on only while every round leaves less to read, and that is
also why it ends.
-/

set_option autoImplicit false
set_option relaxedAutoImplicit false

namespace Descent

/-- A parser. -/
abbrev Parser := Input → Run Outcome

/-- Goes on after a success and keeps a failure. -/
def Run.onSuccess (r : Run Outcome) (next : Value → Input → Run Outcome) : Run Outcome :=
  r.andThen fun
    | .success v rest => next v rest
    | .failure p why => .done (.failure p why)

namespace Parser

/-- Succeeds with a value and reads nothing. -/
def result (v : Value) : Parser :=
  fun i => .done (.success v i)

/-- Fails where it stands. -/
def fail (why : Text) : Parser :=
  fun i => .done (.failure i.position why)

/-- Ends the run with a fault. -/
def fault (f : Fault) : Parser :=
  fun _ => .stop f

/-- Reads one element. -/
def item : Parser :=
  fun i =>
    if i.atEnd then fail (Text.ofString "pitem") i
    else (Run.ofExcept i.next).andThen fun v => result v (i.advance 1)

/-- Reads one element that passes a test. -/
def sat (test : Value → Except Fault Bool) : Parser :=
  fun i =>
    if i.atEnd then fail (Text.ofString "psat") i
    else
      (Run.ofExcept i.next).andThen fun v =>
        (Run.ofExcept (test v)).andThen fun passed =>
          if passed then result v (i.advance 1) else fail (Text.ofString "psat") i

/-- Reads the elements of a sequence. -/
def lit (s : Sequence) : Parser :=
  fun i =>
    if (i.window s.length).agrees s then result s.toValue (i.advance s.length)
    else fail (Text.ofString "plit(" ++ s.toValue.shown ++ Text.ofString ")") i

/-- Reads what a pattern matches at the start of the remaining text. -/
def pattern (source : Text) (p : Pattern) : Parser :=
  fun i =>
    match i.rest with
    | .text t =>
      match p.matched? t with
      | some found => result (.str found) (i.advance found.length)
      | none => fail (Text.ofString "preg(" ++ source ++ Text.ofString ")") i
    | _ => .stop .unsupported

/-- Succeeds where nothing is left. -/
def eof : Parser :=
  fun i => if i.atEnd then result (.bool true) i else fail (Text.ofString "peof") i

/-- Runs a parser and then the one that its result determines. -/
def bind (p : Parser) (next : Value → Parser) : Parser :=
  fun i => (p i).onSuccess next

/-- Runs two parsers and pairs their results. -/
def seq (p q : Parser) : Parser :=
  fun i =>
    (p i).onSuccess fun v mid =>
      (q mid).onSuccess fun w rest => .done (.success (Value.pair v w) rest)

/-- Runs two parsers and keeps the second result. -/
def right (p q : Parser) : Parser :=
  fun i => (p i).onSuccess fun _ mid => q mid

/-- Runs parsers one after the other and gives the list of their results, or the first failure. -/
def collect : List Parser → Input → Run (Except (Int × Text) (List Value × Input))
  | [], i => .done (.ok ([], i))
  | p :: rest, i =>
    (p i).andThen fun
      | .failure q why => .done (.error (q, why))
      | .success v mid =>
        (collect rest mid).andThen fun
          | .error e => .done (.error e)
          | .ok (vs, last) => .done (.ok (v :: vs, last))

/-- Runs three parsers and keeps the second result. -/
def between (opening p closing : Parser) : Parser :=
  fun i =>
    (collect [opening, p, closing] i).andThen fun
      | .error (q, why) => .done (.failure q why)
      | .ok (vs, rest) => .done (.success (vs.getD 1 .null) rest)

/-- Runs a parser and replaces the explanation of its failure. -/
def cause (p : Parser) (why : Text) : Parser :=
  fun i =>
    (p i).andThen fun
      | .success v rest => .done (.success v rest)
      | .failure q _ => .done (.failure q why)

/-- Runs a parser and applies a function to its result. -/
def transform (p : Parser) (f : Value → Except Fault Value) : Parser :=
  fun i =>
    (p i).onSuccess fun v rest =>
      (Run.ofExcept (f v)).andThen fun w => .done (.success w rest)

/-- Runs a parser, and succeeds with a value where it fails. -/
def orElse (p : Parser) (v : Value) : Parser :=
  fun i =>
    (p i).andThen fun
      | .success w rest => .done (.success w rest)
      | .failure _ _ => result v i

/-- Tries further parsers on an input after a failure. -/
def tryEach (i : Input) : Outcome → List Parser → Run Outcome
  | last, [] => .done last
  | _, p :: rest =>
    (p i).andThen fun
      | .success v after => .done (.success v after)
      | .failure q why => tryEach i (.failure q why) rest

/-- Tries parsers in turn on the same input; if all fail, the failure is that of the last. -/
def choice (first : Parser) (others : List Parser) : Parser :=
  fun i =>
    (first i).andThen fun
      | .success v after => .done (.success v after)
      | .failure q why => tryEach i (.failure q why) others

/-- Runs a parser as often as it succeeds: the results and what is left. -/
def rounds (p : Parser) (i : Input) : Run (List Value × Input) :=
  (p i).andThen fun
    | .failure _ _ => .done ([], i)
    | .success v rest =>
      if rest.left < i.left then
        (rounds p rest).andThen fun (vs, last) => .done (v :: vs, last)
      else .stop (.endlessRepetition .many)
termination_by i.left

/-- Runs a parser as often as it succeeds and lists the results. -/
def many (p : Parser) : Parser :=
  fun i => (rounds p i).andThen fun (vs, rest) => .done (.success (.list vs) rest)

/-- Runs a separator and then a parser as often as both succeed: the results and what is left, which
is all that follows the last result. -/
def separatedRounds (p separator : Parser) (i : Input) : Run (List Value × Input) :=
  (separator i).andThen fun
    | .failure _ _ => .done ([], i)
    | .success _ mid =>
      (p mid).andThen fun
        | .failure _ _ => .done ([], i)
        | .success v rest =>
          if rest.left < i.left then
            (separatedRounds p separator rest).andThen fun (vs, last) => .done (v :: vs, last)
          else .stop (.endlessRepetition .separated)
termination_by i.left

/-- Runs a parser once or more with a separator between, and lists the results. -/
def sepBy1 (p separator : Parser) : Parser :=
  fun i =>
    (p i).onSuccess fun v rest =>
      (separatedRounds p separator rest).andThen fun (vs, last) =>
        .done (.success (.list (v :: vs)) last)

/-- Runs a parser between two events if the input is traced. -/
def labelled (p : Parser) (label : Text) : Parser :=
  fun i =>
    if i.traced then do
      let next ← Run.ofExcept (describeNext i)
      Run.emit (.attempt label i next)
      match ← p i with
      | .success v rest =>
        let after ← Run.ofExcept (describeNext rest)
        Run.emit (.success label i rest after)
        return .success v rest
      | .failure q why =>
        let again ← Run.ofExcept (describeNext i)
        Run.emit (.failure label i why again)
        return .failure q why
    else p i

end Parser

end Descent
