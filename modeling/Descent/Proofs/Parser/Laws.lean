import Descent.Proofs.Parser.Rules

/-!
Laws of sequence and of choice.  Parsers are a monad with `bind` and `result`, and every other way to
run parsers one after the other is `bind` with a certain function.  The alternatives of a choice may
be taken together from either end, and a parser that fails is a unit.  A sequence distributes over a
choice behind it, since what comes first has the same outcome each time that it is run.
-/

set_option autoImplicit false
set_option relaxedAutoImplicit false

namespace Descent

namespace Run

/-- Goes on after a failure and keeps a success. -/
def onFailure (r next : Run Outcome) : Run Outcome :=
  r.andThen fun
    | .success v rest => .done (.success v rest)
    | .failure _ _ => next

theorem onSuccess_onSuccess (r : Run Outcome) (next next' : Value → Input → Run Outcome) :
    (r.onSuccess next).onSuccess next' = r.onSuccess fun v mid => (next v mid).onSuccess next' := by
  rw [onSuccess, onSuccess, andThen_assoc]
  refine congrArg r.andThen (funext fun o => ?_)
  cases o with
  | success v mid => rfl
  | failure position why => exact done_andThen _ _

theorem onFailure_onFailure (r s t : Run Outcome) :
    (r.onFailure s).onFailure t = r.onFailure (s.onFailure t) := by
  rw [onFailure, onFailure, andThen_assoc]
  refine congrArg r.andThen (funext fun o => ?_)
  cases o with
  | success v rest => exact done_andThen _ _
  | failure position why => rfl

/-- To hand on a success as it is changes nothing. -/
theorem onSuccess_done (r : Run Outcome) :
    (r.onSuccess fun v rest => done (.success v rest)) = r := by
  refine (congrArg r.andThen (funext fun o => ?_)).trans (andThen_done r)
  cases o <;> rfl

@[simp] theorem done_onSuccess (v : Value) (i : Input) (next : Value → Input → Run Outcome) :
    (done (.success v i)).onSuccess next = next v i :=
  done_andThen _ _

theorem ending_onSuccess (r : Run Outcome) (next : Value → Input → Run Outcome) :
    (r.onSuccess next).ending =
      match r.ending with
      | .ok (.success v rest) => (next v rest).ending
      | .ok (.failure position why) => .ok (.failure position why)
      | .error f => .error f := by
  rcases r with ⟨f | v | why, trace⟩ <;> rfl

theorem ending_onFailure (r next : Run Outcome) :
    (r.onFailure next).ending =
      match r.ending with
      | .ok (.success v rest) => .ok (.success v rest)
      | .ok (.failure _ _) => next.ending
      | .error f => .error f := by
  rcases r with ⟨f | v | why, trace⟩ <;> rfl

end Run

namespace Parser

/-! Sequences. -/

theorem bind_result (p : Parser) : bind p result = p :=
  funext fun i => Run.onSuccess_done (p i)

theorem result_bind (v : Value) (next : Value → Parser) : bind (result v) next = next v :=
  funext fun _ => Run.done_andThen _ _

theorem bind_assoc (p : Parser) (next next' : Value → Parser) :
    bind (bind p next) next' = bind p fun v => bind (next v) next' :=
  funext fun i => Run.onSuccess_onSuccess (p i) next next'

theorem seq_eq_bind (p q : Parser) :
    seq p q = bind p fun v => bind q fun w => result (Value.pair v w) := rfl

theorem right_eq_bind (p q : Parser) : right p q = bind p fun _ => q := rfl

theorem between_eq_bind (opening p closing : Parser) :
    between opening p closing =
      bind opening fun _ => bind p fun v => bind closing fun _ => result v :=
  funext (between_eq opening p closing)

/-- A function that refuses a value stops the run either way. -/
theorem transform_eq_bind (p : Parser) (f : Value → Except Fault Value) :
    transform p f = bind p fun v i => (Run.ofExcept (f v)).andThen fun w => result w i := rfl

/-! Choices. -/

@[simp] theorem choice_nil (p : Parser) : choice p [] = p := by
  funext i
  refine (congrArg (p i).andThen (funext fun o => ?_)).trans (Run.andThen_done (p i))
  cases o <;> rfl

theorem choice_cons (p q : Parser) (others : List Parser) (i : Input) :
    choice p (q :: others) i = (p i).onFailure (choice q others i) := by
  refine congrArg (p i).andThen (funext fun o => ?_)
  cases o <;> rfl

/-- All alternatives but the first may be taken together. -/
theorem choice_pair (p q : Parser) (others : List Parser) :
    choice p (q :: others) = choice p [choice q others] := by
  funext i
  rw [choice_cons, choice_cons, choice_nil]

/-- The first two alternatives may be taken together. -/
theorem choice_choice (p q : Parser) (others : List Parser) :
    choice p (q :: others) = choice (choice p [q]) others := by
  funext i
  cases others with
  | nil => rw [choice_nil]
  | cons r others =>
    rw [choice_cons, choice_cons, choice_cons, choice_cons, choice_nil, Run.onFailure_onFailure]

theorem choice_fail (why : Text) (p : Parser) : choice (fail why) [p] = p := by
  funext i
  rw [choice_cons, choice_nil]
  exact Run.done_andThen _ _

/-- The first part of a sequence may be run for every alternative of a choice behind it. -/
theorem ending_seq_choice (p q r : Parser) (i : Input) :
    (seq p (choice q [r]) i).ending = (choice (seq p q) [seq p r] i).ending := by
  rw [choice_cons, choice_nil, Run.ending_onFailure]
  simp only [seq, Run.ending_onSuccess, choice_cons, choice_nil, Run.ending_onFailure]
  -- By the outcome of the first part, and behind a success by that of the first alternative.
  rcases (p i).ending with f | ⟨v, mid⟩ | ⟨position, why⟩
  · rfl
  · dsimp only
    rcases (q mid).ending with f | ⟨w, rest⟩ | ⟨position, why⟩ <;> rfl
  · rfl

end Parser

end Descent
