import Descent.Proofs.Parser.Rules
import Descent.Store

/-!
Two runs side by side, on inputs between which parsers cannot distinguish.  What the terminal
parsers look at is the same from related inputs, up to a shift of all positions; the second run
leaves no trace.  Every way to combine parsers keeps such a correspondence, so it holds of a grammar
and of the same grammar without its labels.
-/

set_option autoImplicit false
set_option relaxedAutoImplicit false

namespace Descent

/-- The text that a sequence is. -/
def Sequence.text? : Sequence → Option Text
  | .text t => some t
  | _ => none

/-- Inputs that look the same to parsers, the second one untraced, and how the traces of runs on
them are related. -/
structure Correspondence where
  Related : Input → Input → Prop
  /-- How much further the positions of the first input are. -/
  shift : Int
  Traces : Trace → Trace → Prop
  traces : Run.TraceRelation Traces
  event {i j : Input} : Related i j → i.traced = true → ∀ e : Event, Traces [e] []
  position {i j : Input} : Related i j → i.position = j.position + shift
  atEnd {i j : Input} : Related i j → i.atEnd = j.atEnd
  left {i j : Input} : Related i j → i.left = j.left
  next {i j : Input} : Related i j → i.atEnd = false → ∃ v, i.next = .ok v ∧ j.next = .ok v
  window {i j : Input} : Related i j → ∀ s : Sequence,
    (i.window s.length).agrees s = (j.window s.length).agrees s
  rest {i j : Input} : Related i j → i.rest.text? = j.rest.text?
  advance {i j : Input} : Related i j → ∀ n : Nat, Related (i.advance n) (j.advance n)

namespace Correspondence

/-- Outcomes that say the same of related inputs. -/
inductive Outcomes (c : Correspondence) : Outcome → Outcome → Prop where
  | success {v : Value} {i j : Input} : c.Related i j → Outcomes c (.success v i) (.success v j)
  | failure (position : Int) (why : Text) :
    Outcomes c (.failure (position + c.shift) why) (.failure position why)

/-- Runs with related traces that end alike. -/
def Runs (c : Correspondence) : Run Outcome → Run Outcome → Prop :=
  Run.Alike c.Traces c.Outcomes

/-- Parsers whose runs on related inputs correspond. -/
def Parsers (c : Correspondence) (p q : Parser) : Prop :=
  ∀ i j, c.Related i j → c.Runs (p i) (q j)

variable (c : Correspondence) {p p' q q' : Parser} {i j : Input}

private theorem done {o o' : Outcome} (h : c.Outcomes o o') :
    c.Runs (Run.done o) (Run.done o') :=
  .done c.traces h

theorem result (v : Value) : c.Parsers (Parser.result v) (Parser.result v) :=
  fun _ _ h => c.done (.success h)

theorem fail (why : Text) : c.Parsers (Parser.fail why) (Parser.fail why) := by
  intro i j h
  rw [Parser.fail, Parser.fail, c.position h]
  exact c.done (.failure _ _)

theorem fault (f : Fault) : c.Parsers (Parser.fault f) (Parser.fault f) :=
  fun _ _ _ => .stop c.traces f

private theorem readOne (h : c.Related i j) (v : Value) :
    c.Runs (Parser.result v (i.advance 1)) (Parser.result v (j.advance 1)) :=
  c.result v _ _ (c.advance h 1)

theorem item : c.Parsers Parser.item Parser.item := by
  intro i j h
  unfold Parser.item
  rw [← c.atEnd h]
  split
  · exact c.fail _ i j h
  · next hend =>
    obtain ⟨v, hi, hj⟩ := c.next h (by simpa using hend)
    rw [hi, hj]
    exact (Run.Alike.ofExcept c.traces _).andThen c.traces fun v _ heq => heq ▸ c.readOne h v

theorem sat (test : Value → Except Fault Bool) :
    c.Parsers (Parser.sat test) (Parser.sat test) := by
  intro i j h
  unfold Parser.sat
  rw [← c.atEnd h]
  split
  · exact c.fail _ i j h
  · next hend =>
    obtain ⟨v, hi, hj⟩ := c.next h (by simpa using hend)
    rw [hi, hj]
    refine (Run.Alike.ofExcept c.traces _).andThen c.traces fun v _ heq => heq ▸ ?_
    refine (Run.Alike.ofExcept c.traces _).andThen c.traces fun passed _ heq => heq ▸ ?_
    split
    · exact c.readOne h v
    · exact c.fail _ i j h

theorem lit (s : Sequence) : c.Parsers (Parser.lit s) (Parser.lit s) := by
  intro i j h
  unfold Parser.lit
  rw [c.window h s]
  split
  · exact c.result _ _ _ (c.advance h _)
  · exact c.fail _ i j h

theorem pattern (source : Text) (shape : Pattern) :
    c.Parsers (Parser.pattern source shape) (Parser.pattern source shape) := by
  intro i j h
  have hrest := c.rest h
  unfold Parser.pattern
  cases hi : i.rest <;> cases hj : j.rest <;> rw [hi, hj] at hrest <;>
    simp only [Sequence.text?, reduceCtorEq, Option.some.injEq] at hrest
  case text.text t u =>
    subst hrest
    dsimp only
    split
    · exact c.result _ _ _ (c.advance h _)
    · exact c.fail _ i j h
  all_goals exact .stop c.traces _

theorem eof : c.Parsers Parser.eof Parser.eof := by
  intro i j h
  unfold Parser.eof
  rw [c.atEnd h]
  split
  · exact c.result _ i j h
  · exact c.fail _ i j h

/-- Runs that correspond go on in a corresponding way. -/
private theorem onSuccess {r s : Run Outcome} {next next' : Value → Input → Run Outcome}
    (h : c.Runs r s) (hnext : ∀ v i j, c.Related i j → c.Runs (next v i) (next' v j)) :
    c.Runs (r.onSuccess next) (s.onSuccess next') := by
  refine Run.Alike.andThen c.traces h fun o o' ho => ?_
  cases ho with
  | success hij => exact hnext _ _ _ hij
  | failure position why => exact c.done (.failure position why)

variable {c}

theorem Parsers.bind {next next' : Value → Parser} (hp : c.Parsers p p')
    (hnext : ∀ v, c.Parsers (next v) (next' v)) :
    c.Parsers (Parser.bind p next) (Parser.bind p' next') :=
  fun i j h => c.onSuccess (hp i j h) hnext

theorem Parsers.seq (hp : c.Parsers p p') (hq : c.Parsers q q') :
    c.Parsers (Parser.seq p q) (Parser.seq p' q') := by
  intro i j h
  refine c.onSuccess (hp i j h) fun v mid mid' hmid => ?_
  exact c.onSuccess (hq _ _ hmid) fun w rest rest' hrest => c.done (.success hrest)

theorem Parsers.right (hp : c.Parsers p p') (hq : c.Parsers q q') :
    c.Parsers (Parser.right p q) (Parser.right p' q') :=
  fun i j h => c.onSuccess (hp i j h) fun _ => hq

theorem Parsers.between {opening opening' closing closing' : Parser}
    (ho : c.Parsers opening opening') (hp : c.Parsers p p') (hc : c.Parsers closing closing') :
    c.Parsers (Parser.between opening p closing) (Parser.between opening' p' closing') := by
  intro i j h
  rw [Parser.between_eq, Parser.between_eq]
  refine c.onSuccess (ho i j h) fun _ _ _ h₁ => ?_
  refine c.onSuccess (hp _ _ h₁) fun v _ _ h₂ => ?_
  exact c.onSuccess (hc _ _ h₂) fun _ rest rest' h₃ => c.done (.success h₃)

theorem Parsers.cause (hp : c.Parsers p p') (why : Text) :
    c.Parsers (Parser.cause p why) (Parser.cause p' why) := by
  intro i j h
  refine Run.Alike.andThen c.traces (hp i j h) fun o o' ho => ?_
  cases ho with
  | success hij => exact c.done (.success hij)
  | failure position _ => exact c.done (.failure position why)

theorem Parsers.transform (hp : c.Parsers p p') (f : Value → Except Fault Value) :
    c.Parsers (Parser.transform p f) (Parser.transform p' f) := by
  intro i j h
  refine c.onSuccess (hp i j h) fun v rest rest' hrest => ?_
  refine (Run.Alike.ofExcept c.traces _).andThen c.traces fun w _ heq => heq ▸ ?_
  exact c.done (.success hrest)

theorem Parsers.orElse (hp : c.Parsers p p') (v : Value) :
    c.Parsers (Parser.orElse p v) (Parser.orElse p' v) := by
  intro i j h
  refine Run.Alike.andThen c.traces (hp i j h) fun o o' ho => ?_
  cases ho with
  | success hij => exact c.done (.success hij)
  | failure _ _ => exact c.result v i j h

private theorem tryEach {n : Nat} {branch branch' : Fin n → Parser}
    (hbranch : ∀ k, c.Parsers (branch k) (branch' k)) (h : c.Related i j) {last last' : Outcome}
    (hlast : c.Outcomes last last') :
    c.Runs (Parser.tryEach i last (List.ofFn branch))
      (Parser.tryEach j last' (List.ofFn branch')) := by
  induction n generalizing last last' with
  | zero =>
    rw [List.ofFn_zero, List.ofFn_zero]
    exact c.done hlast
  | succ n ih =>
    rw [List.ofFn_succ, List.ofFn_succ]
    refine Run.Alike.andThen c.traces (hbranch 0 i j h) fun o o' ho => ?_
    cases ho with
    | success hij => exact c.done (.success hij)
    | failure position why => exact ih (fun k => hbranch k.succ) (.failure position why)

theorem Parsers.choice {n : Nat} {branch branch' : Fin n → Parser} (hp : c.Parsers p p')
    (hbranch : ∀ k, c.Parsers (branch k) (branch' k)) :
    c.Parsers (Parser.choice p (List.ofFn branch)) (Parser.choice p' (List.ofFn branch')) := by
  intro i j h
  refine Run.Alike.andThen c.traces (hp i j h) fun o o' ho => ?_
  cases ho with
  | success hij => exact c.done (.success hij)
  | failure position why => exact tryEach hbranch h (.failure position why)

/-- Lists of results with inputs left behind them correspond. -/
private def Found (c : Correspondence) (a b : List Value × Input) : Prop :=
  a.1 = b.1 ∧ c.Related a.2 b.2

private theorem rounds (hp : c.Parsers p p') (h : c.Related i j) :
    Run.Alike c.Traces c.Found (Parser.rounds p i) (Parser.rounds p' j) := by
  induction hn : i.left using Nat.strongRecOn generalizing i j with
  | ind n ih =>
    rw [Parser.rounds, Parser.rounds]
    refine Run.Alike.andThen c.traces (hp i j h) fun o o' ho => ?_
    cases ho with
    | failure position why => exact .done c.traces ⟨rfl, h⟩
    | success hrest =>
      dsimp only
      rw [← c.left h, ← c.left hrest]
      split
      · next hlt =>
        refine (ih _ (hn ▸ hlt) hrest rfl).andThen c.traces fun a b hab => ?_
        exact .done c.traces ⟨congrArg (List.cons _) hab.1, hab.2⟩
      · exact .stop c.traces _

theorem Parsers.many (hp : c.Parsers p p') : c.Parsers (Parser.many p) (Parser.many p') := by
  intro i j h
  refine (rounds hp h).andThen c.traces fun a b hab => ?_
  obtain ⟨vs, rest⟩ := a
  obtain ⟨vs', rest'⟩ := b
  obtain ⟨rfl, hrest⟩ := hab
  exact c.done (.success hrest)

private theorem separatedRounds {separator separator' : Parser} (hp : c.Parsers p p')
    (hs : c.Parsers separator separator') (h : c.Related i j) :
    Run.Alike c.Traces c.Found (Parser.separatedRounds p separator i)
      (Parser.separatedRounds p' separator' j) := by
  induction hn : i.left using Nat.strongRecOn generalizing i j with
  | ind n ih =>
    rw [Parser.separatedRounds, Parser.separatedRounds]
    refine Run.Alike.andThen c.traces (hs i j h) fun o o' ho => ?_
    cases ho with
    | failure position why => exact .done c.traces ⟨rfl, h⟩
    | success hmid =>
      refine Run.Alike.andThen c.traces (hp _ _ hmid) fun o o' ho => ?_
      cases ho with
      | failure position why => exact .done c.traces ⟨rfl, h⟩
      | success hrest =>
        dsimp only
        rw [← c.left h, ← c.left hrest]
        split
        · next hlt =>
          refine (ih _ (hn ▸ hlt) hrest rfl).andThen c.traces fun a b hab => ?_
          exact .done c.traces ⟨congrArg (List.cons _) hab.1, hab.2⟩
        · exact .stop c.traces _

theorem Parsers.sepBy1 {separator separator' : Parser} (hp : c.Parsers p p')
    (hs : c.Parsers separator separator') :
    c.Parsers (Parser.sepBy1 p separator) (Parser.sepBy1 p' separator') := by
  intro i j h
  refine c.onSuccess (hp i j h) fun v mid mid' hmid => ?_
  refine (separatedRounds hp hs hmid).andThen c.traces fun a b hab => ?_
  obtain ⟨vs, rest⟩ := a
  obtain ⟨vs', rest'⟩ := b
  obtain ⟨rfl, hrest⟩ := hab
  exact c.done (.success hrest)

private theorem described (h : c.Related i j) : ∃ t, describeNext i = .ok t := by
  unfold describeNext
  split
  · exact ⟨_, rfl⟩
  · next hend =>
    obtain ⟨v, hv, -⟩ := c.next h (by simpa using hend)
    exact ⟨describeElement v, by simp [hv, Except.map]⟩

/-- A label changes no outcome, since describing the next element is always possible. -/
theorem Parsers.unlabelled (hp : c.Parsers p q) (label : Text) :
    c.Parsers (Parser.labelled p label) q := by
  intro i j h
  unfold Parser.labelled
  split
  · next htraced =>
    obtain ⟨t, ht⟩ := described h
    have hattempt : Run.Alike c.Traces (fun _ _ => True) (Run.emit (.attempt label i t))
        (Run.done ()) := ⟨c.event h htraced _, .ok trivial⟩
    have hq : q j = (Run.done ()).andThen fun _ => (q j).andThen Run.done := by simp
    simp only [ht, Run.bind_eq_andThen, Run.ofExcept_ok, Run.done_andThen]
    rw [hq]
    refine hattempt.andThen c.traces fun _ _ _ => ?_
    refine Run.Alike.andThen c.traces (hp i j h) fun o o' ho => ?_
    cases ho with
    | success hrest =>
      obtain ⟨t', ht'⟩ := described hrest
      simp only [ht', Run.ofExcept_ok, Run.done_andThen]
      exact ⟨c.event h htraced _, .ok (.success hrest)⟩
    | failure position why => exact ⟨c.event h htraced _, .ok (.failure position why)⟩
  · exact hp i j h

end Correspondence

end Descent
