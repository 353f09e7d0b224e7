import Descent.Proofs.Parser.Rules
import Descent.Proofs.Pattern.Progress
import Descent.Proofs.Sequence.Slice
import Descent.Store

/-!
Parsers only move forward.  A success leaves the same data at a position that is not before the one
where the parser began, and not past the end unless the parser began there; a failure reports a
position between the same bounds.  Every grammar over every store is such a parser, and therefore
its repetitions end exactly when a round leaves the position where it was.
-/

set_option autoImplicit false
set_option relaxedAutoImplicit false

namespace Descent

/-- A position lies between that of an input and the end of its data, or is that of the input. -/
def Input.Spans (i : Input) (position : Int) : Prop :=
  i.position ≤ position ∧ position ≤ max i.position i.data.length

/-- An input is another one after some elements have been read. -/
structure Input.Reaches (i j : Input) : Prop where
  data : j.data = i.data
  traced : j.traced = i.traced
  position : i.Spans j.position

/-- An outcome does not lead out of an input. -/
def Outcome.Within (i : Input) : Outcome → Prop
  | .success _ rest => i.Reaches rest
  | .failure position _ => i.Spans position

/-- A parser that never leads out of its input. -/
def Parser.Forward (p : Parser) : Prop :=
  ∀ i, (p i).Ensures (Outcome.Within i)

namespace Input

variable {i j k : Input}

theorem Spans.self (i : Input) : i.Spans i.position :=
  ⟨Int.le_refl _, Int.le_max_left _ _⟩

theorem Reaches.refl (i : Input) : i.Reaches i :=
  ⟨rfl, rfl, Spans.self i⟩

theorem Reaches.spans (h : i.Reaches j) {position : Int} (hj : j.Spans position) :
    i.Spans position := by
  obtain ⟨hdata, -, hlow, hhigh⟩ := h
  obtain ⟨hlow', hhigh'⟩ := hj
  rw [hdata] at hhigh'
  exact ⟨by omega, by omega⟩

theorem Reaches.trans (hij : i.Reaches j) (hjk : j.Reaches k) : i.Reaches k :=
  ⟨hjk.data.trans hij.data, hjk.traced.trans hij.traced, hij.spans hjk.position⟩

theorem Reaches.within (h : i.Reaches j) {o : Outcome} (ho : o.Within j) : o.Within i := by
  cases o with
  | success v rest => exact h.trans ho
  | failure position why => exact h.spans ho

/-- An input that is reached differs in its position only. -/
theorem Reaches.eq_move (h : i.Reaches j) : j = { i with position := j.position } := by
  rcases j with ⟨data, position, traced⟩
  obtain ⟨rfl, rfl, -⟩ := h
  rfl

theorem reaches_move {position : Int} (h : i.Spans position) :
    i.Reaches { i with position := position } :=
  ⟨rfl, rfl, h⟩

theorem reaches_advance {n : Nat} (h : i.position + n ≤ max i.position i.data.length) :
    i.Reaches (i.advance n) :=
  ⟨rfl, rfl, by simp only [advance]; omega, h⟩

/-- Behind a position that is reached, less is left exactly if the position is another one. -/
theorem Reaches.left_lt_iff (h : i.Reaches j) : j.left < i.left ↔ j.position ≠ i.position := by
  obtain ⟨hdata, -, hlow, hhigh⟩ := h
  simp only [left, hdata]
  omega

theorem Reaches.left_le (h : i.Reaches j) : j.left ≤ i.left := by
  obtain ⟨hdata, -, hlow, -⟩ := h
  simp only [left, hdata]
  omega

end Input

namespace Parser

variable {p q : Parser}

theorem Forward.result (v : Value) : (result v).Forward :=
  fun i => .done (Input.Reaches.refl i)

theorem Forward.fail (why : Text) : (fail why).Forward :=
  fun i => .done (Input.Spans.self i)

theorem Forward.fault (f : Fault) : (fault f).Forward :=
  fun _ => .stop f

private theorem ensures_item {i : Input} (hend : i.atEnd = false) (v : Value) :
    (Parser.result v (i.advance 1)).Ensures (Outcome.Within i) := by
  refine .done (Input.reaches_advance (n := 1) ?_)
  simp only [Input.atEnd, decide_eq_false_iff_not] at hend
  omega

theorem Forward.item : item.Forward := by
  intro i
  unfold Parser.item
  split
  · exact Forward.fail _ i
  · next hend => exact (Run.Ensures.true _).andThen fun v _ => ensures_item (by simpa using hend) v

theorem Forward.sat (test : Value → Except Fault Bool) : (sat test).Forward := by
  intro i
  unfold Parser.sat
  split
  · exact Forward.fail _ i
  · next hend =>
    refine (Run.Ensures.true _).andThen fun v _ => (Run.Ensures.true _).andThen fun passed _ => ?_
    split
    · exact ensures_item (by simpa using hend) v
    · exact Forward.fail _ i

theorem Forward.lit (s : Sequence) : (lit s).Forward := by
  intro i
  unfold Parser.lit
  split
  · next hagrees =>
    have hfull : (i.window s.length).length = s.length := Sequence.length_eq_of_agrees hagrees
    exact .done (Input.reaches_advance (Sequence.add_le_of_length_slice hfull))
  · exact Forward.fail _ i

theorem Forward.pattern (source : Text) (shape : Pattern) : (pattern source shape).Forward := by
  intro i
  unfold Parser.pattern
  split
  · next t hrest =>
    split
    · next found hfound =>
      obtain ⟨after, rfl⟩ := Pattern.eq_append_of_matched? hfound
      have hleft : i.position + (i.rest.length : Int) ≤ max i.position i.data.length :=
        Sequence.add_length_sliceFrom_le i.data i.position
      have hlength : found.length ≤ i.rest.length := by simp [hrest, Sequence.length]
      exact .done (Input.reaches_advance (by omega))
    · exact Forward.fail _ i
  · exact .stop _

theorem Forward.eof : eof.Forward := by
  intro i
  unfold Parser.eof
  split
  · exact Forward.result _ i
  · exact Forward.fail _ i

/-- What goes on from an input that has been reached does not lead out of the first one. -/
private theorem ensures_onSuccess {i : Input} {r : Run Outcome}
    {next : Value → Input → Run Outcome} (hr : r.Ensures (Outcome.Within i))
    (hnext : ∀ v rest, i.Reaches rest → (next v rest).Ensures (Outcome.Within i)) :
    (r.onSuccess next).Ensures (Outcome.Within i) :=
  hr.onSuccess (fun _ _ h => h) hnext

theorem Forward.from (hp : p.Forward) {i j : Input} (h : i.Reaches j) :
    (p j).Ensures (Outcome.Within i) :=
  (hp j).mono fun _ ho => h.within ho

theorem Forward.bind {next : Value → Parser} (hp : p.Forward) (hnext : ∀ v, (next v).Forward) :
    (bind p next).Forward :=
  fun i => ensures_onSuccess (hp i) fun v _ h => (hnext v).from h

theorem Forward.seq (hp : p.Forward) (hq : q.Forward) : (seq p q).Forward := by
  intro i
  refine ensures_onSuccess (hp i) fun v mid hmid => ?_
  exact ensures_onSuccess (hq.from hmid) fun w rest hrest => .done hrest

theorem Forward.right (hp : p.Forward) (hq : q.Forward) : (right p q).Forward :=
  fun i => ensures_onSuccess (hp i) fun _ _ h => hq.from h

theorem Forward.between {opening closing : Parser} (ho : opening.Forward) (hp : p.Forward)
    (hc : closing.Forward) : (between opening p closing).Forward := by
  intro i
  rw [between_eq]
  refine ensures_onSuccess (ho i) fun _ afterOpening h₁ => ?_
  refine ensures_onSuccess (hp.from h₁) fun v afterBody h₂ => ?_
  exact ensures_onSuccess (hc.from h₂) fun _ rest h₃ => .done h₃

theorem Forward.cause (hp : p.Forward) (why : Text) : (cause p why).Forward := by
  intro i
  refine (hp i).andThen fun o ho => ?_
  cases o with
  | success v rest => exact .done ho
  | failure position _ => exact .done ho

theorem Forward.transform (hp : p.Forward) (f : Value → Except Fault Value) :
    (transform p f).Forward := by
  intro i
  refine ensures_onSuccess (hp i) fun v rest h => ?_
  exact (Run.Ensures.true _).andThen fun w _ => .done h

theorem Forward.orElse (hp : p.Forward) (v : Value) : (orElse p v).Forward := by
  intro i
  refine (hp i).andThen fun o ho => ?_
  cases o with
  | success w rest => exact .done ho
  | failure _ _ => exact Forward.result v i

private theorem ensures_tryEach {i : Input} {ps : List Parser} (hps : ∀ p ∈ ps, p.Forward)
    {last : Outcome} (hlast : last.Within i) : (tryEach i last ps).Ensures (Outcome.Within i) := by
  induction ps generalizing last with
  | nil => exact .done hlast
  | cons p ps ih =>
    rw [tryEach]
    refine (hps p List.mem_cons_self i).andThen fun o ho => ?_
    cases o with
    | success v after => exact .done ho
    | failure position why => exact ih (fun p hp => hps p (List.mem_cons_of_mem _ hp)) ho

theorem Forward.choice {others : List Parser} (hp : p.Forward)
    (hothers : ∀ q ∈ others, q.Forward) : (choice p others).Forward := by
  intro i
  refine (hp i).andThen fun o ho => ?_
  cases o with
  | success v after => exact .done ho
  | failure position why => exact ensures_tryEach hothers ho

private theorem ensures_rounds (hp : p.Forward) (i : Input) :
    (rounds p i).Ensures fun found => i.Reaches found.2 := by
  -- On what is left to read: a round that leaves as much as before is a fault, not another round.
  induction h : i.left using Nat.strongRecOn generalizing i with
  | ind n ih =>
    rw [rounds]
    refine (hp i).andThen fun o ho => ?_
    cases o with
    | failure position why => exact .done (Input.Reaches.refl i)
    | success v rest =>
      dsimp only
      split
      · next hlt =>
        refine (ih _ (h ▸ hlt) rest rfl).andThen fun found hfound => ?_
        exact .done (Input.Reaches.trans ho hfound)
      · exact .stop _

theorem Forward.many (hp : p.Forward) : (many p).Forward :=
  fun i => (ensures_rounds hp i).andThen fun _ h => .done h

private theorem ensures_separatedRounds {separator : Parser} (hp : p.Forward)
    (hs : separator.Forward) (i : Input) :
    (separatedRounds p separator i).Ensures fun found => i.Reaches found.2 := by
  induction h : i.left using Nat.strongRecOn generalizing i with
  | ind n ih =>
    rw [separatedRounds]
    refine (hs i).andThen fun o ho => ?_
    cases o with
    | failure position why => exact .done (Input.Reaches.refl i)
    | success _ mid =>
      refine (hp.from ho).andThen fun o ho => ?_
      cases o with
      | failure position why => exact .done (Input.Reaches.refl i)
      | success v rest =>
        dsimp only
        split
        · next hlt =>
          refine (ih _ (h ▸ hlt) rest rfl).andThen fun found hfound => ?_
          exact .done (Input.Reaches.trans ho hfound)
        · exact .stop _

theorem Forward.sepBy1 {separator : Parser} (hp : p.Forward) (hs : separator.Forward) :
    (sepBy1 p separator).Forward := by
  intro i
  refine ensures_onSuccess (hp i) fun v rest h => ?_
  exact (ensures_separatedRounds hp hs rest).andThen fun found hfound => .done (h.trans hfound)

theorem Forward.labelled (hp : p.Forward) (label : Text) : (labelled p label).Forward := by
  intro i
  unfold Parser.labelled
  split
  · refine (Run.Ensures.true _).andThen fun _ _ => (Run.Ensures.true _).andThen fun _ _ => ?_
    refine (hp i).andThen fun o ho => ?_
    cases o with
    | success v rest =>
      exact (Run.Ensures.true _).andThen fun _ _ => (Run.Ensures.true _).andThen fun _ _ => .done ho
    | failure position why =>
      exact (Run.Ensures.true _).andThen fun _ _ => (Run.Ensures.true _).andThen fun _ _ => .done ho
  · exact hp i

/-- A repetition of a parser that moves forward stops with a fault exactly if a round leaves the
position where it was. -/
theorem Forward.rounds_eq (hp : p.Forward) (i : Input) :
    rounds p i = (p i).andThen fun
      | .failure _ _ => .done ([], i)
      | .success v rest =>
        if rest.position = i.position then .stop (.endlessRepetition .many)
        else (rounds p rest).andThen fun (vs, last) => .done (v :: vs, last) := by
  rw [rounds]
  refine (hp i).andThen_congr fun o ho => ?_
  cases o with
  | failure position why => rfl
  | success v rest => simp only [Input.Reaches.left_lt_iff ho, ne_eq, ite_not]

/-- The same of a repetition with separators: a round is a separator and what follows it. -/
theorem Forward.separatedRounds_eq {separator : Parser} (hp : p.Forward) (hs : separator.Forward)
    (i : Input) :
    separatedRounds p separator i = (separator i).andThen fun
      | .failure _ _ => .done ([], i)
      | .success _ mid =>
        (p mid).andThen fun
          | .failure _ _ => .done ([], i)
          | .success v rest =>
            if rest.position = i.position then .stop (.endlessRepetition .separated)
            else (separatedRounds p separator rest).andThen fun (vs, last) =>
              .done (v :: vs, last) := by
  rw [separatedRounds]
  refine (hs i).andThen_congr fun o ho => ?_
  cases o with
  | failure position why => rfl
  | success _ mid =>
    refine (hp.from ho).andThen_congr fun o ho => ?_
    cases o with
    | failure position why => rfl
    | success v rest => simp only [Input.Reaches.left_lt_iff ho, ne_eq, ite_not]

end Parser

namespace Grammar

/-- A grammar moves forward if all cells that it enters do. -/
theorem forward {onEnter : CellId → Parser} (hcells : ∀ cell, (onEnter cell).Forward)
    (g : Grammar) : (g.parser onEnter).Forward := by
  induction g with
  | result v => exact .result v
  | fail => exact .fail _
  | fault f => exact .fault f
  | item => exact .item
  | sat test => exact .sat test
  | lit s => exact .lit s
  | pattern source p => exact .pattern source p
  | eof => exact .eof
  | bind g next ih ihnext => exact .bind ih ihnext
  | seq g h ihg ihh => exact .seq ihg ihh
  | right g h ihg ihh => exact .right ihg ihh
  | between g h k ihg ihh ihk => exact .between ihg ihh ihk
  | cause g why ih => exact .cause ih why
  | transform g f ih => exact .transform ih f
  | orElse g v ih => exact .orElse ih v
  | choice more branch ih =>
    refine .choice (ih 0) fun q hq => ?_
    obtain ⟨k, rfl⟩ := List.mem_ofFn.mp hq
    exact ih k.succ
  | many g ih => exact .many ih
  | sepBy1 g separator ihg ihs => exact .sepBy1 ihg ihs
  | labelled g label ih => exact .labelled ih label
  | enter cell => exact hcells cell

end Grammar

/-- Entering a cell moves forward under any limit, whatever the cells hold. -/
theorem Store.forward_enter (s : Store) (limit : Nat) (cell : CellId) :
    (s.enter limit cell).Forward := by
  -- Cells may enter one another in circles, so the induction is on the limit and not on grammars.
  induction limit generalizing cell with
  | zero => exact .fault _
  | succ limit ih =>
    rw [Store.enter]
    split
    · exact .fault _
    · next g _ => exact g.forward ih

theorem Grammar.forward_run (g : Grammar) (s : Store) (limit : Nat) : (g.run s limit).Forward :=
  g.forward (s.forward_enter limit)

/-- Whatever a grammar makes of an input at whatever position, a success leaves the same data and
trace setting and a position not before the first and not past the end, unless the first is; the
position of a failure has the same bounds. -/
theorem Grammar.run_within_bounds (g : Grammar) (s : Store) (limit : Nat) (i : Input) :
    match (g.run s limit i).ending with
    | .ok (.success _ rest) =>
      rest.data = i.data ∧ rest.traced = i.traced ∧
        i.position ≤ rest.position ∧ rest.position ≤ max i.position i.data.length
    | .ok (.failure position _) =>
      i.position ≤ position ∧ position ≤ max i.position i.data.length
    | .error _ => True := by
  have hwithin := g.forward_run s limit i
  split
  · next v rest hok =>
    obtain ⟨hdata, htraced, hlow, hhigh⟩ := hwithin _ hok
    exact ⟨hdata, htraced, hlow, hhigh⟩
  · next position why hok => exact hwithin _ hok
  · trivial

end Descent
