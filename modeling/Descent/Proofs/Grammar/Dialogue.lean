import Descent.Proofs.Parser.Faults
import Descent.Proofs.Parser.Forward

/-!
Runs as dialogues.  A run of a grammar enters one cell after another, and which cell comes next, and
on which input, depends only on the outcomes so far.  So a run is a tree of entries, and the same
tree serves whatever the cells do.  A fault of a cell ends it, and no entry leads out of the input of
the run as long as the cells only move forward.
-/

set_option autoImplicit false
set_option relaxedAutoImplicit false

namespace Descent

/-- A computation that enters cells and goes on with what they return. -/
inductive Dialogue (α : Type) where
  | done (a : α)
  | stop (f : Fault)
  | emit (e : Event) (next : Dialogue α)
  | enter (cell : CellId) (i : Input) (next : Outcome → Dialogue α)

namespace Dialogue

variable {α β : Type}

/-- The run of a dialogue, given what entering a cell does. -/
def run (onEnter : CellId → Parser) : Dialogue α → Run α
  | done a => .done a
  | stop f => .stop f
  | emit e next => (Run.emit e).andThen fun _ => next.run onEnter
  | enter cell i next => (onEnter cell i).andThen fun o => (next o).run onEnter

/-- One dialogue after the other. -/
def andThen (next : α → Dialogue β) : Dialogue α → Dialogue β
  | done a => next a
  | stop f => stop f
  | emit e d => emit e (d.andThen next)
  | enter cell i d => enter cell i fun o => (d o).andThen next

theorem run_andThen (onEnter : CellId → Parser) (d : Dialogue α) (next : α → Dialogue β) :
    (d.andThen next).run onEnter = (d.run onEnter).andThen fun a => (next a).run onEnter := by
  induction d with
  | done a => simp only [andThen, run, Run.done_andThen]
  | stop f => rfl
  | emit e d ih => simp only [andThen, run, ih, Run.andThen_assoc]
  | enter cell i d ih => simp only [andThen, run, ih, Run.andThen_assoc]

/-- The dialogue that enters no cell. -/
def ofRun (r : Run α) : Dialogue α :=
  r.trace.foldr emit (match r.ending with
    | .ok a => done a
    | .error f => stop f)

theorem run_ofRun (onEnter : CellId → Parser) (r : Run α) : (ofRun r).run onEnter = r := by
  rcases r with ⟨ending, trace⟩
  induction trace with
  | nil => cases ending <;> rfl
  | cons e trace ih =>
    have hcons : (ofRun ⟨ending, e :: trace⟩).run onEnter =
        (Run.emit e).andThen fun _ => (ofRun ⟨ending, trace⟩).run onEnter := rfl
    rw [hcons, ih]
    rfl

/-- The dialogue enters cells on inputs that are reached from a given one only, and its results have
a property.  This is to hold while no cell leads out of an input on which it is entered. -/
def Confined (i : Input) (P : α → Prop) : Dialogue α → Prop
  | done a => P a
  | stop _ => True
  | emit _ next => next.Confined i P
  | enter _ j next => i.Reaches j ∧ ∀ o, o.Within j → (next o).Confined i P

theorem Confined.andThen {i : Input} {P : α → Prop} {Q : β → Prop} {d : Dialogue α}
    {next : α → Dialogue β} (hd : d.Confined i P) (hnext : ∀ a, P a → (next a).Confined i Q) :
    (d.andThen next).Confined i Q := by
  induction d with
  | done a => exact hnext a hd
  | stop f => trivial
  | emit e d ih => exact ih hd
  | enter cell j d ih => exact ⟨hd.1, fun o ho => ih o (hd.2 o ho)⟩

theorem Confined.later {i j : Input} {P Q : α → Prop} {d : Dialogue α} (hd : d.Confined j P)
    (hij : i.Reaches j) (hPQ : ∀ a, P a → Q a) : d.Confined i Q := by
  induction d with
  | done a => exact hPQ a hd
  | stop f => trivial
  | emit e d ih => exact ih hd
  | enter cell k d ih => exact ⟨hij.trans hd.1, fun o ho => ih o (hd.2 o ho)⟩

theorem confined_ofRun {i : Input} {P : α → Prop} {r : Run α} (h : r.Ensures P) :
    (ofRun r).Confined i P := by
  rcases r with ⟨ending, trace⟩
  induction trace with
  | nil =>
    cases ending with
    | ok a => exact h a rfl
    | error f => trivial
  | cons e trace ih => exact ih h

/-- If two ways to do what cells do differ only where the first one has a certain fault, a dialogue
ends with this fault the first way, or is the same both ways. -/
theorem run_eq_or {onEnter onEnter' : CellId → Parser} {f : Fault}
    (h : ∀ cell i, (onEnter cell i).ending = .error f ∨ onEnter' cell i = onEnter cell i)
    (d : Dialogue α) :
    (d.run onEnter).ending = .error f ∨ d.run onEnter' = d.run onEnter := by
  induction d with
  | done a => exact Or.inr rfl
  | stop f => exact Or.inr rfl
  | emit e d ih =>
    rcases ih with hfault | hsame
    · exact Or.inl hfault
    · exact Or.inr (by simp only [run, hsame])
  | enter cell i d ih =>
    rcases h cell i with hfault | hsame
    · exact Or.inl (Run.ending_andThen_of_error hfault _)
    · simp only [run, hsame]
      rcases onEnter cell i with ⟨f' | o, trace⟩
      · exact Or.inr rfl
      · rcases ih o with hfault | hsame
        · exact Or.inl hfault
        · exact Or.inr (by simp only [Run.andThen, hsame])

end Dialogue

namespace Run

variable {α β : Type} {H : Prop} {i : Input} {P : α → Prop} {Q : β → Prop}

/-- A run that depends on what cells do is a dialogue with them, which is confined to an input under
a condition. -/
def Converses (H : Prop) (i : Input) (P : α → Prop) (r : (CellId → Parser) → Run α) : Prop :=
  ∃ d : Dialogue α, (∀ onEnter, r onEnter = d.run onEnter) ∧ (H → d.Confined i P)

namespace Converses

theorem const {r : Run α} (h : H → r.Ensures P) : Converses H i P fun _ => r :=
  ⟨.ofRun r, fun onEnter => (Dialogue.run_ofRun onEnter r).symm,
    fun hH => Dialogue.confined_ofRun (h hH)⟩

theorem done {a : α} (h : H → P a) : Converses H i P fun _ => Run.done a :=
  const fun hH => .done (h hH)

theorem andThen {r : (CellId → Parser) → Run α} {next : (CellId → Parser) → α → Run β}
    (hr : Converses H i P r) (hnext : ∀ a, Converses (H ∧ P a) i Q fun e => next e a) :
    Converses H i Q fun e => (r e).andThen (next e) := by
  obtain ⟨d, hrun, hconfined⟩ := hr
  obtain ⟨d', hd'⟩ := Classical.skolem.mp hnext
  refine ⟨d.andThen d', fun onEnter => ?_, fun hH => ?_⟩
  · have hnext' : (fun a => (d' a).run onEnter) = next onEnter :=
      funext fun a => ((hd' a).1 onEnter).symm
    rw [Dialogue.run_andThen, hnext', ← hrun]
  · exact (hconfined hH).andThen fun a ha => (hd' a).2 ⟨hH, ha⟩

theorem later {j : Input} {P Q : α → Prop} {r : (CellId → Parser) → Run α}
    (hr : Converses True j P r) (hij : H → i.Reaches j) (hPQ : i.Reaches j → ∀ a, P a → Q a) :
    Converses H i Q r := by
  obtain ⟨d, hrun, hconfined⟩ := hr
  exact ⟨d, hrun, fun hH => (hconfined trivial).later (hij hH) (hPQ (hij hH))⟩

/-- Results with what is left behind them, found from a later input on. -/
theorem found {j : Input} {r : (CellId → Parser) → Run (List Value × Input)}
    (hr : Converses True j (fun found => j.Reaches found.2) r) (hij : H → i.Reaches j) :
    Converses H i (fun found => i.Reaches found.2) r :=
  hr.later hij fun h _ hfound => h.trans hfound

/-- What comes after a success starts where the success ends. -/
theorem onSuccess {r : (CellId → Parser) → Run Outcome}
    {next : (CellId → Parser) → Value → Input → Run Outcome}
    (hr : Converses H i (Outcome.Within i) r)
    (hnext : ∀ v rest, Converses (H ∧ i.Reaches rest) i (Outcome.Within i) fun e => next e v rest) :
    Converses H i (Outcome.Within i) fun e => (r e).onSuccess (next e) := by
  refine hr.andThen fun o => ?_
  cases o with
  | success v rest => exact hnext v rest
  | failure position why => exact done And.right

end Converses

end Run

namespace Parser

open Run (Ensures)

variable {p q p' : (CellId → Parser) → Parser}

/-- On every input the parser is a dialogue with the cells that is confined to the input. -/
def Converses (p : (CellId → Parser) → Parser) : Prop :=
  ∀ i, Run.Converses True i (Outcome.Within i) fun onEnter => p onEnter i

namespace Converses

theorem const {p : Parser} (hp : p.Forward) : Converses fun _ => p :=
  fun i => .const fun _ => hp i

theorem later (hp : Converses p) {H : Prop} {i j : Input} (hij : H → i.Reaches j) :
    Run.Converses H i (Outcome.Within i) fun onEnter => p onEnter j :=
  Run.Converses.later (hp j) hij fun h _ ho => h.within ho

theorem enter (cell : CellId) : Converses fun onEnter => onEnter cell :=
  fun i => ⟨.enter cell i .done, fun _ => (Run.andThen_done _).symm,
    fun _ => ⟨Input.Reaches.refl i, fun _ ho => ho⟩⟩

theorem bind {next : (CellId → Parser) → Value → Parser} (hp : Converses p)
    (hnext : ∀ v, Converses fun onEnter => next onEnter v) :
    Converses fun onEnter => Parser.bind (p onEnter) (next onEnter) :=
  fun i => (hp i).onSuccess fun v _ => (hnext v).later And.right

theorem seq (hp : Converses p) (hq : Converses q) :
    Converses fun onEnter => Parser.seq (p onEnter) (q onEnter) := by
  intro i
  refine (hp i).onSuccess fun v mid => ?_
  exact (hq.later And.right).onSuccess fun w rest => .done And.right

theorem right (hp : Converses p) (hq : Converses q) :
    Converses fun onEnter => Parser.right (p onEnter) (q onEnter) :=
  fun i => (hp i).onSuccess fun _ _ => hq.later And.right

theorem between (ho : Converses p) (hp : Converses q) (hc : Converses p') :
    Converses fun onEnter => Parser.between (p onEnter) (q onEnter) (p' onEnter) := by
  intro i
  simp only [between_eq]
  refine (ho i).onSuccess fun _ afterOpening => ?_
  refine (hp.later And.right).onSuccess fun v afterBody => ?_
  exact (hc.later And.right).onSuccess fun _ rest => .done And.right

theorem cause (hp : Converses p) (why : Text) :
    Converses fun onEnter => Parser.cause (p onEnter) why := by
  intro i
  refine (hp i).andThen fun o => ?_
  cases o with
  | success v rest => exact .done And.right
  | failure position _ => exact .done And.right

theorem transform (hp : Converses p) (f : Value → Except Fault Value) :
    Converses fun onEnter => Parser.transform (p onEnter) f := by
  intro i
  refine (hp i).onSuccess fun v rest => .const fun h => ?_
  exact (Ensures.true _).andThen fun w _ => .done h.2

theorem orElse (hp : Converses p) (v : Value) :
    Converses fun onEnter => Parser.orElse (p onEnter) v := by
  intro i
  refine (hp i).andThen fun o => ?_
  cases o with
  | success w rest => exact .done And.right
  | failure _ _ => exact .done fun _ => Input.Reaches.refl i

private theorem tryEach {n : Nat} {branch : Fin n → (CellId → Parser) → Parser}
    (hbranch : ∀ k, Converses (branch k)) {H : Prop} {i : Input} {last : Outcome}
    (hlast : H → last.Within i) :
    Run.Converses H i (Outcome.Within i) fun onEnter =>
      Parser.tryEach i last (List.ofFn fun k => branch k onEnter) := by
  induction n generalizing H last with
  | zero =>
    simp only [List.ofFn_zero, Parser.tryEach]
    exact .done hlast
  | succ n ih =>
    simp only [List.ofFn_succ, Parser.tryEach]
    refine ((hbranch 0).later fun _ => Input.Reaches.refl i).andThen fun o => ?_
    cases o with
    | success v after => exact .done And.right
    | failure position why => exact ih (fun k => hbranch k.succ) And.right

theorem choice {n : Nat} {branch : Fin n → (CellId → Parser) → Parser} (hp : Converses p)
    (hbranch : ∀ k, Converses (branch k)) :
    Converses fun onEnter => Parser.choice (p onEnter) (List.ofFn fun k => branch k onEnter) := by
  intro i
  refine (hp i).andThen fun o => ?_
  cases o with
  | success v after => exact .done And.right
  | failure position why => exact tryEach hbranch And.right

private theorem rounds (hp : Converses p) (i : Input) :
    Run.Converses True i (fun found => i.Reaches found.2) fun onEnter =>
      Parser.rounds (p onEnter) i := by
  -- On what is left to read: whether a round has read anything does not depend on the cells.
  induction hn : i.left using Nat.strongRecOn generalizing i with
  | ind n ih =>
    have hloop := fun onEnter => Parser.rounds.eq_1 (p onEnter) i
    simp only [hloop]
    refine (hp i).andThen fun o => ?_
    cases o with
    | failure position why => exact .done fun _ => Input.Reaches.refl i
    | success v rest =>
      dsimp only
      split
      · next hlt =>
        refine ((ih _ (hn ▸ hlt) rest rfl).found And.right).andThen fun found => ?_
        exact .done And.right
      · exact .const fun _ => .stop _

theorem many (hp : Converses p) : Converses fun onEnter => Parser.many (p onEnter) :=
  fun i => (rounds hp i).andThen fun _ => .done And.right

private theorem separatedRounds (hp : Converses p) (hs : Converses q) (i : Input) :
    Run.Converses True i (fun found => i.Reaches found.2) fun onEnter =>
      Parser.separatedRounds (p onEnter) (q onEnter) i := by
  induction hn : i.left using Nat.strongRecOn generalizing i with
  | ind n ih =>
    have hloop := fun onEnter => Parser.separatedRounds.eq_1 (p onEnter) (q onEnter) i
    simp only [hloop]
    refine (hs i).andThen fun o => ?_
    cases o with
    | failure position why => exact .done fun _ => Input.Reaches.refl i
    | success _ mid =>
      refine (hp.later And.right).andThen fun o => ?_
      cases o with
      | failure position why => exact .done fun _ => Input.Reaches.refl i
      | success v rest =>
        dsimp only
        split
        · next hlt =>
          refine ((ih _ (hn ▸ hlt) rest rfl).found And.right).andThen fun found => ?_
          exact .done And.right
        · exact .const fun _ => .stop _

theorem sepBy1 (hp : Converses p) (hs : Converses q) :
    Converses fun onEnter => Parser.sepBy1 (p onEnter) (q onEnter) := by
  intro i
  refine (hp i).onSuccess fun v rest => ?_
  refine ((separatedRounds hp hs rest).found And.right).andThen fun found => ?_
  exact .done And.right

theorem labelled (hp : Converses p) (label : Text) :
    Converses fun onEnter => Parser.labelled (p onEnter) label := by
  intro i
  simp only [Parser.labelled]
  split
  · refine (Run.Converses.const fun _ => Ensures.true _).andThen fun next => ?_
    refine (Run.Converses.const fun _ => Ensures.true _).andThen fun _ => ?_
    refine (hp.later fun _ => Input.Reaches.refl i).andThen fun o => .const fun h => ?_
    cases o with
    | success v rest =>
      exact (Ensures.true _).andThen fun _ _ => (Ensures.true _).andThen fun _ _ => .done h.2
    | failure position why =>
      exact (Ensures.true _).andThen fun _ _ => (Ensures.true _).andThen fun _ _ => .done h.2
  · exact hp i

end Converses

end Parser

namespace Grammar

/-- A grammar is a dialogue with the cells. -/
theorem converses (g : Grammar) : Parser.Converses fun onEnter => g.parser onEnter := by
  induction g with
  | result v => exact .const (.result v)
  | fail => exact .const (.fail _)
  | fault f => exact .const (.fault f)
  | item => exact .const .item
  | sat test => exact .const (.sat test)
  | lit s => exact .const (.lit s)
  | pattern source p => exact .const (.pattern source p)
  | eof => exact .const .eof
  | bind g next ih ihnext => exact ih.bind ihnext
  | seq g h ihg ihh => exact ihg.seq ihh
  | right g h ihg ihh => exact ihg.right ihh
  | between g h k ihg ihh ihk => exact ihg.between ihh ihk
  | cause g why ih => exact ih.cause why
  | transform g f ih => exact ih.transform f
  | orElse g v ih => exact ih.orElse v
  | choice more branch ih => exact (ih 0).choice fun k => ih k.succ
  | many g ih => exact ih.many
  | sepBy1 g separator ihg ihs => exact ihg.sepBy1 ihs
  | labelled g label ih => exact ih.labelled label
  | enter cell => exact .enter cell

/-- The run of a grammar on an input is one dialogue, whatever entering a cell does, and the dialogue
is confined to the input. -/
theorem exists_dialogue (g : Grammar) (i : Input) :
    ∃ d : Dialogue Outcome, (∀ onEnter, g.parser onEnter i = d.run onEnter) ∧
      d.Confined i (Outcome.Within i) := by
  obtain ⟨d, hrun, hconfined⟩ := g.converses i
  exact ⟨d, hrun, hconfined trivial⟩

/-- If two ways to do what cells do differ only where the first one has a certain fault, a run ends
with this fault the first way, or is the same both ways. -/
theorem parser_eq_or {onEnter onEnter' : CellId → Parser} {f : Fault}
    (h : ∀ cell i, (onEnter cell i).ending = .error f ∨ onEnter' cell i = onEnter cell i)
    (g : Grammar) (i : Input) :
    (g.parser onEnter i).ending = .error f ∨ g.parser onEnter' i = g.parser onEnter i := by
  obtain ⟨d, hrun, -⟩ := g.exists_dialogue i
  rw [hrun, hrun]
  exact d.run_eq_or h

end Grammar

end Descent
