import Descent.Proofs.Grammar.Dependence
import Descent.Proofs.Grammar.Dialogue

/-!
Which cells a run enters, at which positions, and which entries are active together.

A run is a function of what its cells do, so what it enters is found by a probe: one cell does
something else at one position.  No parser turns a fault into something else.  So if the probe is a
fault, the run either ends with it, and then the cell has been entered there, or is the same
whatever the cell does there.
-/

set_option autoImplicit false
set_option relaxedAutoImplicit false

namespace Descent

/-- What entering cells does if one cell does something else at one position. -/
def redirect (onEnter : CellId → Parser) (cell : CellId) (position : Int) (q : Parser) :
    CellId → Parser :=
  fun c i => if c = cell ∧ i.position = position then q i else onEnter c i

namespace Dialogue

variable {α : Type} {onEnter : CellId → Parser} {cell : CellId} {position : Int}

/-- The dialogue enters a cell at a position. -/
def Enters (onEnter : CellId → Parser) (cell : CellId) (position : Int) : Dialogue α → Prop
  | done _ => False
  | stop _ => False
  | emit _ next => next.Enters onEnter cell position
  | enter c i next => (c = cell ∧ i.position = position) ∨
    ∃ o, (onEnter c i).ending = .ok o ∧ (next o).Enters onEnter cell position

theorem ending_redirect {d : Dialogue α} (h : d.Enters onEnter cell position) (f : Fault) :
    (d.run (redirect onEnter cell position (Parser.fault f))).ending = .error f := by
  induction d with
  | done a => exact h.elim
  | stop f => exact h.elim
  | emit e d ih => exact ih h
  | enter c i d ih =>
    by_cases hhere : c = cell ∧ i.position = position
    · refine Run.ending_andThen_of_error ?_ _
      rw [redirect, if_pos hhere]
      rfl
    · obtain ⟨o, hok, hd⟩ := h.resolve_left hhere
      rw [run, redirect, if_neg hhere, Run.ending_andThen_of_ok hok]
      exact ih o hd

theorem run_redirect {d : Dialogue α} (h : ¬d.Enters onEnter cell position) (q : Parser) :
    d.run (redirect onEnter cell position q) = d.run onEnter := by
  induction d with
  | done a => rfl
  | stop f => rfl
  | emit e d ih => exact congrArg _ (funext fun _ => ih h)
  | enter c i d ih =>
    obtain ⟨hhere, hlater⟩ := not_or.mp h
    rw [run, run, redirect, if_neg hhere]
    rcases hrun : onEnter c i with ⟨f | o, trace⟩
    · rfl
    · have hsame := ih o fun hd => hlater ⟨o, by rw [hrun], hd⟩
      simp only [Run.andThen, hsame]

/-- A dialogue enters the same cells whatever these do, as long as it does not end with a fault by
which the ways to do it differ. -/
theorem Enters.transfer {onEnter' : CellId → Parser} {f : Fault} {d : Dialogue α}
    (h : ∀ c i, (onEnter c i).ending = .error f ∨ (onEnter' c i).ending = .error f ∨
      onEnter' c i = onEnter c i)
    (hrun : (d.run onEnter').ending ≠ .error f) (hd : d.Enters onEnter cell position) :
    d.Enters onEnter' cell position := by
  induction d with
  | done a => exact hd
  | stop f => exact hd
  | emit e d ih => exact ih hrun hd
  | enter c i d ih =>
    refine hd.imp_right fun ⟨o, hok, hlater⟩ => ?_
    rcases h c i with hfault | hfault | hsame
    · rw [hfault] at hok
      cases hok
    · exact (hrun (Run.ending_andThen_of_error hfault _)).elim
    · rw [← hsame] at hok
      rw [run, Run.ending_andThen_of_ok hok] at hrun
      exact ⟨o, hok, ih o hrun hlater⟩

/-- A confined dialogue enters a cell within the input, and a fault of the cell there ends it. -/
theorem Enters.ending {i : Input} {P : α → Prop} {d : Dialogue α}
    (hcells : ∀ c, (onEnter c).Forward) (hconfined : d.Confined i P)
    (hd : d.Enters onEnter cell position) :
    i.Spans position ∧ ∀ f, (onEnter cell { i with position := position }).ending = .error f →
      (d.run onEnter).ending = .error f := by
  induction d with
  | done a => exact hd.elim
  | stop f => exact hd.elim
  | emit e d ih => exact ih hconfined hd
  | enter c j d ih =>
    obtain ⟨hreaches, hlater⟩ := hconfined
    rcases hd with ⟨rfl, rfl⟩ | ⟨o, hok, hd⟩
    · refine ⟨hreaches.position, fun f hfault => Run.ending_andThen_of_error ?_ _⟩
      rwa [hreaches.eq_move]
    · rw [run, Run.ending_andThen_of_ok hok]
      exact ih o (hlater o (hcells c j o hok)) hd

end Dialogue

namespace Grammar

variable {onEnter : CellId → Parser} {cell : CellId} {position : Int}

/-- A run enters a cell at a position: with whatever fault the cell ends there, the run ends. -/
def Enters (g : Grammar) (onEnter : CellId → Parser) (i : Input) (cell : CellId)
    (position : Int) : Prop :=
  ∀ f, (g.parser (redirect onEnter cell position (Parser.fault f)) i).ending = .error f

/-- A run enters the cells that its dialogue enters. -/
theorem enters_iff {g : Grammar} {i : Input} {d : Dialogue Outcome}
    (hrun : ∀ onEnter, g.parser onEnter i = d.run onEnter) :
    g.Enters onEnter i cell position ↔ d.Enters onEnter cell position := by
  simp only [Enters, hrun]
  constructor
  · refine fun hfaults => Classical.byContradiction fun hnot => ?_
    -- A run that does not depend on the probe cannot end with two faults.
    have hfirst := hfaults .undefinedCell
    have hsecond := hfaults .filledCell
    rw [Dialogue.run_redirect hnot] at hfirst hsecond
    rw [hfirst] at hsecond
    cases hsecond
  · exact Dialogue.ending_redirect

/-- A run enters a cell at a position, or is the same whatever the cell does there. -/
theorem enters_or_indifferent (g : Grammar) (onEnter : CellId → Parser) (i : Input)
    (cell : CellId) (position : Int) :
    g.Enters onEnter i cell position ∨
      ∀ q, g.parser (redirect onEnter cell position q) i = g.parser onEnter i := by
  obtain ⟨d, hrun, -⟩ := g.exists_dialogue i
  rw [enters_iff hrun]
  simp only [hrun]
  by_cases h : d.Enters onEnter cell position
  · exact Or.inl h
  · exact Or.inr (Dialogue.run_redirect h)

theorem Enters.ending {g : Grammar} {i : Input} (hcells : ∀ c, (onEnter c).Forward)
    (h : g.Enters onEnter i cell position) :
    i.Spans position ∧ ∀ f, (onEnter cell { i with position := position }).ending = .error f →
      (g.parser onEnter i).ending = .error f := by
  obtain ⟨d, hrun, hconfined⟩ := g.exists_dialogue i
  rw [enters_iff hrun] at h
  rw [hrun]
  exact h.ending hcells hconfined

/-- A run enters the same cells at the same positions whether it is traced or not. -/
theorem enters_untraced (g : Grammar) (s : Store) (limit : Nat) (data : Sequence) (k : Nat)
    (traced : Bool) (cell : CellId) (position : Int) :
    g.Enters (s.enter limit) ⟨data, k, traced⟩ cell position ↔
      g.Enters (s.enter limit) ⟨data, k, false⟩ cell position := by
  -- Both runs are compared with that of the grammar without labels, probed in the same way.
  have hprobe : ∀ (traced : Bool) (f : Fault),
      (g.parser (redirect (s.enter limit) cell position (Parser.fault f))
        ⟨data, k, traced⟩).ending = .error f ↔
      (g.erase.parser (redirect (s.erase.enter limit) cell position (Parser.fault f))
        ⟨data, k, false⟩).ending = .error f := by
    intro traced f
    let c := Correspondence.behind data.append?_emptied traced
    have hcells : ∀ c', c.Parsers (redirect (s.enter limit) cell position (Parser.fault f) c')
        (redirect (s.erase.enter limit) cell position (Parser.fault f) c') := by
      intro c' i j hij
      have hposition : i.position = j.position := by
        simpa [c, Correspondence.behind] using c.position hij
      unfold redirect
      rw [hposition]
      split
      · exact c.fault f i j hij
      · exact c.enter_erase s limit c' i j hij
    have hstart : c.Related ⟨data, k, traced⟩ ⟨data, k, false⟩ :=
      ⟨rfl, rfl, by simp, by simp, rfl, rfl⟩
    have hending := (c.erase hcells g _ _ hstart).ending
    revert hending
    generalize (g.parser _ _).ending = a
    generalize (g.erase.parser _ _).ending = b
    intro hending
    cases hending with
    | ok _ => simp
    | error f' => simp
  exact forall_congr' fun f => (hprobe traced f).trans (hprobe false f).symm

end Grammar

/-- Entries of cells that are active together in a run of a grammar, with the positions at which they
were made, the outermost first: each is made by what the one before it runs. -/
inductive Store.Nested (s : Store) : Nat → Grammar → Input → List (CellId × Int) → Prop where
  | nil {limit : Nat} {g : Grammar} {i : Input} : Nested s limit g i []
  | cons {limit : Nat} {g body : Grammar} {i : Input} {cell : CellId} {position : Int}
    {inner : List (CellId × Int)} :
    g.Enters (s.enter (limit + 1)) i cell position → s.get? cell = some body →
    Nested s limit body { i with position := position } inner →
    Nested s (limit + 1) g i ((cell, position) :: inner)

end Descent
