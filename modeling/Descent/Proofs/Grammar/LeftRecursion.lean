import Mathlib.Logic.Relation
import Descent.Proofs.Parser.Faults
import Descent.Proofs.Sequence.Append
import Descent.Store

/-!
Left recursion.  A cell that a grammar enters in leftmost position is entered before anything has
been read, so a fault of the cell is one of the grammar, whatever surrounds it: no choice, option or
repetition comes to its next part.  A cell that leads to itself in this way is entered once more
under every limit, until the limit does not allow it.
-/

set_option autoImplicit false
set_option relaxedAutoImplicit false

namespace Descent

/-- A grammar enters a cell in leftmost position. -/
inductive Grammar.Leftmost (cell : CellId) : Grammar → Prop where
  | enter : Leftmost cell (.enter cell)
  | bind {g : Grammar} {next : Value → Grammar} : Leftmost cell g → Leftmost cell (.bind g next)
  | seq {g h : Grammar} : Leftmost cell g → Leftmost cell (.seq g h)
  | left {g h : Grammar} : Leftmost cell g → Leftmost cell (.left g h)
  | right {g h : Grammar} : Leftmost cell g → Leftmost cell (.right g h)
  | between {g h k : Grammar} : Leftmost cell g → Leftmost cell (.between g h k)
  | cause {g : Grammar} {why : Text} : Leftmost cell g → Leftmost cell (.cause g why)
  | transform {g : Grammar} {f : Value → Except Fault Value} :
    Leftmost cell g → Leftmost cell (.transform g f)
  | orElse {g : Grammar} {v : Value} : Leftmost cell g → Leftmost cell (.orElse g v)
  | choice {more : Nat} {branch : Fin (more + 2) → Grammar} :
    Leftmost cell (branch 0) → Leftmost cell (.choice more branch)
  | many {g : Grammar} : Leftmost cell g → Leftmost cell (.many g)
  | sepBy1 {g separator : Grammar} : Leftmost cell g → Leftmost cell (.sepBy1 g separator)
  | labelled {g : Grammar} {label : Text} : Leftmost cell g → Leftmost cell (.labelled g label)

namespace Grammar.Leftmost

variable {cell : CellId} {g : Grammar}

theorem skip (h : Leftmost cell g) : Leftmost cell g.skip :=
  h.transform

theorem opt (h : Leftmost cell g) : Leftmost cell g.opt :=
  h.orElse

theorem many1 (h : Leftmost cell g) : Leftmost cell g.many1 :=
  h.seq.transform

theorem sepBy0 {separator : Grammar} (h : Leftmost cell g) : Leftmost cell (g.sepBy0 separator) :=
  h.sepBy1.orElse

end Grammar.Leftmost

theorem exists_describeNext {i : Input} (h : 0 ≤ i.position) : ∃ t, describeNext i = .ok t := by
  unfold describeNext
  split
  · exact ⟨_, rfl⟩
  · next hend =>
    simp only [Input.atEnd, decide_eq_true_eq, Int.not_le] at hend
    obtain ⟨v, hv⟩ := Sequence.exists_get_eq_ok i.data h hend
    exact ⟨describeElement v, by rw [Input.next, hv]; rfl⟩

/-- A fault of a cell in leftmost position is a fault of the grammar. -/
theorem Grammar.Leftmost.ending {cell : CellId} {g : Grammar} {onEnter : CellId → Parser}
    {i : Input} {f : Fault} (h : g.Leftmost cell) (hi : 0 ≤ i.position)
    (hcell : (onEnter cell i).ending = .error f) : (g.parser onEnter i).ending = .error f := by
  -- Every way to combine grammars runs the leftmost one first, and goes on only after an outcome.
  induction h with
  | enter => exact hcell
  | bind _ ih => exact Run.ending_andThen_of_error ih _
  | seq _ ih => exact Run.ending_andThen_of_error ih _
  | left _ ih =>
    rw [Grammar.left, parser, parser, Parser.between_result]
    exact Run.ending_andThen_of_error ih _
  | right _ ih => exact Run.ending_andThen_of_error ih _
  | between _ ih =>
    rw [parser, Parser.between_eq]
    exact Run.ending_andThen_of_error ih _
  | cause _ ih => exact Run.ending_andThen_of_error ih _
  | transform _ ih => exact Run.ending_andThen_of_error ih _
  | orElse _ ih => exact Run.ending_andThen_of_error ih _
  | choice _ ih => exact Run.ending_andThen_of_error ih _
  | many _ ih =>
    refine Run.ending_andThen_of_error ?_ _
    rw [Parser.rounds]
    exact Run.ending_andThen_of_error ih _
  | sepBy1 _ ih => exact Run.ending_andThen_of_error ih _
  | labelled _ ih =>
    rw [parser, Parser.labelled]
    split
    · obtain ⟨t, ht⟩ := exists_describeNext hi
      rw [ht]
      exact Run.ending_andThen_of_error ih _
    · exact ih

namespace Store

/-- What a cell holds enters another cell in leftmost position. -/
def LeadsTo (s : Store) (cell next : CellId) : Prop :=
  ∃ body, s.get? cell = some body ∧ body.Leftmost next

/-- A cell leads to itself in leftmost position, directly or over any number of cells. -/
def LeftRecursive (s : Store) (cell : CellId) : Prop :=
  Relation.TransGen s.LeadsTo cell cell

theorem LeftRecursive.exists_next {s : Store} {cell : CellId} (h : s.LeftRecursive cell) :
    ∃ next, s.LeadsTo cell next ∧ s.LeftRecursive next := by
  obtain ⟨next, hleads, hback⟩ := Relation.TransGen.head'_iff.mp h
  exact ⟨next, hleads, .tail' hback hleads⟩

/-- A left recursive cell is entered too deep under every limit, on every input that is not before
the start.  It has no outcome. -/
theorem left_recursion_too_deep (s : Store) (cell : CellId) (h : s.LeftRecursive cell)
    (limit : Nat) (i : Input) (hi : 0 ≤ i.position) :
    ((Grammar.enter cell).run s limit i).ending = .error .tooDeep := by
  induction limit generalizing cell with
  | zero => rfl
  | succ limit ih =>
    obtain ⟨next, ⟨body, hbody, hleftmost⟩, hnext⟩ := h.exists_next
    rw [Grammar.run, Grammar.parser, enter, hbody]
    exact hleftmost.ending hi (ih next hnext)

/-- A list of optional parts, each of which would begin with such a list. -/
def ofLeftLoop : Store :=
  ((Store.empty.allocate (some
    (.sepBy0 (.skip (.labelled (.enter 1) (Text.ofString "part"))) .item))).2.allocate
      (some (.choiceOf (.opt (.many1 (.left (.enter 0) .item))) .eof [.item]))).2

/-- The list never ends, although it and its parts could be nothing. -/
theorem left_loop_too_deep :
    ofLeftLoop.LeftRecursive 0 ∧ ∀ limit,
      ((Grammar.enter 0).run ofLeftLoop limit ⟨.text (Text.ofString "ab"), 1, true⟩).ending =
        .error .tooDeep := by
  have hlist : ofLeftLoop.LeadsTo 0 1 := ⟨_, rfl, Grammar.Leftmost.enter.labelled.skip.sepBy0⟩
  have hpart : ofLeftLoop.LeadsTo 1 0 :=
    ⟨_, rfl, .choice Grammar.Leftmost.enter.left.many1.opt⟩
  have h : ofLeftLoop.LeftRecursive 0 := .tail (.single hlist) hpart
  exact ⟨h, fun limit => left_recursion_too_deep ofLeftLoop 0 h limit _ (by decide)⟩

end Store

end Descent
