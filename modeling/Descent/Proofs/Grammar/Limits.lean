import Descent.Proofs.Grammar.Entries

/-!
What the limit on active entries decides.  An entry that the limit does not allow ends the run with
a fault, however deep inside the run it is made and whatever is around it.  So a run that ends
otherwise has made no such entry, and is the same under every limit that is not smaller.
-/

set_option autoImplicit false
set_option relaxedAutoImplicit false

namespace Descent

namespace Store

/-- Entering a cell, with something else in place of every entry that the limit does not allow. -/
def enterBeyond (s : Store) (beyond : CellId → Parser) : Nat → CellId → Parser
  | 0, cell => beyond cell
  | limit + 1, cell =>
    match s.get? cell with
    | none => Parser.fault .undefinedCell
    | some g => g.parser (s.enterBeyond beyond limit)

/-- Entries beyond a limit that are bounded themselves belong to a greater limit. -/
theorem enterBeyond_enter (s : Store) (more limit : Nat) :
    s.enterBeyond (s.enter more) limit = s.enter (more + limit) := by
  induction limit with
  | zero => rfl
  | succ limit ih =>
    funext cell
    rw [enterBeyond, ih]
    rfl

/-- An entry ends because it is too deep, or does not depend on what is beyond the limit. -/
theorem enter_eq_or (s : Store) (beyond : CellId → Parser) (limit : Nat) (cell : CellId)
    (i : Input) :
    (s.enter limit cell i).ending = .error .tooDeep ∨
      s.enterBeyond beyond limit cell i = s.enter limit cell i := by
  induction limit generalizing cell i with
  | zero => exact Or.inl rfl
  | succ limit ih =>
    rw [enter, enterBeyond]
    cases s.get? cell with
    | none => exact Or.inr rfl
    | some g => exact g.parser_eq_or ih i

theorem enter_eq_of_le (s : Store) {m n : Nat} (h : m ≤ n) (cell : CellId) (i : Input) :
    (s.enter m cell i).ending = .error .tooDeep ∨ s.enter n cell i = s.enter m cell i := by
  obtain ⟨more, rfl⟩ := Nat.exists_eq_add_of_le' h
  rw [← s.enterBeyond_enter]
  exact s.enter_eq_or _ m cell i

end Store

namespace Grammar

variable {g : Grammar} {s : Store} {i : Input} {cell : CellId} {position : Int}

theorem run_eq_or (g : Grammar) (s : Store) (beyond : CellId → Parser) (limit : Nat) (i : Input) :
    (g.run s limit i).ending = .error .tooDeep ∨
      g.parser (s.enterBeyond beyond limit) i = g.run s limit i :=
  g.parser_eq_or (s.enter_eq_or beyond limit) i

theorem run_eq_of_le {m n : Nat} (h : m ≤ n) (hrun : (g.run s m i).ending ≠ .error .tooDeep) :
    g.run s n i = g.run s m i :=
  (g.parser_eq_or (s.enter_eq_of_le h) i).resolve_left hrun

/-- What a run enters under one limit it also enters under any other one, unless it ends too deep
under that. -/
theorem Enters.of_limit {m n : Nat} (h : g.Enters (s.enter m) i cell position)
    (hrun : (g.run s n i).ending ≠ .error .tooDeep) : g.Enters (s.enter n) i cell position := by
  obtain ⟨d, hd, -⟩ := g.exists_dialogue i
  rw [enters_iff hd] at h ⊢
  rw [run, hd] at hrun
  refine h.transfer (fun c j => ?_) hrun
  rcases Nat.le_total m n with hle | hle
  · exact (s.enter_eq_of_le hle c j).imp_right Or.inr
  · exact Or.inr ((s.enter_eq_of_le hle c j).imp_right Eq.symm)

end Grammar

namespace Store

variable {s : Store} {g : Grammar} {i : Input} {cell : CellId} {position : Int} {limit : Nat}

/-- A fault of any active entry is how the whole run ends. -/
theorem Nested.ending_of_last {outer : List (CellId × Int)} {f : Fault}
    (h : s.Nested limit g i (outer ++ [(cell, position)]))
    (hlast : (s.enter (limit - outer.length) cell { i with position := position }).ending =
      .error f) : (g.run s limit i).ending = .error f := by
  -- From the innermost entry outwards: what an active entry runs has the entries inside it.
  induction outer generalizing limit g i with
  | nil =>
    cases h with
    | cons henters _ _ => exact (henters.ending (s.forward_enter _)).2 f hlast
  | cons e outer ih =>
    cases h with
    | @cons limit _ body _ c p _ henters hbody hinner =>
      refine (henters.ending (s.forward_enter _)).2 f ?_
      rw [List.length_cons, Nat.add_sub_add_right] at hlast
      rw [enter, hbody]
      exact ih hinner hlast

end Store

/-- A greater limit changes no answer: a run that does not end too deep is the same under it, with
the same trace.  Nothing absorbs the fault of an entry that is too deep: a run that depends in any
way on what would be beyond the limit ends with it, and so does a run in which any active entry
does. -/
theorem Grammar.limit_changes_no_answer (g : Grammar) (s : Store) {m n : Nat} (h : m ≤ n)
    (i : Input) :
    ((g.run s m i).ending ≠ .error .tooDeep → g.run s n i = g.run s m i) ∧
    (∀ beyond, g.parser (s.enterBeyond beyond m) i ≠ g.run s m i →
      (g.run s m i).ending = .error .tooDeep) ∧
    ∀ outer cell position, s.Nested m g i (outer ++ [(cell, position)]) →
      (s.enter (m - outer.length) cell { i with position := position }).ending = .error .tooDeep →
      (g.run s m i).ending = .error .tooDeep :=
  ⟨run_eq_of_le h, fun beyond hdepends => (g.run_eq_or s beyond m i).resolve_right hdepends,
    fun _ _ _ hnested hlast => hnested.ending_of_last hlast⟩

/-- The cell reads brackets that open, one inside the other, as far as there are any. -/
def Store.ofBrackets : Store :=
  (Store.empty.allocate (some
    (.orElse (.right (.lit (.text (Text.ofString "("))) (.enter 0)) .absent))).2

/-- Two brackets take three entries, and no fewer: the option around each entry does not help. -/
theorem Grammar.limit_of_two_brackets :
    3 ≤ 5 ∧
      ((enter 0).run Store.ofBrackets 3 ⟨.text (Text.ofString "(("), 0, false⟩).ending =
        .ok (.success .absent ⟨.text (Text.ofString "(("), 2, false⟩) ∧
      (enter 0).run Store.ofBrackets 5 ⟨.text (Text.ofString "(("), 0, false⟩ =
        (enter 0).run Store.ofBrackets 3 ⟨.text (Text.ofString "(("), 0, false⟩ ∧
      ((enter 0).run Store.ofBrackets 2 ⟨.text (Text.ofString "(("), 0, false⟩).ending =
        .error .tooDeep := by
  have h : 3 ≤ 5 := by decide
  have hthree : ((enter 0).run Store.ofBrackets 3 ⟨.text (Text.ofString "(("), 0, false⟩).ending =
      .ok (.success .absent ⟨.text (Text.ofString "(("), 2, false⟩) := rfl
  have hfive := (limit_changes_no_answer (enter 0) Store.ofBrackets h
    ⟨.text (Text.ofString "(("), 0, false⟩).1 (by rw [hthree]; exact nofun)
  exact ⟨h, hthree, hfive, rfl⟩

end Descent
