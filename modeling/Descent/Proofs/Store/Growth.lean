import Descent.Proofs.Grammar.Dialogue
import Descent.Store

/-!
Stores that grow.  Cells are added, and empty ones are filled, but no cell that holds a grammar is
changed.  So a run that enters no empty cell is the same in every store that comes later.
-/

set_option autoImplicit false
set_option relaxedAutoImplicit false

namespace Descent

namespace Store

variable {s t u : Store} {cell : CellId} {g : Grammar}

@[simp] theorem get?_set_self (s : Store) (cell : CellId) (content : Option Grammar) :
    (s.set cell content).get? cell = content :=
  if_pos rfl

theorem get?_set_of_ne (s : Store) {c cell : CellId} (h : c ≠ cell) (content : Option Grammar) :
    (s.set cell content).get? c = s.get? c :=
  if_neg h

@[simp] theorem size_set (s : Store) (cell : CellId) (content : Option Grammar) :
    (s.set cell content).size = s.size := rfl

/-- Every grammar in a cell of the first store is in the same cell of the second. -/
def Keeps (s t : Store) : Prop :=
  ∀ cell g, s.get? cell = some g → t.get? cell = some g

/-- Nothing is in a cell that has not been made. -/
def Fresh (s : Store) : Prop :=
  ∀ cell, s.size ≤ cell → s.get? cell = none

theorem fresh_empty : empty.Fresh :=
  fun _ _ => rfl

theorem Fresh.lt_size (h : s.Fresh) (hcell : s.get? cell = some g) : cell < s.size := by
  refine Nat.lt_of_not_le fun hle => ?_
  rw [h cell hle] at hcell
  cases hcell

theorem Fresh.set (h : s.Fresh) (hcell : cell < s.size) (content : Option Grammar) :
    (s.set cell content).Fresh := by
  intro c hc
  rw [size_set] at hc
  rw [get?_set_of_ne s (Nat.ne_of_gt (Nat.lt_of_lt_of_le hcell hc))]
  exact h c hc

/-- The second store has come from the first by adding cells. -/
inductive Extends (s : Store) : Store → Prop where
  | refl : Extends s s
  | allocate {t : Store} (content : Option Grammar) :
    Extends s t → Extends s (t.allocate content).2

namespace Extends

theorem trans (hst : s.Extends t) (htu : t.Extends u) : s.Extends u := by
  induction htu with
  | refl => exact hst
  | allocate content _ ih => exact .allocate content ih

theorem size_le (h : s.Extends t) : s.size ≤ t.size := by
  induction h with
  | refl => exact Nat.le_refl _
  | allocate content _ ih => exact Nat.le_succ_of_le ih

theorem get?_eq (h : s.Extends t) (hcell : cell < s.size) : t.get? cell = s.get? cell := by
  induction h with
  | refl => rfl
  | allocate content h ih =>
    exact (get?_set_of_ne _ (Nat.ne_of_lt (Nat.lt_of_lt_of_le hcell h.size_le)) _).trans ih

theorem fresh (h : s.Extends t) (hs : s.Fresh) : t.Fresh := by
  induction h with
  | refl => exact hs
  | allocate content _ ih =>
    intro c hc
    exact (get?_set_of_ne _ (Nat.ne_of_gt hc) _).trans (ih c (Nat.le_of_succ_le hc))

end Extends

/-- Entering a cell ends at a cell that is empty, or is the same in every store that keeps what the
cells hold. -/
theorem Keeps.enter_eq_or (h : s.Keeps t) (limit : Nat) (cell : CellId) (i : Input) :
    (s.enter limit cell i).ending = .error .undefinedCell ∨
      t.enter limit cell i = s.enter limit cell i := by
  induction limit generalizing cell i with
  | zero => exact Or.inr rfl
  | succ limit ih =>
    rw [enter, enter]
    cases hcell : s.get? cell with
    | none => exact Or.inl rfl
    | some g =>
      rw [h cell g hcell]
      exact g.parser_eq_or ih i

end Store

/-- A run that does not end at an empty cell is the same in every store that keeps what the cells
hold. -/
theorem Grammar.run_eq_of_keeps {s t : Store} (h : s.Keeps t) {g : Grammar} {limit : Nat}
    {i : Input} (hrun : (g.run s limit i).ending ≠ .error .undefinedCell) :
    g.run t limit i = g.run s limit i :=
  (g.parser_eq_or (h.enter_eq_or limit) i).resolve_left hrun

end Descent
