import Descent.Proofs.Parser.Correspondence

/-!
Grammars without their labels.  Taking the labels out of a grammar, of the grammars that it goes on
with after a result and of all cells gives a grammar whose runs correspond to those of the first.
-/

set_option autoImplicit false
set_option relaxedAutoImplicit false

namespace Descent

/-- A grammar with every label taken out, also of what follows a result. -/
def Grammar.erase : Grammar → Grammar
  | .result v => .result v
  | .fail => .fail
  | .fault f => .fault f
  | .item => .item
  | .sat test => .sat test
  | .lit s => .lit s
  | .pattern source p => .pattern source p
  | .eof => .eof
  | .bind g next => .bind g.erase fun v => (next v).erase
  | .seq g h => .seq g.erase h.erase
  | .right g h => .right g.erase h.erase
  | .between g h k => .between g.erase h.erase k.erase
  | .cause g why => .cause g.erase why
  | .transform g f => .transform g.erase f
  | .orElse g v => .orElse g.erase v
  | .choice more branch => .choice more fun k => (branch k).erase
  | .many g => .many g.erase
  | .sepBy1 g separator => .sepBy1 g.erase separator.erase
  | .labelled g _ => g.erase
  | .enter cell => .enter cell

/-- A store with every label taken out of its cells. -/
def Store.erase (s : Store) : Store :=
  { s with get? := fun cell => (s.get? cell).map Grammar.erase }

namespace Correspondence

variable (c : Correspondence)

theorem erase {onEnter onEnter' : CellId → Parser}
    (hcells : ∀ cell, c.Parsers (onEnter cell) (onEnter' cell)) (g : Grammar) :
    c.Parsers (g.parser onEnter) (g.erase.parser onEnter') := by
  induction g with
  | result v => exact c.result v
  | fail => exact c.fail _
  | fault f => exact c.fault f
  | item => exact c.item
  | sat test => exact c.sat test
  | lit s => exact c.lit s
  | pattern source p => exact c.pattern source p
  | eof => exact c.eof
  | bind g next ih ihnext => exact ih.bind ihnext
  | seq g h ihg ihh => exact ihg.seq ihh
  | right g h ihg ihh => exact ihg.right ihh
  | between g h k ihg ihh ihk => exact ihg.between ihh ihk
  | cause g why ih => exact ih.cause why
  | transform g f ih => exact ih.transform f
  | orElse g v ih => exact ih.orElse v
  | choice more branch ih => exact (ih 0).choice fun k => ih k.succ
  | many g ih => exact ih.many
  | sepBy1 g separator ihg ihs => exact ihg.sepBy1 ihs
  | labelled g label ih => exact ih.unlabelled label
  | enter cell => exact hcells cell

theorem enter_erase (s : Store) (limit : Nat) (cell : CellId) :
    c.Parsers (s.enter limit cell) (s.erase.enter limit cell) := by
  -- Both runs enter cells alike, so one limit serves both.
  induction limit generalizing cell with
  | zero => exact c.fault _
  | succ limit ih =>
    rw [Store.enter, Store.enter]
    cases hcell : s.get? cell with
    | none =>
      simp only [Store.erase, hcell, Option.map_none]
      exact c.fault _
    | some g =>
      simp only [Store.erase, hcell, Option.map_some]
      exact c.erase ih g

/-- The runs of a grammar over a store correspond to those without labels. -/
theorem run_erase (g : Grammar) (s : Store) (limit : Nat) :
    c.Parsers (g.run s limit) (g.erase.run s.erase limit) :=
  c.erase (c.enter_erase s limit) g

end Correspondence

end Descent
