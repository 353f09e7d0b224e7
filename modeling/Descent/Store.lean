import Descent.Grammar

/-!
Stores of cells.  A cell holds a grammar or is still empty; it is filled at most once, which lets a
grammar enter a cell before its definition is there.

Cells may enter each other, and themselves, without end.  So a run is given the number of entries
that may be active at the same time.
-/

set_option autoImplicit false
set_option relaxedAutoImplicit false

namespace Descent

/-- The cells by number.  A rule that depends on a result is a cell for every result, so there is no
bound on how many cells hold a grammar. -/
structure Store where
  /-- The number of the next new cell. -/
  size : Nat
  /-- What a cell holds. -/
  get? : CellId → Option Grammar

namespace Store

/-- The store without cells. -/
def empty : Store :=
  ⟨0, fun _ => none⟩

/-- The cell holds a grammar. -/
def isDefined (s : Store) (cell : CellId) : Bool :=
  (s.get? cell).isSome

/-- The store in which a cell has a content. -/
def set (s : Store) (cell : CellId) (content : Option Grammar) : Store :=
  { s with get? := fun c => if c = cell then content else s.get? c }

/-- One more cell, empty or filled, and its number. -/
def allocate (s : Store) (content : Option Grammar) : CellId × Store :=
  (s.size, { s.set s.size content with size := s.size + 1 })

/-- Fills an empty cell. -/
def define (s : Store) (cell : CellId) (g : Grammar) : Except Fault Store :=
  match s.get? cell with
  | some _ => .error .filledCell
  | none => .ok (s.set cell (some g))

/-- Enters a cell, when as many further entries may be active inside it as given. -/
def enter (s : Store) : Nat → CellId → Parser
  | 0, _ => Parser.fault .tooDeep
  | limit + 1, cell =>
    match s.get? cell with
    | none => Parser.fault .undefinedCell
    | some g => g.parser (s.enter limit)

end Store

/-- Runs a grammar over a store, with at most the given number of cell entries active at once. -/
def Grammar.run (g : Grammar) (s : Store) (limit : Nat) : Parser :=
  g.parser (s.enter limit)

/-- The number of cell entries that may be active at once where nothing else is said. -/
def entryLimit : Nat := 500

end Descent
