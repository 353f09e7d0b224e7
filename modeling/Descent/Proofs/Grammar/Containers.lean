import Descent.Proofs.Grammar.Dependence
import Descent.Proofs.Sequence.Tokens

/-!
The kind of a sequence of tokens makes no difference.  Runs on the same tokens, once in a tuple or
in bytes and once in a list, correspond step by step, so they say the same.
-/

set_option autoImplicit false
set_option relaxedAutoImplicit false

namespace Descent

/-- The inputs are at the same place of two sequences.  The second input is not traced and not
before the start. -/
structure Input.Beside (s t : Sequence) (i j : Input) : Prop where
  left : i.data = s
  right : j.data = t
  start : 0 ≤ j.position
  position : i.position = j.position
  untraced : j.traced = false

namespace Input.Beside

variable {s t : Sequence} {i j : Input}

theorem advance (hij : Beside s t i j) (n : Nat) : Beside s t (i.advance n) (j.advance n) :=
  ⟨hij.left, hij.right, Int.add_nonneg hij.start (Int.natCast_nonneg n),
    congrArg (· + (n : Int)) hij.position, hij.untraced⟩

theorem atEnd_eq (h : s.SameTokens t) (hij : Beside s t i j) : i.atEnd = j.atEnd := by
  rw [Input.atEnd, Input.atEnd, hij.left, hij.right, hij.position, h.length_eq]

theorem left_eq (h : s.SameTokens t) (hij : Beside s t i j) : i.left = j.left := by
  rw [Input.left, Input.left, hij.left, hij.right, hij.position, h.length_eq]

theorem exists_next (h : s.SameTokens t) (hij : Beside s t i j) (hend : j.atEnd = false) :
    ∃ v, i.next = .ok v ∧ j.next = .ok v := by
  rw [Input.next, Input.next, hij.left, hij.right, hij.position]
  rw [Input.atEnd, hij.right, decide_eq_false_iff_not, Int.not_le] at hend
  exact h.exists_get_eq_ok hij.start hend

theorem agrees_window (h : s.SameTokens t) (hij : Beside s t i j) (n : Nat) (literal : Sequence) :
    (i.window n).agrees literal = (j.window n).agrees literal := by
  rw [Input.window, Input.window, hij.left, hij.right, hij.position]
  exact (h.slice _ _).agrees_eq literal

theorem text?_rest (h : s.SameTokens t) (hij : Beside s t i j) : i.rest.text? = j.rest.text? := by
  rw [Input.rest, Input.rest, hij.left, hij.right]
  exact (Sequence.text?_mapItems h.left _).trans (Sequence.text?_mapItems h.right _).symm

end Input.Beside

/-- The correspondence between the same tokens in two containers. -/
def Correspondence.beside {s t : Sequence} (h : s.SameTokens t) : Correspondence where
  Related := Input.Beside s t
  shift := 0
  Traces _ _ := True
  traces := ⟨trivial, fun _ _ => trivial⟩
  event _ _ _ := trivial
  position hij := hij.position.trans (Int.add_zero _).symm
  atEnd hij := hij.atEnd_eq h
  left hij := hij.left_eq h
  next hij hend := hij.exists_next h (hij.atEnd_eq h ▸ hend)
  window hij literal := hij.agrees_window h _ literal
  rest hij := hij.text?_rest h
  advance hij n := hij.advance n

namespace Grammar

variable (g : Grammar) (s : Store) (limit : Nat)

theorem seenFrom_of_sameTokens {data data' : Sequence} (h : data.SameTokens data') (k : Nat)
    (traced : Bool) :
    (g.run s limit ⟨data, k, traced⟩).ending.map (Outcome.seenFrom 0) =
      (g.run s limit ⟨data', k, traced⟩).ending.map (Outcome.seenFrom 0) := by
  -- A correspondence leads to a run without labels and trace, so the way is over that one.
  have hruns : (Correspondence.beside h).Runs (g.run s limit ⟨data, k, traced⟩)
      (g.erase.run s.erase limit ⟨data', k, false⟩) :=
    (Correspondence.beside h).run_erase g s limit _ _ ⟨rfl, rfl, Int.natCast_nonneg k, rfl, rfl⟩
  calc (g.run s limit ⟨data, k, traced⟩).ending.map (Outcome.seenFrom 0)
    _ = (g.erase.run s.erase limit ⟨data', k, false⟩).ending.map (Outcome.seenFrom 0) :=
      Correspondence.seenFrom_eq hruns
    _ = (g.run s limit ⟨data', k, false⟩).ending.map (Outcome.seenFrom 0) := by
      rw [(g.run_eq_run_erase s limit data' k).1]
    _ = (g.run s limit ⟨data', k, traced⟩).ending.map (Outcome.seenFrom 0) :=
      (g.seenFrom_untraced s limit data' k traced).symm

/-- Whether tokens are in a tuple or in a list, and for bytes in bytes or in a list, a run has the
same result and position, fails at the same position with the same explanation, or ends with the
same fault. -/
theorem container_changes_nothing (k : Nat) (traced : Bool) :
    (∀ items : List Value,
      (g.run s limit ⟨.tuple items, k, traced⟩).ending.map (Outcome.seenFrom 0) =
        (g.run s limit ⟨.list items, k, traced⟩).ending.map (Outcome.seenFrom 0)) ∧
    ∀ data : List UInt8,
      (g.run s limit ⟨.bytes data, k, traced⟩).ending.map (Outcome.seenFrom 0) =
        (g.run s limit ⟨.list (data.map Value.ofByte), k, traced⟩).ending.map
          (Outcome.seenFrom 0) :=
  ⟨fun items => g.seenFrom_of_sameTokens s limit (Sequence.sameTokens_tuple_list items) k traced,
    fun data => g.seenFrom_of_sameTokens s limit (Sequence.sameTokens_bytes_list data) k traced⟩

/-- A literal in a tuple matches the tokens of a list, and stays a tuple. -/
example : ((Grammar.lit (.tuple [.int 1, .int 2])).run Store.empty 1
    ⟨.list [.int 0, .int 1, .int 2], 1, false⟩).ending.map (Outcome.seenFrom 0) =
      .ok (.inl (.tuple [.int 1, .int 2], 3)) := rfl

end Grammar

end Descent
