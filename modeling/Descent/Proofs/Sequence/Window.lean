import Mathlib.Data.List.Forall2
import Descent.Proofs.Parser.Correspondence
import Descent.Proofs.Sequence.Slice

/-!
Windows on a sequence and the rest from a position on.  A window is where the rest begins unless its
position is negative and the window reaches past the end or comes from before the start; then it is
shorter than was asked for.  So comparing a window with a literal does not always say whether the
rest starts with that literal.
-/

set_option autoImplicit false
set_option relaxedAutoImplicit false

namespace Descent.Sequence

/-- The first elements, as many as given if there are so many. -/
def take (s : Sequence) (n : Nat) : Sequence :=
  s.mapItems (List.take n)

/-- What comes behind a number of elements. -/
def drop (s : Sequence) (n : Nat) : Sequence :=
  s.mapItems (List.drop n)

/-- The first elements are the same as those of another sequence, which is a text if this one is. -/
def StartsWith (s start : Sequence) : Prop :=
  s.text?.isSome = start.text?.isSome ∧
    ∃ front back, s.items = front ++ back ∧
      List.Forall₂ (fun v w => Value.same v w = true) front start.items

/-- A window of some elements from a position shows what the rest begins with: it is empty, or its
position is not negative, or it lies between the start and the end as counted from the end. -/
def ShowsRest (s : Sequence) (position : Int) (n : Nat) : Prop :=
  n = 0 ∨ 0 ≤ position ∨ 0 ≤ position + s.length ∧ position + n < 0

/-! Windows of lists. -/

private theorem between_eq_take_onward {α : Type} (start stop : Int) (items : List α) :
    between start stop items =
      (onward start items).take (offset items stop - offset items start) := by
  rw [between, onward, List.drop_take]

private theorem offset_add {α : Type} {items : List α} {position : Int} {n : Nat}
    (h : 0 ≤ position ∨ 0 ≤ position + items.length ∧ position + n < 0) :
    offset items (position + n) = offset items position + n := by
  simp only [offset]
  split <;> split <;> omega

private theorem between_add {α : Type} {items : List α} {position : Int} {n : Nat}
    (h : n = 0 ∨ 0 ≤ position ∨ 0 ≤ position + items.length ∧ position + n < 0) :
    between position (position + n) items = (onward position items).take n := by
  rw [between_eq_take_onward]
  rcases h with rfl | h
  · simp
  · rw [offset_add h, Nat.add_sub_cancel_left]

private theorem onward_add {α : Type} {items : List α} {position : Int} {n : Nat}
    (h : n = 0 ∨ 0 ≤ position ∨ 0 ≤ position + items.length ∧ position + n < 0) :
    onward (position + n) items = (onward position items).drop n := by
  rcases h with rfl | h
  · simp
  · rw [onward, onward, offset_add h, List.drop_drop]

private theorem length_between_lt {α : Type} {items : List α} {position : Int} {n : Nat}
    (h : ¬(n = 0 ∨ 0 ≤ position ∨ 0 ≤ position + items.length ∧ position + n < 0)) :
    (between position (position + n) items).length < n := by
  rw [length_between]
  simp only [offset]
  split <;> split <;> omega

variable {s start : Sequence} {position : Int} {n : Nat}

theorem slice_eq_take (h : s.ShowsRest position n) :
    s.slice position (position + n) = (s.sliceFrom position).take n := by
  cases s <;> exact congrArg _ (between_add h)

theorem sliceFrom_add (h : s.ShowsRest position n) :
    s.sliceFrom (position + n) = (s.sliceFrom position).drop n := by
  cases s <;> exact congrArg _ (onward_add h)

theorem length_slice_lt (h : ¬s.ShowsRest position n) :
    (s.slice position (position + n)).length < n := by
  cases s <;> exact length_between_lt h

theorem length_sliceFrom (s : Sequence) (position : Int) :
    (s.sliceFrom position).length =
      s.length - if 0 ≤ position then position.toNat else (position + s.length).toNat := by
  cases s <;> exact length_onward position _

/-! Sequences that start alike. -/

private theorem sameAll_iff (s t : List Value) :
    Value.sameAll s t = true ↔ List.Forall₂ (fun v w => Value.same v w = true) s t := by
  induction s generalizing t with
  | nil => cases t <;> simp [Value.sameAll]
  | cons v s ih => cases t <;> simp [Value.sameAll, ih]

private theorem forall₂_ofCode (t u : Text) :
    List.Forall₂ (fun v w => Value.same v w = true) (t.map Value.ofCode) (u.map Value.ofCode) ↔
      t = u := by
  rw [List.forall₂_map_left_iff, List.forall₂_map_right_iff]
  simp [Value.ofCode, Value.same]

theorem startsWith_text {t u : Text} : (text t).StartsWith (text u) ↔ u <+: t := by
  constructor
  · rintro ⟨-, front, back, hitems, hsame⟩
    obtain ⟨v, w, rfl, rfl, rfl⟩ := List.map_eq_append_iff.mp hitems
    exact ⟨w, congrArg (· ++ w) ((forall₂_ofCode v u).mp hsame).symm⟩
  · rintro ⟨w, rfl⟩
    exact ⟨rfl, u.map Value.ofCode, w.map Value.ofCode, List.map_append,
      (forall₂_ofCode u u).mpr rfl⟩

private theorem items_take (s : Sequence) (n : Nat) : (s.take n).items = s.items.take n := by
  cases s <;> simp [take, mapItems, items, List.map_take]

/-- Sequences that hold the same elements, and are both texts or neither. -/
private theorem agrees_iff (s t : Sequence) :
    s.agrees t = true ↔ s.text?.isSome = t.text?.isSome ∧
      List.Forall₂ (fun v w => Value.same v w = true) s.items t.items := by
  cases s with
  | text u =>
    cases t with
    | text w =>
      exact ⟨fun h => ⟨rfl, (forall₂_ofCode u w).mpr (eq_of_beq h)⟩,
        fun h => beq_iff_eq.mpr ((forall₂_ofCode u w).mp h.2)⟩
    | list _ | tuple _ | bytes _ => simp [agrees, text?]
  | list _ | tuple _ | bytes _ => cases t <;> simp [agrees, text?, sameAll_iff]

/-- The first elements agree with a sequence exactly if they are what the whole starts with. -/
theorem agrees_take_iff : (s.take start.length).agrees start = true ↔ s.StartsWith start := by
  have hkind : (s.take start.length).text?.isSome = s.text?.isSome := by
    cases s <;> rfl
  rw [agrees_iff, hkind, items_take, StartsWith]
  refine and_congr_right fun _ => ⟨fun h => ?_, ?_⟩
  · exact ⟨_, _, (List.take_append_drop start.length s.items).symm, h⟩
  · rintro ⟨front, back, hitems, hsame⟩
    have hlength : front.length = start.length := by
      rw [hsame.length_eq, length_items]
    rwa [hitems, ← hlength, List.take_left]

end Descent.Sequence
