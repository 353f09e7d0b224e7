import Descent.Proofs.Parser.Correspondence
import Descent.Proofs.Sequence.Append
import Descent.Proofs.Sequence.Slice

/-!
The same tokens in containers of different kinds.  Where they stand, how many there are and what a
literal agrees with can be told from the tokens alone.
-/

set_option autoImplicit false
set_option relaxedAutoImplicit false

namespace Descent.Sequence

private theorem between_map {α β : Type} (f : α → β) (items : List α) (start stop : Int) :
    between start stop (items.map f) = (between start stop items).map f := by
  simp only [between, offset, List.length_map, List.map_take, List.map_drop]

private theorem at?_map {α β : Type} (f : α → β) (items : List α) (position : Int) :
    at? (items.map f) position = (at? items position).map f := by
  simp only [at?, List.length_map, List.getElem?_map]
  split
  · rfl
  · split <;> rfl

theorem items_slice (s : Sequence) (start stop : Int) :
    (s.slice start stop).items = between start stop s.items := by
  cases s with
  | text t => exact (between_map Value.ofCode t start stop).symm
  | list items | tuple items => rfl
  | bytes data => exact (between_map Value.ofByte data start stop).symm

theorem get?_eq_at? (s : Sequence) (position : Int) : s.get? position = at? s.items position := by
  cases s with
  | text t => exact (at?_map Value.ofCode t position).symm
  | list items | tuple items => rfl
  | bytes data => exact (at?_map Value.ofByte data position).symm

theorem text?_mapItems {s : Sequence} (h : s.text? = none)
    (f : {α : Type} → List α → List α) : (s.mapItems f).text? = none := by
  cases s with
  | text t => cases h
  | list items | tuple items | bytes data => rfl

theorem agrees_text {s : Sequence} (h : s.text? = none) (t : Text) :
    s.agrees (.text t) = false := by
  cases s with
  | text s => cases h
  | list items | tuple items | bytes data => rfl

theorem agrees_tokens {s t : Sequence} (hs : s.text? = none) (ht : t.text? = none) :
    s.agrees t = Value.sameAll s.items t.items := by
  cases s <;> cases t <;> first | cases hs; done | cases ht; done | rfl

/-- The sequences hold the same tokens, and neither is a text. -/
structure SameTokens (s t : Sequence) : Prop where
  items : s.items = t.items
  left : s.text? = none
  right : t.text? = none

theorem sameTokens_tuple_list (items : List Value) : SameTokens (.tuple items) (.list items) :=
  ⟨rfl, rfl, rfl⟩

theorem sameTokens_bytes_list (data : List UInt8) :
    SameTokens (.bytes data) (.list (data.map Value.ofByte)) :=
  ⟨rfl, rfl, rfl⟩

namespace SameTokens

variable {s t : Sequence}

theorem length_eq (h : s.SameTokens t) : s.length = t.length := by
  rw [← length_items s, h.items, length_items]

/-- Before the end, both have the same token at a position that is not negative. -/
theorem exists_get_eq_ok (h : s.SameTokens t) {position : Int} (hposition : 0 ≤ position)
    (hend : position < t.length) : ∃ v, s.get position = .ok v ∧ t.get position = .ok v := by
  have hget : s.get? position = t.get? position := by
    rw [get?_eq_at?, get?_eq_at?, h.items]
  obtain ⟨v, hv⟩ := t.exists_get_eq_ok hposition hend
  refine ⟨v, ?_, hv⟩
  rw [get] at hv ⊢
  rw [hget]
  cases hat : t.get? position with
  | none => rw [hat] at hv; cases hv
  | some w => rwa [hat] at hv

theorem slice (h : s.SameTokens t) (start stop : Int) :
    (s.slice start stop).SameTokens (t.slice start stop) :=
  ⟨by rw [items_slice, items_slice, h.items], text?_mapItems h.left _, text?_mapItems h.right _⟩

/-- A literal agrees with both or with neither. -/
theorem agrees_eq (h : s.SameTokens t) (literal : Sequence) :
    s.agrees literal = t.agrees literal := by
  cases literal with
  | text literal => rw [agrees_text h.left, agrees_text h.right]
  | list items | tuple items | bytes data =>
    rw [agrees_tokens h.left rfl, agrees_tokens h.right rfl, h.items]

end SameTokens

end Descent.Sequence
