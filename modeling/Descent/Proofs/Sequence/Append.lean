import Descent.Sequence

/-!
A sequence behind another one of its kind.  From a position on that is not negative, the whole looks
as the second sequence does by itself.
-/

set_option autoImplicit false
set_option relaxedAutoImplicit false

namespace Descent.Sequence

/-- Two sequences of one kind, one behind the other. -/
def append? : Sequence → Sequence → Option Sequence
  | .text s, .text t => some (.text (s ++ t))
  | .list s, .list t => some (.list (s ++ t))
  | .tuple s, .tuple t => some (.tuple (s ++ t))
  | .bytes s, .bytes t => some (.bytes (s ++ t))
  | _, _ => none

private theorem offset_append {α : Type} (pre items : List α) {position : Int}
    (h : 0 ≤ position) :
    offset (pre ++ items) (position + pre.length) = pre.length + offset items position := by
  rw [offset, offset, if_pos (by omega), if_pos h]
  omega

private theorem onward_append {α : Type} (pre items : List α) {position : Int}
    (h : 0 ≤ position) :
    onward (position + pre.length) (pre ++ items) = onward position items := by
  rw [onward, onward, offset_append pre items h, List.drop_append, List.drop_eq_nil_of_le (by omega)]
  simp

private theorem between_append {α : Type} (pre items : List α) {start stop : Int}
    (hstart : 0 ≤ start) (hstop : 0 ≤ stop) :
    between (start + pre.length) (stop + pre.length) (pre ++ items) = between start stop items := by
  rw [between, between, offset_append pre items hstart, offset_append pre items hstop,
    List.take_length_add_append, List.drop_append, List.drop_eq_nil_of_le (by omega)]
  simp

private theorem at?_append {α : Type} (pre items : List α) {position : Int} (h : 0 ≤ position) :
    at? (pre ++ items) (position + pre.length) = at? items position := by
  rw [at?, at?, if_pos (by omega), if_pos h, List.getElem?_append_right (by omega)]
  congr 1
  omega

variable {pre data whole : Sequence}

theorem length_of_append? (h : pre.append? data = some whole) :
    whole.length = pre.length + data.length := by
  cases pre <;> cases data <;> cases h <;> simp [length]

theorem sliceFrom_of_append? (h : pre.append? data = some whole) {position : Int}
    (hposition : 0 ≤ position) :
    whole.sliceFrom (position + pre.length) = data.sliceFrom position := by
  cases pre <;> cases data <;> cases h <;>
    simp only [sliceFrom, mapItems, length, onward_append _ _ hposition]

theorem slice_of_append? (h : pre.append? data = some whole) {start stop : Int}
    (hstart : 0 ≤ start) (hstop : 0 ≤ stop) :
    whole.slice (start + pre.length) (stop + pre.length) = data.slice start stop := by
  cases pre <;> cases data <;> cases h <;>
    simp only [slice, mapItems, length, between_append _ _ hstart hstop]

theorem get_of_append? (h : pre.append? data = some whole) {position : Int}
    (hposition : 0 ≤ position) : whole.get (position + pre.length) = data.get position := by
  cases pre <;> cases data <;> cases h <;>
    simp only [get, get?, kind, length, at?_append _ _ hposition]

/-- The empty sequence of a kind that another one is of. -/
def emptied (data : Sequence) : Sequence :=
  data.mapItems fun _ => []

@[simp] theorem length_emptied (data : Sequence) : data.emptied.length = 0 := by
  cases data <;> rfl

theorem append?_emptied (data : Sequence) : data.emptied.append? data = some data := by
  cases data <;> rfl

/-- Before the end, there is an element at a position that is not negative. -/
theorem exists_get_eq_ok (s : Sequence) {position : Int} (h : 0 ≤ position)
    (hend : position < s.length) : ∃ v, s.get position = .ok v := by
  have hat : ∀ {α : Type} (items : List α), position < items.length →
      ∃ a, at? items position = some a := by
    intro α items hlt
    rw [at?, if_pos h]
    exact ⟨_, List.getElem?_eq_getElem (by omega)⟩
  cases s with
  | text t | list items | tuple items | bytes data =>
    obtain ⟨a, ha⟩ := hat _ hend
    simp [get, get?, ha]

end Descent.Sequence
