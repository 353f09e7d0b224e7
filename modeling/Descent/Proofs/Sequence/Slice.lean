import Descent.Input

/-!
How long the parts of a sequence are.  A part that is as long as asked for lies inside the sequence,
wherever it was asked for.  What is left from a position that is not negative is what comes behind as
many elements.
-/

set_option autoImplicit false
set_option relaxedAutoImplicit false

namespace Descent

namespace Sequence

@[simp] theorem length_between {α : Type} (start stop : Int) (items : List α) :
    (between start stop items).length =
      min (offset items stop) items.length - offset items start := by
  simp [between]

@[simp] theorem length_onward {α : Type} (start : Int) (items : List α) :
    (onward start items).length = items.length - offset items start := by
  simp [onward]

theorem onward_natCast {α : Type} (position : Nat) (items : List α) :
    onward position items = items.drop position := by
  rw [onward, offset, if_pos (Int.natCast_nonneg position), Int.toNat_natCast]

/-- A window that is full ends inside the list. -/
theorem add_le_of_length_between {α : Type} {items : List α} {start : Int} {n : Nat}
    (h : (between start (start + n) items).length = n) :
    start + n ≤ max start items.length := by
  rw [length_between] at h
  simp only [offset] at h
  split at h <;> split at h <;> omega

/-- What is left after any position ends inside the list. -/
theorem add_length_onward_le {α : Type} (items : List α) (start : Int) :
    start + (onward start items).length ≤ max start items.length := by
  rw [length_onward]
  simp only [offset]
  split <;> omega

theorem add_le_of_length_slice {s : Sequence} {start : Int} {n : Nat}
    (h : (s.slice start (start + n)).length = n) : start + n ≤ max start s.length := by
  cases s <;> exact add_le_of_length_between h

theorem add_length_sliceFrom_le (s : Sequence) (start : Int) :
    start + (s.sliceFrom start).length ≤ max start s.length := by
  cases s <;> exact add_length_onward_le _ start

private theorem length_eq_of_sameAll {s t : List Value} (h : Value.sameAll s t = true) :
    s.length = t.length := by
  induction s generalizing t with
  | nil =>
    cases t with
    | nil => rfl
    | cons b t => simp [Value.sameAll] at h
  | cons a s ih =>
    cases t with
    | nil => simp [Value.sameAll] at h
    | cons b t =>
      simp only [Value.sameAll, Bool.and_eq_true] at h
      simp [ih h.2]

@[simp] theorem length_items (s : Sequence) : s.items.length = s.length := by
  cases s <;> simp [items, length]

/-- Sequences that agree are equally long. -/
theorem length_eq_of_agrees {s t : Sequence} (h : s.agrees t = true) : s.length = t.length := by
  have hall : ∀ u v : Sequence, Value.sameAll u.items v.items = true → u.length = v.length := by
    intro u v huv
    simpa using length_eq_of_sameAll huv
  cases s <;> cases t <;> first
    | exact hall _ _ h
    | (have heq := eq_of_beq h; subst heq; rfl)
    | cases h

end Sequence

/-- What is left of a text is a text. -/
theorem Input.rest_of_text {i : Input} {t : Text} (hi : i.data = .text t) :
    i.rest = .text (Sequence.onward i.position t) := by
  rw [rest, hi]
  rfl

theorem Input.rest_mk_text (t : Text) (position : Nat) (traced : Bool) :
    (Input.mk (.text t) position traced).rest = .text (t.drop position) := by
  rw [rest_of_text rfl, Sequence.onward_natCast]

end Descent
