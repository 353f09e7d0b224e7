import Descent.Text.Digit
import Descent.Text.Space

/-!
White space and decimal digits have no code point in common, and neither class has punctuation or
letters of ASCII in it.
-/

set_option autoImplicit false
set_option relaxedAutoImplicit false

namespace Descent.Code

theorem exists_range_of_covers {ranges : List (Nat × Nat)} {n : Nat}
    (h : covers ranges n = true) : ∃ r ∈ ranges, r.1 ≤ n ∧ n ≤ r.2 := by
  induction ranges with
  | nil => simp [covers] at h
  | cons r ranges ih =>
    simp only [covers] at h
    split at h
    · cases h
    · next hlow =>
      split at h
      · next hhigh => exact ⟨r, List.mem_cons_self, by omega, hhigh⟩
      · obtain ⟨r', hr', hn⟩ := ih h
        exact ⟨r', List.mem_cons_of_mem _ hr', hn⟩

/-- The visible code points of ASCII are no white space. -/
theorem isSpace_eq_false {c : Code} (hlow : 0x21 ≤ c.val) (hhigh : c.val ≤ 0x84) :
    c.isSpace = false := by
  have hranges : ∀ r ∈ spaceRanges, r.2 < 0x21 ∨ 0x84 < r.1 := by decide
  refine Bool.eq_false_iff.mpr fun h => ?_
  obtain ⟨r, hr, hle, hge⟩ := exists_range_of_covers h
  have := hranges r hr
  omega

theorem isDecimal_of_isSpace {c : Code} (h : c.isSpace = true) : c.isDecimal = false := by
  have hdisjoint : ∀ r ∈ spaceRanges, ∀ first ∈ decimalZeros, r.2 < first ∨ first + 9 < r.1 := by
    decide
  obtain ⟨r, hr, hle, hge⟩ := exists_range_of_covers h
  simp only [isDecimal, List.any_eq_false, Bool.and_eq_true, decide_eq_true_eq]
  intro first hfirst
  have := hdisjoint r hr first hfirst
  omega

theorem isDecimal_of_ascii {c : Code} (hlow : 0x30 ≤ c.val) (hhigh : c.val ≤ 0x39) :
    c.isDecimal = true := by
  refine List.any_eq_true.mpr ⟨0x30, by decide, ?_⟩
  simp only [Bool.and_eq_true, decide_eq_true_eq]
  omega

/-- The value of a digit of ASCII is how far it is behind the zero. -/
theorem decimalValue?_of_ascii {c : Code} (hlow : 0x30 ≤ c.val) (hhigh : c.val ≤ 0x39) :
    c.decimalValue? = some (c.val - 0x30) := by
  have hfind : decimalZeros.find? (fun first => first ≤ c.val && c.val ≤ first + 9) = some 0x30 := by
    refine List.find?_cons_of_pos ?_
    simp only [Bool.and_eq_true, decide_eq_true_eq]
    omega
  rw [decimalValue?, hfind, Option.map_some]

theorem isSome_decimalValue? {c : Code} : c.decimalValue?.isSome = c.isDecimal := by
  rw [decimalValue?, isDecimal, Option.isSome_map, List.isSome_find?]

theorem exists_decimalValue? {c : Code} (hc : c.isDecimal = true) : ∃ d, c.decimalValue? = some d := by
  rw [← Option.isSome_iff_exists, isSome_decimalValue?]
  exact hc

theorem beq_eq_false_of_isDecimal {c d : Code} (hc : c.isDecimal = true) (hd : d.isDecimal = false) :
    (c == d) = false := by
  refine beq_eq_false_iff_ne.mpr fun h => ?_
  rw [h, hd] at hc
  cases hc

/-- Only one code point has a character other than that of number zero. -/
theorem eq_ofChar_of_toChar {c : Code} {d : Char} (h : c.toChar = d) (hd : d ≠ Char.ofNat 0) :
    c = ofChar d := by
  by_cases hvalid : c.val.isValidChar
  · refine Fin.ext ?_
    rw [← h, ofChar, toChar, Char.ofNat, dif_pos hvalid]
    rfl
  · refine absurd ?_ hd
    rw [← h, toChar, Char.ofNat, dif_neg hvalid]
    rfl

end Descent.Code
