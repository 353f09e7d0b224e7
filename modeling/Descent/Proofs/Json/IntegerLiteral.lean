import Mathlib.Data.List.Basic
import Mathlib.Data.Nat.Digits.Defs
import Descent.Proofs.Json.LongestNumber
import Descent.Proofs.Json.NumberValue

/-!
The integers that literals denote in base ten, and that printing an integer gives a literal for it.
-/

set_option autoImplicit false
set_option relaxedAutoImplicit false

namespace Descent.Json

/-- The integer that a literal denotes in base ten: its digits, whatever their script, by their
values and places, with its sign. -/
def denotedInteger (w : Text) : Int :=
  (if w.head? = some (Code.ofChar '-') then -1 else 1) *
    (Nat.ofDigits 10 (w.filterMap Code.decimalValue?).reverse : Nat)

private theorem filterMap_digits {t : Text} (ht : ∀ c ∈ t, c.isDecimal = true) :
    t.filterMap Code.decimalValue? = t.map fun c => c.decimalValue?.getD 0 := by
  refine List.filterMap_eq_map_iff_forall_eq_some.mpr fun c hc => ?_
  obtain ⟨d, hd⟩ := Code.exists_decimalValue? (ht c hc)
  rw [hd, Option.getD_some]

/-- Taking digits in one after the other weights them by their places. -/
theorem digitsValue_eq_ofDigits {t : Text} (ht : ∀ c ∈ t, c.isDecimal = true) :
    digitsValue t = Nat.ofDigits 10 (t.filterMap Code.decimalValue?).reverse := by
  rw [filterMap_digits ht, Nat.ofDigits_eq_foldr, List.foldr_reverse, List.foldl_map, digitsValue]
  refine List.foldl_ext _ _ _ fun n c _ => ?_
  rw [Nat.cast_id, Nat.add_comm]

theorem denotedInteger_append {minus whole : Text} (hminus : IsMinus minus)
    (hwhole : IsWhole whole) : denotedInteger (minus ++ whole) = integerValue minus whole := by
  have hdigits := digitsValue_eq_ofDigits hwhole.isDigits.2
  rcases hminus with rfl | rfl
  · obtain ⟨c, rest, rfl, hlow, hhigh⟩ := hwhole.exists_cons
    have hsign : c ≠ Code.ofChar '-' :=
      beq_eq_false_iff_ne.mp
        (Code.beq_eq_false_of_isDecimal (Code.isDecimal_of_ascii hlow hhigh) (by decide))
    simp [denotedInteger, integerValue, hdigits, hsign]
  · have hnone : (Code.ofChar '-').decimalValue? = none := by decide
    simp [denotedInteger, integerValue, hdigits, hnone]

/-- Without a point and without the letter of an exponent, a literal is a sign and digits. -/
theorem IsNumber.exists_integer {w : Text} (hw : IsNumber w) (hpoint : Code.ofChar '.' ∉ w)
    (hlow : Code.ofChar 'e' ∉ w) (hhigh : Code.ofChar 'E' ∉ w) :
    ∃ minus whole, IsMinus minus ∧ IsWhole whole ∧ w = minus ++ whole := by
  obtain ⟨hminus, hwhole, hfraction, hexponent⟩ := hw
  rename_i minus whole fraction exponent
  cases hfraction with
  | some _ => simp at hpoint
  | none =>
    cases hexponent with
    | some hmark _ _ => rcases hmark with rfl | rfl <;> simp at hlow hhigh
    | none => exact ⟨minus, whole, hminus, hwhole, by simp⟩

theorem countP_isDecimal {minus whole : Text} (hminus : IsMinus minus) (hwhole : IsWhole whole) :
    (minus ++ whole).countP Code.isDecimal = whole.length := by
  have hsign : minus.countP Code.isDecimal = 0 := by
    rcases hminus with rfl | rfl <;> decide
  rw [List.countP_append, hsign, Nat.zero_add]
  exact List.countP_eq_length.mpr hwhole.isDigits.2

/-- A literal of an integer, unless it has too many digits, is read as the integer that it denotes. -/
theorem toNumber_of_isNumber {w : Text} (hw : IsNumber w) (hpoint : Code.ofChar '.' ∉ w)
    (hlow : Code.ofChar 'e' ∉ w) (hhigh : Code.ofChar 'E' ∉ w)
    (hlimit : w.countP Code.isDecimal ≤ Numeral.digitLimit) :
    toNumber w = .ok (.int (denotedInteger w)) := by
  obtain ⟨minus, whole, hminus, hwhole, rfl⟩ := hw.exists_integer hpoint hlow hhigh
  rw [countP_isDecimal hminus hwhole] at hlimit
  rw [toNumber_integer hminus hwhole, if_neg (Nat.not_lt.mpr hlimit),
    denotedInteger_append hminus hwhole]

/-! Printing an integer. -/

theorem ofNat_eq_map (n : Nat) : Text.ofNat n = (Nat.toDigits 10 n).map Code.ofChar := by
  rw [Text.ofNat, Text.ofString, String.toList_ofList]

private theorem ascii_of_mem_toDigits {n : Nat} {c : Char} (hc : c ∈ Nat.toDigits 10 n) :
    0x30 ≤ (Code.ofChar c).val ∧ (Code.ofChar c).val ≤ 0x39 := by
  have hdigit := Nat.isDigit_of_mem_toDigits (by decide) (by decide) hc
  simp only [Char.isDigit, Bool.and_eq_true, decide_eq_true_eq] at hdigit
  exact hdigit

/-- The first digit of a number that is not zero is not zero. -/
private theorem exists_leading_digit {n : Nat} (hn : 0 < n) :
    ∃ d rest, 0 < d ∧ d < 10 ∧ Nat.toDigits 10 n = Nat.digitChar d :: rest := by
  -- All digits but the last are those of a tenth of the number.
  induction n using Nat.strongRecOn with
  | ind n ih =>
    by_cases hsmall : n < 10
    · exact ⟨n, [], hn, hsmall, Nat.toDigits_of_lt_base hsmall⟩
    · obtain ⟨d, rest, hd, hd', hdigits⟩ := ih (n / 10) (by omega) (by omega)
      refine ⟨d, rest ++ [Nat.digitChar (n % 10)], hd, hd', ?_⟩
      rw [Nat.toDigits_of_base_le (by decide) (by omega), hdigits, List.cons_append]

theorem isWhole_ofNat (n : Nat) : IsWhole (Text.ofNat n) := by
  rcases Nat.eq_zero_or_pos n with rfl | hn
  · exact .zero
  · obtain ⟨d, rest, hd, hd', hdigits⟩ := exists_leading_digit hn
    have hfirst : (Code.ofChar (Nat.digitChar d)).val = 48 + d :=
      Nat.toNat_digitChar_of_lt_ten hd'
    rw [ofNat_eq_map, hdigits, List.map_cons]
    refine .digits (by omega) (by omega) fun c hc => ?_
    obtain ⟨e, he, rfl⟩ := List.mem_map.mp hc
    have hmem : e ∈ Nat.toDigits 10 n := hdigits ▸ List.mem_cons_of_mem _ he
    exact Code.isDecimal_of_ascii (ascii_of_mem_toDigits hmem).1 (ascii_of_mem_toDigits hmem).2

theorem digitsValue_ofNat (n : Nat) : digitsValue (Text.ofNat n) = n := by
  rw [ofNat_eq_map, digitsValue, List.foldl_map]
  calc (Nat.toDigits 10 n).foldl (fun m c => 10 * m + (Code.ofChar c).decimalValue?.getD 0) 0
      = Nat.ofDigitChars 10 (Nat.toDigits 10 n) 0 := by
        refine List.foldl_ext _ _ _ fun m c hc => ?_
        obtain ⟨hlow, hhigh⟩ := ascii_of_mem_toDigits hc
        rw [Code.decimalValue?_of_ascii hlow hhigh]
        rfl
    _ = n := Nat.ofDigitChars_toDigits (by decide) (by decide)

/-- A printed integer is its sign and the digits of its size. -/
theorem exists_minus_ofInt (n : Int) :
    ∃ minus, IsMinus minus ∧ Text.ofInt n = minus ++ Text.ofNat n.natAbs ∧
      integerValue minus (Text.ofNat n.natAbs) = n := by
  by_cases hn : n < 0
  · refine ⟨[Code.ofChar '-'], Or.inr rfl, if_pos hn, ?_⟩
    rw [integerValue, if_neg (by simp), digitsValue_ofNat]
    omega
  · refine ⟨[], Or.inl rfl, if_neg hn, ?_⟩
    rw [integerValue, if_pos rfl, digitsValue_ofNat]
    omega

theorem isNumber_ofInt (n : Int) : IsNumber (Text.ofInt n) := by
  obtain ⟨minus, hminus, hprinted, -⟩ := exists_minus_ofInt n
  have hnumber : IsNumber (minus ++ (Text.ofNat n.natAbs ++ ([] ++ []))) :=
    .mk hminus (isWhole_ofNat _) .none .none
  rw [hprinted]
  simpa using hnumber

/-- Reading a printed integer gives it back, unless it has too many digits. -/
theorem toNumber_ofInt {n : Int} (hn : n.natAbs < 10 ^ Numeral.digitLimit) :
    toNumber (Text.ofInt n) = .ok (.int n) := by
  obtain ⟨minus, hminus, hprinted, hvalue⟩ := exists_minus_ofInt n
  have hlength : (Text.ofNat n.natAbs).length ≤ Numeral.digitLimit := by
    rw [ofNat_eq_map, List.length_map]
    exact (Nat.length_toDigits_le_iff (by decide) (by decide)).mpr hn
  rw [hprinted, toNumber_integer hminus (isWhole_ofNat _), if_neg (Nat.not_lt.mpr hlength), hvalue]

/-- At any place of a text, the pattern of numbers reads the longest literal that begins there and
fails exactly where none does.  A literal without a fraction and an exponent is read as the integer
that it denotes, as long as it does not have too many digits, so printing an integer and reading it
gives it back. -/
theorem reads_longest_number :
    Expr.patternOf numberSource {} = .ok (.pattern numberSource numberPattern) ∧
    (∀ (t : Text) (position : Nat) (traced : Bool),
      let run := Parser.pattern numberSource numberPattern ⟨.text t, position, traced⟩
      ((∃ v j, run = .done (.success v j)) ↔ ∃ w, w <+: t.drop position ∧ IsNumber w) ∧
      (∀ w, run = .done (.success (.str w) ⟨.text t, position + w.length, traced⟩) ↔
        IsLongestNumber (t.drop position) w) ∧
      (run = .done (.failure position
          (Text.ofString "preg(" ++ numberSource ++ Text.ofString ")")) ↔
        ∀ w, w <+: t.drop position → ¬IsNumber w)) ∧
    (∀ w, IsNumber w → Code.ofChar '.' ∉ w → Code.ofChar 'e' ∉ w → Code.ofChar 'E' ∉ w →
      w.countP Code.isDecimal ≤ Numeral.digitLimit →
      toNumber w = .ok (.int (denotedInteger w))) ∧
    ∀ n : Int, n.natAbs < 10 ^ Numeral.digitLimit →
      IsNumber (Text.ofInt n) ∧ toNumber (Text.ofInt n) = .ok (.int n) :=
  ⟨patternOf_numberSource,
    fun t position traced =>
      ⟨numberPattern_succeeds_iff t position traced, numberPattern_reads_iff t position traced,
        numberPattern_fails_iff t position traced⟩,
    fun _ hw hpoint hlow hhigh hlimit => toNumber_of_isNumber hw hpoint hlow hhigh hlimit,
    fun n hn => ⟨isNumber_ofInt n, toNumber_ofInt hn⟩⟩

/-- The letter and the sign of an exponent without digits are left, and digits of another script
count by their values. -/
theorem reads_longest_number_of_digits :
    let w := Text.ofString "-1\u0662"
    Parser.pattern numberSource numberPattern ⟨.text (Text.ofString "x-1\u0662e+"), 1, false⟩ =
        .done (.success (.str w) ⟨.text (Text.ofString "x-1\u0662e+"), 4, false⟩) ∧
      toNumber w = .ok (.int (-12)) := by
  intro w
  have hscan : scanNumber (Text.ofString "-1\u0662e+") = some w := by decide
  have hlongest : IsLongestNumber ((Text.ofString "x-1\u0662e+").drop 1) w :=
    scanNumber_eq_some_iff.mp hscan
  obtain ⟨-, hreads, hvalue, -⟩ := reads_longest_number
  refine ⟨((hreads _ 1 false).2.1 w).mpr hlongest, ?_⟩
  have hdenoted := hvalue w hlongest.isNumber (by decide) (by decide) (by decide) (by decide)
  rw [hdenoted]
  rfl

end Descent.Json
