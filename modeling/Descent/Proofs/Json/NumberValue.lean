import Descent.Proofs.Json.Number

/-!
The numbers that literals denote.  A literal without a fraction and an exponent is an exact integer,
unless it has too many digits; any literal can be read as a floating point number.
-/

set_option autoImplicit false
set_option relaxedAutoImplicit false

namespace Descent.Json

/-- The number that digits of any script denote. -/
def digitsValue (t : Text) : Nat :=
  t.foldl (fun n c => 10 * n + c.decimalValue?.getD 0) 0

theorem IsWhole.isDigits {w : Text} (hw : IsWhole w) : IsDigits w := by
  cases hw with
  | zero =>
    refine ⟨by simp, fun d hd => ?_⟩
    obtain rfl := List.mem_singleton.mp hd
    exact Code.isDecimal_of_ascii (by decide) (by decide)
  | digits hlow hhigh ht =>
    refine ⟨by simp, fun d hd => ?_⟩
    rcases List.mem_cons.mp hd with rfl | hd
    · exact Code.isDecimal_of_ascii (by omega) hhigh
    · exact ht d hd

private theorem digitRun?_eq {t : Text} (ht : IsDigits t) :
    Numeral.digitRun? t = some (t.map fun c => c.decimalValue?.getD 0, []) := by
  obtain ⟨hne, hall⟩ := ht
  induction t with
  | nil => exact absurd rfl hne
  | cons c rest ih =>
    obtain ⟨d, hd⟩ := Code.exists_decimalValue? (hall c List.mem_cons_self)
    cases rest with
    | nil => simp [Numeral.digitRun?, hd]
    | cons e after =>
      have he := hall e (List.mem_cons_of_mem _ List.mem_cons_self)
      have hlow : (e == Code.ofChar '_') = false := Code.beq_eq_false_of_isDecimal he (by decide)
      have hrest := ih (by simp) fun x hx => hall x (List.mem_cons_of_mem _ hx)
      rw [Numeral.digitRun?, hd]
      simp only [hlow, he, Bool.false_eq_true, if_false, if_true, hrest]
      simp [hd]

private theorem ofDigits_eq (t : Text) :
    Numeral.ofDigits (t.map fun c => c.decimalValue?.getD 0) = digitsValue t := by
  rw [Numeral.ofDigits, digitsValue, List.foldl_map]

private theorem isPadding_eq_false {c : Code} (hlow : 0x21 ≤ c.val) (hhigh : c.val ≤ 0x84) :
    Numeral.isPadding c = false := by
  simp [Numeral.isPadding, Code.isSpace_eq_false hlow hhigh]

/-- The integer that a minus sign or nothing and digits denote. -/
def integerValue (minus whole : Text) : Int :=
  if minus = [] then digitsValue whole else -(digitsValue whole : Int)

private theorem splitSign_digit {c : Code} (hc : c.isDecimal = true) (t : Text) :
    Numeral.splitSign (c :: t) = (false, c :: t) := by
  have hminus : (c == Code.ofChar '-') = false := Code.beq_eq_false_of_isDecimal hc (by decide)
  have hplus : (c == Code.ofChar '+') = false := Code.beq_eq_false_of_isDecimal hc (by decide)
  simp [Numeral.splitSign, hminus, hplus]

private theorem splitSign_append {minus whole : Text} (hminus : IsMinus minus)
    (hwhole : IsWhole whole) (t : Text) :
    Numeral.splitSign (minus ++ (whole ++ t)) = (!minus.isEmpty, whole ++ t) := by
  rcases hminus with rfl | rfl
  · obtain ⟨c, rest, rfl, hlow, hhigh⟩ := hwhole.exists_cons
    exact splitSign_digit (Code.isDecimal_of_ascii hlow hhigh) _
  · rfl

private theorem dropWhile_isPadding {minus whole : Text} (hminus : IsMinus minus)
    (hwhole : IsWhole whole) (t : Text) :
    (minus ++ (whole ++ t)).dropWhile Numeral.isPadding = minus ++ (whole ++ t) := by
  rcases hminus with rfl | rfl
  · obtain ⟨c, rest, rfl, hlow, hhigh⟩ := hwhole.exists_cons
    exact List.dropWhile_cons_of_neg
      (Bool.eq_false_iff.mp (isPadding_eq_false (by omega : 0x21 ≤ c.val) (by omega)))
  · exact List.dropWhile_cons_of_neg (by decide)

private theorem readInt_eq {minus whole : Text} (hminus : IsMinus minus) (hwhole : IsWhole whole) :
    Numeral.readInt (minus ++ whole) =
      if Numeral.digitLimit < whole.length then .error (.tooLong whole.length)
      else .ok (integerValue minus whole) := by
  obtain ⟨c, rest, hcons, hlow, hhigh⟩ := hwhole.exists_cons
  have hdigits := digitRun?_eq hwhole.isDigits
  have hpad : (minus ++ whole).dropWhile Numeral.isPadding = minus ++ whole := by
    simpa using dropWhile_isPadding hminus hwhole []
  have hsign : Numeral.splitSign (minus ++ whole) = (!minus.isEmpty, whole) := by
    simpa using splitSign_append hminus hwhole []
  simp only [Numeral.readInt, hpad, hsign, hdigits, List.length_map, ofDigits_eq, List.dropWhile_nil,
    List.isEmpty_nil, if_true]
  rcases hminus with rfl | rfl <;> simp [integerValue]

private theorem isOneOf_float_mark {c : Code} :
    isOneOf ".eE" c = true ↔
      c = Code.ofChar '.' ∨ c = Code.ofChar 'e' ∨ c = Code.ofChar 'E' := by
  simp [isOneOf, Text.ofString]

/-- An integer literal denotes its integer, unless it has too many digits. -/
theorem toNumber_integer {minus whole : Text} (hminus : IsMinus minus) (hwhole : IsWhole whole) :
    toNumber (minus ++ whole) =
      if Numeral.digitLimit < whole.length then .error (.tooManyDigits whole.length)
      else .ok (.int (integerValue minus whole)) := by
  have hmark : (minus ++ whole).any (isOneOf ".eE") = false := by
    refine List.any_eq_false.mpr fun c hc => ?_
    rcases List.mem_append.mp hc with hc | hc
    · rcases hminus with rfl | rfl
      · simp at hc
      · obtain rfl := List.mem_singleton.mp hc
        decide
    · have hdecimal := hwhole.isDigits.2 c hc
      intro h
      rcases isOneOf_float_mark.mp h with rfl | rfl | rfl <;> revert hdecimal <;> decide
  rw [toNumber, hmark, Text.toInt, readInt_eq hminus hwhole]
  simp only [Bool.false_eq_true, if_false]
  by_cases hlong : Numeral.digitLimit < whole.length
  · simp only [hlong, if_true]
    rfl
  · simp only [hlong, if_false]
    rfl

/-- A literal with a fraction or an exponent is read as a floating point number. -/
theorem toNumber_float {minus whole fraction exponent : Text} (hfraction : IsFraction fraction)
    (hexponent : IsExponent exponent) (hsome : fraction ≠ [] ∨ exponent ≠ []) :
    toNumber (minus ++ (whole ++ (fraction ++ exponent))) =
      ((minus ++ (whole ++ (fraction ++ exponent))).toFloat
        (minus ++ (whole ++ (fraction ++ exponent))).quoted).map .float := by
  have hmark : (minus ++ (whole ++ (fraction ++ exponent))).any (isOneOf ".eE") = true := by
    have htail : (fraction ++ exponent).any (isOneOf ".eE") = true := by
      rw [List.any_append, Bool.or_eq_true]
      rcases hsome with hsome | hsome
      · cases hfraction with
        | none => exact absurd rfl hsome
        | some _ => exact Or.inl rfl
      · cases hexponent with
        | none => exact absurd rfl hsome
        | some hmark _ _ =>
          right
          simp [isOneOf_float_mark.mpr (Or.inr hmark)]
    simp only [List.any_append] at htail ⊢
    simp [htail]
  rw [toNumber, hmark]
  rfl

/-! Every number literal can be read as a floating point number. -/

private theorem spanDigits_append {ds u : Text} (hds : ∀ c ∈ ds, c.isDecimal = true)
    (hu : NoDigit u) :
    Numeral.spanDigits (ds ++ u) = (ds.map fun c => c.decimalValue?.getD 0, u) := by
  induction ds with
  | nil =>
    rcases u with _ | ⟨c, rest⟩
    · rfl
    · have hnone : c.decimalValue? = none := by
        have hsome := Code.isSome_decimalValue?.trans (hu c rest rfl)
        exact Option.not_isSome_iff_eq_none.mp (Bool.eq_false_iff.mp hsome)
      simp [Numeral.spanDigits, hnone]
  | cons c ds ih =>
    obtain ⟨d, hd⟩ := Code.exists_decimalValue? (hds c List.mem_cons_self)
    have hrest := ih fun x hx => hds x (List.mem_cons_of_mem _ hx)
    simp [Numeral.spanDigits, hd, hrest]

private theorem noDigit_nil : NoDigit [] :=
  fun _ _ h => by cases h

private theorem exists_readExponent? {e : Text} (he : IsExponent e) :
    ∃ i, Numeral.readExponent? e = some i := by
  cases he with
  | none => exact ⟨0, rfl⟩
  | @some mark sign t hmark hsign ht =>
    have hbeq : (mark == Code.ofChar 'e' || mark == Code.ofChar 'E') = true := by
      rcases hmark with rfl | rfl <;> decide
    have hspan : Numeral.spanDigits t = (t.map fun c => c.decimalValue?.getD 0, []) := by
      simpa using spanDigits_append ht.2 noDigit_nil
    obtain ⟨d, ds, rfl⟩ := List.exists_cons_of_ne_nil ht.1
    obtain ⟨negative, hsplit⟩ : ∃ negative, Numeral.splitSign (sign ++ d :: ds) = (negative, d :: ds) := by
      rcases hsign with rfl | rfl | rfl
      · exact ⟨false, splitSign_digit (ht.2 d List.mem_cons_self) ds⟩
      · exact ⟨false, rfl⟩
      · exact ⟨true, rfl⟩
    rw [List.map_cons] at hspan
    simp only [Numeral.readExponent?, hbeq, if_true, hsplit, hspan]
    exact ⟨_, rfl⟩

private theorem exists_readUnsigned? {whole fraction exponent : Text} (hwhole : IsWhole whole)
    (hfraction : IsFraction fraction) (hexponent : IsExponent exponent) :
    ∃ x, Numeral.readUnsigned? (whole ++ (fraction ++ exponent)) = some x := by
  have hends : EndsNumber [] := fun _ _ h => by cases h
  have htail : NoDigit (fraction ++ exponent) := by
    simpa using noDigit_tail hfraction hexponent hends
  have hspan := spanDigits_append hwhole.isDigits.2 htail
  obtain ⟨i, hi⟩ := exists_readExponent? hexponent
  have hne : (whole.map fun c => c.decimalValue?.getD 0).isEmpty = false := by
    simpa using hwhole.isDigits.1
  rw [Numeral.readUnsigned?, hspan]
  simp only [hne, Bool.false_and, Bool.false_eq_true, if_false]
  cases hfraction with
  | none =>
    cases hexponent with
    | none => exact ⟨_, rfl⟩
    | @some mark _ _ hmark _ _ =>
      have hpoint : (mark == Code.ofChar '.') = false := by
        rcases hmark with rfl | rfl <;> decide
      simp only [List.nil_append, hpoint, Bool.false_eq_true, if_false, hi]
      exact ⟨_, rfl⟩
  | @some t ht =>
    have hfollows : NoDigit exponent := by
      simpa using noDigit_tail .none hexponent hends
    simp only [List.cons_append, beq_self_eq_true, if_true, spanDigits_append ht.2 hfollows, hi]
    exact ⟨_, rfl⟩

private theorem exists_append_digits {w : Text} (hw : IsNumber w) :
    ∃ front ds, w = front ++ ds ∧ IsDigits ds := by
  obtain ⟨hminus, hwhole, hfraction, hexponent⟩ := hw
  rename_i minus whole fraction exponent
  cases hexponent with
  | @some mark sign t _ _ ht =>
    exact ⟨minus ++ (whole ++ (fraction ++ mark :: sign)), t, by simp, ht⟩
  | none =>
    cases hfraction with
    | @some t ht => exact ⟨minus ++ (whole ++ [Code.ofChar '.']), t, by simp, ht⟩
    | none => exact ⟨minus, whole, by simp, hwhole.isDigits⟩

/-- A number literal has digits in it, signs, a point and the letter of the exponent. -/
theorem isDecimal_or_mark_of_mem {w : Text} (hw : IsNumber w) :
    ∀ c ∈ w, c.isDecimal = true ∨ isOneOf "+-.eE" c = true := by
  obtain ⟨hminus, hwhole, hfraction, hexponent⟩ := hw
  intro c hc
  simp only [List.mem_append] at hc
  rcases hc with hc | hc | hc | hc
  · rcases hminus with rfl | rfl
    · cases hc
    · obtain rfl := List.mem_singleton.mp hc
      exact Or.inr (by decide)
  · exact Or.inl (hwhole.isDigits.2 c hc)
  · cases hfraction with
    | none => cases hc
    | some ht =>
      rcases List.mem_cons.mp hc with rfl | hc
      · exact Or.inr (by decide)
      · exact Or.inl (ht.2 c hc)
  · cases hexponent with
    | none => cases hc
    | some hmark hsign ht =>
      simp only [List.mem_cons, List.mem_append] at hc
      rcases hc with rfl | hc | hc
      · rcases hmark with rfl | rfl <;> exact Or.inr (by decide)
      · rcases hsign with rfl | rfl | rfl
        · cases hc
        · obtain rfl := List.mem_singleton.mp hc
          exact Or.inr (by decide)
        · obtain rfl := List.mem_singleton.mp hc
          exact Or.inr (by decide)
      · exact Or.inl (ht.2 c hc)

private theorem not_mem_low_line {w : Text} (hw : IsNumber w) : Code.ofChar '_' ∉ w := by
  intro hmem
  rcases isDecimal_or_mark_of_mem hw _ hmem with h | h <;> revert h <;> decide

private theorem dropLowLines_eq {t : Text} (h : Code.ofChar '_' ∉ t) (afterDigit : Bool) :
    Numeral.dropLowLines afterDigit t = some t := by
  induction t generalizing afterDigit with
  | nil => rfl
  | cons c rest ih =>
    have hc : (c == Code.ofChar '_') = false :=
      beq_eq_false_iff_ne.mpr fun hc => h (hc ▸ List.mem_cons_self)
    have hrest := ih fun hmem => h (List.mem_cons_of_mem _ hmem)
    simp [Numeral.dropLowLines, hc, hrest]

/-- Every number literal denotes a floating point number. -/
theorem exists_readFloat? {w : Text} (hw : IsNumber w) : ∃ x, Numeral.readFloat? w = some x := by
  have hplain := dropLowLines_eq (not_mem_low_line hw) false
  have hback : w.reverse.dropWhile Numeral.isPadding = w.reverse := by
    obtain ⟨front, ds, rfl, hne, hds⟩ := exists_append_digits hw
    obtain ⟨ds, d, rfl⟩ : ∃ ds' d, ds = ds' ++ [d] := ⟨_, _, (List.dropLast_concat_getLast hne).symm⟩
    have hspace : d.isSpace = false := by
      refine Bool.eq_false_iff.mpr fun h => ?_
      have hdecimal := hds d (by simp)
      rw [Code.isDecimal_of_isSpace h] at hdecimal
      cases hdecimal
    simp [Numeral.isPadding, hspace]
  obtain ⟨hminus, hwhole, hfraction, hexponent⟩ := hw
  rename_i minus whole fraction exponent
  have hfront := dropWhile_isPadding hminus hwhole (fraction ++ exponent)
  obtain ⟨x, hx⟩ := exists_readUnsigned? hwhole hfraction hexponent
  have hsign := splitSign_append hminus hwhole (fraction ++ exponent)
  have hsize : ∃ y, ((Numeral.readName? (whole ++ (fraction ++ exponent))).orElse fun _ =>
      Numeral.readUnsigned? (whole ++ (fraction ++ exponent))) = some y := by
    cases Numeral.readName? (whole ++ (fraction ++ exponent)) with
    | some y => exact ⟨y, rfl⟩
    | none => exact ⟨x, hx⟩
  obtain ⟨y, hy⟩ := hsize
  simp only [Numeral.readFloat?, hfront, hback, List.reverse_reverse, hplain, hsign, hy]
  exact ⟨_, rfl⟩

/-- A number literal is refused only if it is an integer with too many digits. -/
theorem exists_of_toNumber_eq_error {w : Text} {f : Fault} (hw : IsNumber w)
    (hf : toNumber w = .error f) :
    ∃ minus whole, IsMinus minus ∧ IsWhole whole ∧ w = minus ++ whole ∧
      Numeral.digitLimit < whole.length ∧ f = .tooManyDigits whole.length := by
  obtain ⟨x, hx⟩ := exists_readFloat? hw
  obtain ⟨hminus, hwhole, hfraction, hexponent⟩ := hw
  rename_i minus whole fraction exponent
  by_cases hsome : fraction ≠ [] ∨ exponent ≠ []
  · rw [toNumber_float hfraction hexponent hsome, Text.toFloat, hx] at hf
    cases hf
  · obtain ⟨rfl, rfl⟩ : fraction = [] ∧ exponent = [] := by simpa [not_or] using hsome
    simp only [List.append_nil] at hf ⊢
    rw [toNumber_integer hminus hwhole] at hf
    split at hf
    · next hlong =>
      cases hf
      exact ⟨minus, whole, hminus, hwhole, rfl, hlong, rfl⟩
    · cases hf

end Descent.Json
