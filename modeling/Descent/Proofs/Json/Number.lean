import Descent.Json.Literal
import Descent.Proofs.Pattern.Scan
import Descent.Proofs.Text.Classes

/-!
Number literals: how they are written, and what the pattern of numbers matches.  The pattern takes a
literal in full whatever follows it, unless that could continue the literal.
-/

set_option autoImplicit false
set_option relaxedAutoImplicit false

namespace Descent.Json

open Pattern

/-- Digits of any script, at least one. -/
def IsDigits (t : Text) : Prop :=
  t ≠ [] ∧ ∀ c ∈ t, c.isDecimal = true

/-- A minus sign or nothing. -/
def IsMinus (t : Text) : Prop :=
  t = [] ∨ t = [Code.ofChar '-']

/-- The part of a number literal in front of the fraction: a zero alone, or digits of which the first
is one of one to nine. -/
inductive IsWhole : Text → Prop where
  | zero : IsWhole [Code.ofChar '0']
  | digits {c : Code} {t : Text} : 0x31 ≤ c.val → c.val ≤ 0x39 → (∀ d ∈ t, d.isDecimal = true) →
    IsWhole (c :: t)

/-- A point and digits, or nothing. -/
inductive IsFraction : Text → Prop where
  | none : IsFraction []
  | some {t : Text} : IsDigits t → IsFraction (Code.ofChar '.' :: t)

/-- A letter, perhaps a sign, and digits, or nothing. -/
inductive IsExponent : Text → Prop where
  | none : IsExponent []
  | some {mark : Code} {sign t : Text} : mark = Code.ofChar 'e' ∨ mark = Code.ofChar 'E' →
    sign = [] ∨ sign = [Code.ofChar '+'] ∨ sign = [Code.ofChar '-'] → IsDigits t →
    IsExponent (mark :: (sign ++ t))

/-- A number literal. -/
inductive IsNumber : Text → Prop where
  | mk {minus whole fraction exponent : Text} : IsMinus minus → IsWhole whole →
    IsFraction fraction → IsExponent exponent →
    IsNumber (minus ++ (whole ++ (fraction ++ exponent)))

/-! What the pattern of numbers takes of a text, part by part. -/

/-- The sign at the start of a text. -/
def scanMinus (t : Text) : Text :=
  (t.take 1).takeWhile (· == Code.ofChar '-')

/-- The whole part at the start of a text. -/
def scanWhole : Text → Option Text
  | [] => none
  | c :: rest =>
    if c == Code.ofChar '0' then some [c]
    else if isPositiveDigit c then some (c :: rest.takeWhile Code.isDecimal) else none

/-- The fraction at the start of a text. -/
def scanFraction : Text → Text
  | [] => []
  | c :: rest =>
    let digits := rest.takeWhile Code.isDecimal
    if c == Code.ofChar '.' && !digits.isEmpty then c :: digits else []

/-- The exponent at the start of a text. -/
def scanExponent : Text → Text
  | [] => []
  | c :: rest =>
    let sign := (rest.take 1).takeWhile (isOneOf "+-")
    let digits := (rest.drop sign.length).takeWhile Code.isDecimal
    if isOneOf "eE" c && !digits.isEmpty then c :: (sign ++ digits) else []

/-- What may follow a whole part at the start of a text. -/
def scanTail (t : Text) : Text :=
  let fraction := scanFraction t
  fraction ++ scanExponent (t.drop fraction.length)

/-- The number literal at the start of a text. -/
def scanNumber (t : Text) : Option Text :=
  let minus := scanMinus t
  let unsigned := t.drop minus.length
  (scanWhole unsigned).map fun whole => minus ++ (whole ++ scanTail (unsigned.drop whole.length))

theorem isOneOf_plus_minus {c : Code} :
    isOneOf "+-" c = true ↔ c = Code.ofChar '+' ∨ c = Code.ofChar '-' := by
  simp [isOneOf, Text.ofString]

theorem isOneOf_exponent_mark {c : Code} :
    isOneOf "eE" c = true ↔ c = Code.ofChar 'e' ∨ c = Code.ofChar 'E' := by
  simp [isOneOf, Text.ofString]

private theorem exponent_mark_ends {mark : Code}
    (hmark : mark = Code.ofChar 'e' ∨ mark = Code.ofChar 'E') :
    mark.isDecimal = false ∧ mark ≠ Code.ofChar '.' := by
  rcases hmark with rfl | rfl <;> decide

private theorem scans_whole :
    Scans (.alt (.one (· == Code.ofChar '0'))
      (.seq (.one isPositiveDigit) (.run Code.isDecimal 0 none true))) scanWhole := by
  refine ((Scans.one _).alt (Scans.run _).cons).congr fun t => ?_
  rcases t with _ | ⟨c, rest⟩
  · rfl
  · by_cases hc : (c == Code.ofChar '0') = true <;> simp [scanWhole, hc]

private theorem scans_fraction :
    Scans (.rep (.seq (.one (· == Code.ofChar '.')) (.run Code.isDecimal 1 none true)) 0 (some 1)
      true) fun t => some (scanFraction t) := by
  refine (Scans.run_one _).cons.optional.congr fun t => ?_
  rcases t with _ | ⟨c, rest⟩
  · rfl
  · by_cases hc : (c == Code.ofChar '.') = true <;>
      by_cases hempty : (rest.takeWhile Code.isDecimal).isEmpty = true <;>
      simp [scanFraction, hc, hempty]

private theorem scans_exponent :
    Scans (.rep (.seq (.one (isOneOf "eE"))
      (.seq (.run (isOneOf "+-") 0 (some 1) true) (.run Code.isDecimal 1 none true))) 0 (some 1)
      true) fun t => some (scanExponent t) := by
  have hnone : ∀ c rest, isOneOf "+-" c = true →
      (if ((c :: rest).takeWhile Code.isDecimal).isEmpty then none
        else some ((c :: rest).takeWhile Code.isDecimal)) = none := by
    intro c rest hc
    have hdecimal : c.isDecimal = false := by
      rcases isOneOf_plus_minus.mp hc with rfl | rfl <;> decide
    simp [hdecimal]
  refine ((Scans.run_one _).optional_cons hnone).cons.optional.congr fun t => ?_
  rcases t with _ | ⟨c, rest⟩
  · rfl
  · by_cases hc : isOneOf "eE" c = true
    · by_cases hempty : ((rest.drop ((rest.take 1).takeWhile (isOneOf "+-")).length).takeWhile
          Code.isDecimal).isEmpty = true <;> simp [scanExponent, hc, hempty]
    · simp [scanExponent, hc]

/-- What the pattern of numbers matches is what the scan takes. -/
theorem matched?_numberPattern (t : Text) : numberPattern.matched? t = scanNumber t := by
  have htail : Scans _ fun t => some (scanTail t) := scans_fraction.seq scans_exponent
  have hwhole := scans_whole.seq htail
  have hnone : ∀ c rest, (c == Code.ofChar '-') = true →
      ((scanWhole (c :: rest)).map fun w => w ++ scanTail ((c :: rest).drop w.length)) = none := by
    intro c rest hc
    obtain rfl := eq_of_beq hc
    rfl
  refine ((hwhole.optional_cons hnone).matched?_eq t).trans ?_
  simp [scanNumber, scanMinus, Function.comp_def]

/-! What the scan takes is a number literal, and it takes a literal in full. -/

private theorem isDigits_takeWhile {t : Text} (h : (t.takeWhile Code.isDecimal).isEmpty = false) :
    IsDigits (t.takeWhile Code.isDecimal) := by
  exact ⟨fun hnil => by simp [hnil] at h, fun c hc => List.mem_takeWhile_imp hc⟩

private theorem isFraction_scanFraction (t : Text) : IsFraction (scanFraction t) := by
  rcases t with _ | ⟨c, rest⟩
  · exact .none
  · simp only [scanFraction]
    split
    · next h =>
      rw [Bool.and_eq_true, Bool.not_eq_true'] at h
      obtain rfl := eq_of_beq h.1
      exact .some (isDigits_takeWhile h.2)
    · exact .none

private theorem isExponent_scanExponent (t : Text) : IsExponent (scanExponent t) := by
  rcases t with _ | ⟨c, rest⟩
  · exact .none
  · simp only [scanExponent]
    split
    · next h =>
      rw [Bool.and_eq_true, Bool.not_eq_true'] at h
      refine .some (isOneOf_exponent_mark.mp h.1) ?_ (isDigits_takeWhile h.2)
      rcases rest with _ | ⟨d, rest⟩
      · exact Or.inl rfl
      · by_cases hd : isOneOf "+-" d = true
        · rcases isOneOf_plus_minus.mp hd with rfl | rfl
          · exact Or.inr (Or.inl rfl)
          · exact Or.inr (Or.inr rfl)
        · exact Or.inl (by simp [hd])
    · exact .none

private theorem isWhole_of_scanWhole {t w : Text} (h : scanWhole t = some w) : IsWhole w := by
  rcases t with _ | ⟨c, rest⟩
  · cases h
  · simp only [scanWhole] at h
    split at h
    · next hc =>
      obtain rfl := eq_of_beq hc
      cases h
      exact .zero
    · split at h
      · next hc =>
        cases h
        simp only [isPositiveDigit, Bool.and_eq_true, decide_eq_true_eq] at hc
        exact .digits hc.1 hc.2 fun d hd => List.mem_takeWhile_imp hd
      · cases h

private theorem isMinus_scanMinus (t : Text) : IsMinus (scanMinus t) := by
  rcases t with _ | ⟨c, rest⟩
  · exact Or.inl rfl
  · by_cases hc : (c == Code.ofChar '-') = true
    · obtain rfl := eq_of_beq hc
      exact Or.inr rfl
    · exact Or.inl (by simp [scanMinus, hc])

theorem isNumber_of_scanNumber {t w : Text} (h : scanNumber t = some w) : IsNumber w := by
  obtain ⟨whole, hwhole, rfl⟩ := Option.map_eq_some_iff.mp h
  exact .mk (isMinus_scanMinus t) (isWhole_of_scanWhole hwhole) (isFraction_scanFraction _)
    (isExponent_scanExponent _)

/-- A text does not begin with a digit. -/
def NoDigit (t : Text) : Prop :=
  ∀ c rest, t = c :: rest → c.isDecimal = false

/-- A text does not begin with anything that could continue a number literal. -/
def EndsNumber (t : Text) : Prop :=
  ∀ c rest, t = c :: rest →
    c.isDecimal = false ∧ c ≠ Code.ofChar '.' ∧ c ≠ Code.ofChar 'e' ∧ c ≠ Code.ofChar 'E'

private theorem takeWhile_digits {ds u : Text} (hds : ∀ c ∈ ds, c.isDecimal = true)
    (hu : NoDigit u) : (ds ++ u).takeWhile Code.isDecimal = ds := by
  rw [List.takeWhile_append_of_pos hds]
  rcases u with _ | ⟨c, rest⟩
  · simp
  · simp [hu c rest rfl]

private theorem takeWhile_isDigits {ds u : Text} (hds : IsDigits ds) (hu : NoDigit u) :
    (ds ++ u).takeWhile Code.isDecimal = ds ∧ ds.isEmpty = false :=
  ⟨takeWhile_digits hds.2 hu, List.isEmpty_eq_false_iff.mpr hds.1⟩

/-- The sign in front of the digits of an exponent is taken whatever follows them. -/
private theorem scanSign_append {sign t : Text}
    (hsign : sign = [] ∨ sign = [Code.ofChar '+'] ∨ sign = [Code.ofChar '-']) (ht : IsDigits t)
    (u : Text) : ((sign ++ (t ++ u)).take 1).takeWhile (isOneOf "+-") = sign := by
  rcases hsign with rfl | rfl | rfl
  · obtain ⟨d, ds, rfl⟩ := List.exists_cons_of_ne_nil ht.1
    have hd : isOneOf "+-" d = false := by
      refine Bool.eq_false_iff.mpr fun h => ?_
      have hdecimal := ht.2 d List.mem_cons_self
      rcases isOneOf_plus_minus.mp h with rfl | rfl <;> revert hdecimal <;> decide
    simp [hd]
  · rfl
  · rfl

private theorem scanExponent_append {e u : Text} (he : IsExponent e) (hu : EndsNumber u) :
    scanExponent (e ++ u) = e := by
  have hno : NoDigit u := fun c rest h => (hu c rest h).1
  cases he with
  | none =>
    rcases u with _ | ⟨c, rest⟩
    · rfl
    · obtain ⟨-, -, hlow, hhigh⟩ := hu c rest rfl
      have hc : isOneOf "eE" c = false :=
        Bool.eq_false_iff.mpr fun h => (isOneOf_exponent_mark.mp h).elim hlow hhigh
      simp [scanExponent, hc]
  | @some mark sign t hmark hsign ht =>
    obtain ⟨htake, hempty⟩ := takeWhile_isDigits ht hno
    have hmark' := isOneOf_exponent_mark.mpr hmark
    simp [scanExponent, scanSign_append hsign ht, htake, hempty, hmark']

private theorem scanFraction_append {f u : Text} (hf : IsFraction f) (hu : NoDigit u)
    (hpoint : ∀ c rest, u = c :: rest → c ≠ Code.ofChar '.') : scanFraction (f ++ u) = f := by
  cases hf with
  | none =>
    rcases u with _ | ⟨c, rest⟩
    · rfl
    · simp [scanFraction, hpoint c rest rfl]
  | some ht =>
    obtain ⟨htake, hempty⟩ := takeWhile_isDigits ht hu
    simp [scanFraction, htake, hempty]

private theorem scanTail_append {f e u : Text} (hf : IsFraction f) (he : IsExponent e)
    (hu : EndsNumber u) : scanTail (f ++ (e ++ u)) = f ++ e := by
  have hhead : ∀ c rest, e ++ u = c :: rest → c.isDecimal = false ∧ c ≠ Code.ofChar '.' := by
    intro c rest h
    cases he with
    | none => exact ⟨(hu c rest h).1, (hu c rest h).2.1⟩
    | some hmark _ _ =>
      obtain rfl := (List.cons.inj h).1
      exact exponent_mark_ends hmark
  have hfraction : scanFraction (f ++ (e ++ u)) = f :=
    scanFraction_append hf (fun c rest h => (hhead c rest h).1) fun c rest h => (hhead c rest h).2
  simp [scanTail, hfraction, scanExponent_append he hu]

/-- A fraction or an exponent ends the digits in front of it. -/
private theorem noDigit_tail_of_ne_nil {f e : Text} (hf : IsFraction f) (he : IsExponent e)
    (hne : ¬(f = [] ∧ e = [])) (u : Text) : NoDigit (f ++ (e ++ u)) := by
  intro c rest h
  cases hf with
  | some _ =>
    obtain rfl := (List.cons.inj h).1
    decide
  | none =>
    cases he with
    | none => exact absurd ⟨rfl, rfl⟩ hne
    | some hmark _ _ =>
      obtain rfl := (List.cons.inj h).1
      exact (exponent_mark_ends hmark).1

theorem noDigit_tail {f e u : Text} (hf : IsFraction f) (he : IsExponent e)
    (hu : EndsNumber u) : NoDigit (f ++ (e ++ u)) := by
  by_cases hplain : f = [] ∧ e = []
  · obtain ⟨rfl, rfl⟩ := hplain
    exact fun c rest h => (hu c rest h).1
  · exact noDigit_tail_of_ne_nil hf he hplain u

private theorem scanWhole_append {w u : Text} (hw : IsWhole w) (hu : NoDigit u) :
    scanWhole (w ++ u) = some w := by
  cases hw with
  | zero => rfl
  | @digits c t hlow hhigh ht =>
    have hzero : (c == Code.ofChar '0') = false := by
      refine beq_eq_false_iff_ne.mpr fun h => ?_
      subst h
      revert hlow
      decide
    simp [scanWhole, hzero, isPositiveDigit, hlow, hhigh, takeWhile_digits ht hu]

/-- The first code point of a whole part is a digit of ASCII. -/
theorem IsWhole.exists_cons {w : Text} (hw : IsWhole w) :
    ∃ c rest, w = c :: rest ∧ 0x30 ≤ c.val ∧ c.val ≤ 0x39 := by
  cases hw with
  | zero => exact ⟨_, _, rfl, by decide, by decide⟩
  | digits hlow hhigh _ => exact ⟨_, _, rfl, by omega, hhigh⟩

private theorem scanMinus_append {minus whole : Text} (hminus : IsMinus minus) (hwhole : IsWhole whole)
    (u : Text) : scanMinus (minus ++ (whole ++ u)) = minus := by
  rcases hminus with rfl | rfl
  · obtain ⟨c, rest, rfl, hlow, hhigh⟩ := hwhole.exists_cons
    have hc : (c == Code.ofChar '-') = false :=
      Code.beq_eq_false_of_isDecimal (Code.isDecimal_of_ascii hlow hhigh) (by decide)
    simp [scanMinus, hc]
  · rfl

/-- A number literal is taken in full if what follows does not continue it. -/
theorem scanNumber_append {w u : Text} (hw : IsNumber w) (hu : EndsNumber u) :
    scanNumber (w ++ u) = some w := by
  cases hw with
  | @mk minus whole fraction exponent hminus hwhole hfraction hexponent =>
    have hscan := scanMinus_append hminus hwhole (fraction ++ (exponent ++ u))
    have hwhole' := scanWhole_append hwhole (noDigit_tail hfraction hexponent hu)
    simp [scanNumber, hscan, hwhole', scanTail_append hfraction hexponent hu]

/-! Whatever follows a literal, no less than the literal is taken. -/

private theorem length_le_takeWhile {ds : Text} (hds : ∀ c ∈ ds, c.isDecimal = true) (u : Text) :
    ds.length ≤ ((ds ++ u).takeWhile Code.isDecimal).length := by
  rw [List.takeWhile_append_of_pos hds, List.length_append]
  exact Nat.le_add_right _ _

private theorem length_le_takeWhile_isDigits {ds : Text} (hds : IsDigits ds) (u : Text) :
    ds.length ≤ ((ds ++ u).takeWhile Code.isDecimal).length ∧
      ((ds ++ u).takeWhile Code.isDecimal).isEmpty = false := by
  have hle := length_le_takeWhile hds.2 u
  have hpos := List.length_pos_iff.mpr hds.1
  refine ⟨hle, List.isEmpty_eq_false_iff.mpr fun hnil => ?_⟩
  rw [hnil, List.length_nil] at hle
  omega

private theorem length_le_scanExponent {e : Text} (he : IsExponent e) (u : Text) :
    e.length ≤ (scanExponent (e ++ u)).length := by
  cases he with
  | none => exact Nat.zero_le _
  | @some mark sign t hmark hsign ht =>
    obtain ⟨hle, hempty⟩ := length_le_takeWhile_isDigits ht u
    have hmark' := isOneOf_exponent_mark.mpr hmark
    simpa [scanExponent, scanSign_append hsign ht, hempty, hmark'] using hle

private theorem length_le_scanFraction {f : Text} (hf : IsFraction f) (u : Text) :
    f.length ≤ (scanFraction (f ++ u)).length := by
  cases hf with
  | none => exact Nat.zero_le _
  | some ht =>
    obtain ⟨hle, hempty⟩ := length_le_takeWhile_isDigits ht u
    simpa [scanFraction, hempty] using hle

private theorem length_le_scanTail {f e : Text} (hf : IsFraction f) (he : IsExponent e) (u : Text) :
    f.length + e.length ≤ (scanTail (f ++ (e ++ u))).length := by
  cases he with
  | none =>
    have hle := length_le_scanFraction hf u
    simp only [scanTail, List.nil_append, List.length_append, List.length_nil]
    omega
  | @some mark sign t hmark hsign ht =>
    -- The mark ends the digits of the fraction, so that is taken exactly.
    have hexponent := IsExponent.some hmark hsign ht
    have hhead : ∀ c rest, mark :: (sign ++ t) ++ u = c :: rest →
        c.isDecimal = false ∧ c ≠ Code.ofChar '.' := by
      intro c rest h
      obtain rfl := (List.cons.inj h).1
      exact exponent_mark_ends hmark
    have hfraction : scanFraction (f ++ (mark :: (sign ++ t) ++ u)) = f :=
      scanFraction_append hf (fun c rest h => (hhead c rest h).1) fun c rest h => (hhead c rest h).2
    have hle := length_le_scanExponent hexponent u
    rw [scanTail, hfraction, List.drop_left, List.length_append]
    omega

private theorem exists_scanWhole_append {w : Text} (hw : IsWhole w) (u : Text) :
    ∃ w', scanWhole (w ++ u) = some w' ∧ w.length ≤ w'.length := by
  cases hw with
  | zero => exact ⟨_, rfl, Nat.le_refl _⟩
  | @digits c t hlow hhigh ht =>
    have hzero : (c == Code.ofChar '0') = false := by
      refine beq_eq_false_iff_ne.mpr fun h => ?_
      subst h
      revert hlow
      decide
    refine ⟨c :: (t ++ u).takeWhile Code.isDecimal, ?_, ?_⟩
    · simp [scanWhole, hzero, isPositiveDigit, hlow, hhigh]
    · simpa using length_le_takeWhile ht u

/-- Whatever follows a number literal, a literal is taken that is at least as long. -/
theorem exists_scanNumber_append {w : Text} (hw : IsNumber w) (u : Text) :
    ∃ w', scanNumber (w ++ u) = some w' ∧ w.length ≤ w'.length := by
  cases hw with
  | @mk minus whole fraction exponent hminus hwhole hfraction hexponent =>
    have hscan := scanMinus_append hminus hwhole (fraction ++ (exponent ++ u))
    by_cases hplain : fraction = [] ∧ exponent = []
    · obtain ⟨rfl, rfl⟩ := hplain
      obtain ⟨whole', hwhole', hle⟩ := exists_scanWhole_append hwhole u
      refine ⟨minus ++ (whole' ++ scanTail ((whole ++ u).drop whole'.length)), ?_, ?_⟩
      · rw [List.nil_append, List.nil_append] at hscan
        simp [scanNumber, hscan, hwhole']
      · simp only [List.append_nil, List.length_append]
        omega
    · have hwhole' := scanWhole_append hwhole (noDigit_tail_of_ne_nil hfraction hexponent hplain u)
      have hle := length_le_scanTail hfraction hexponent u
      refine ⟨minus ++ (whole ++ scanTail (fraction ++ (exponent ++ u))), ?_, ?_⟩
      · simp [scanNumber, hscan, hwhole']
      · simp only [List.length_append]
        omega

end Descent.Json
