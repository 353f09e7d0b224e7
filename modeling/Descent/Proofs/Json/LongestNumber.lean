import Descent.Expr
import Descent.Proofs.Json.Number
import Descent.Proofs.Pattern.Progress
import Descent.Proofs.Sequence.Slice

/-!
The pattern of numbers takes the longest literal.  It tries its optional parts from left to right and
never comes back to one that it has passed over, yet no other way of matching gets further: only an
exponent may follow a fraction, and what begins neither of them ends the digits.
-/

set_option autoImplicit false
set_option relaxedAutoImplicit false

namespace Descent.Json

open Pattern

/-- How the pattern of numbers is written. -/
def numberSource : Text :=
  Text.ofString "-?(?:0|[1-9]\\d*)(?:\\.\\d+)?(?:[eE][+-]?\\d+)?"

/-- The longest number literal that a text begins with. -/
structure IsLongestNumber (t w : Text) : Prop where
  isPrefix : w <+: t
  isNumber : IsNumber w
  length_le {w' : Text} : w' <+: t → IsNumber w' → w'.length ≤ w.length

/-- The written pattern is the pattern of numbers. -/
theorem patternOf_numberSource :
    Expr.patternOf numberSource {} = .ok (.pattern numberSource numberPattern) := by
  have hread : read? {} numberSource = some numberPattern := by
    -- The classes in brackets are read member by member.
    have hpositive : (fun c => (false || decide (Code.ofChar '1' ≤ c ∧ c ≤ Code.ofChar '9'))) =
        isPositiveDigit := by
      funext c
      simp only [isPositiveDigit, Fin.le_def, Bool.false_or, Bool.decide_and]
      rfl
    have hmark : (fun c => (false || c == Code.ofChar 'e' || c == Code.ofChar 'E')) =
        isOneOf "eE" := by
      funext c
      exact Bool.eq_iff_iff.mpr (by simp [isOneOf_exponent_mark])
    have hsign : (fun c => (false || c == Code.ofChar '+' || c == Code.ofChar '-')) =
        isOneOf "+-" := by
      funext c
      exact Bool.eq_iff_iff.mpr (by simp [isOneOf_plus_minus])
    rw [numberPattern, ← hpositive, ← hmark, ← hsign]
    rfl
  rw [Expr.patternOf, hread]

theorem scanNumber_eq_some_iff {t w : Text} : scanNumber t = some w ↔ IsLongestNumber t w := by
  have hstart : ∀ {w}, scanNumber t = some w → w <+: t := by
    intro w hw
    rw [← matched?_numberPattern] at hw
    obtain ⟨u, hu⟩ := eq_append_of_matched? hw
    exact ⟨u, hu.symm⟩
  have hlongest : ∀ {w w'}, scanNumber t = some w → w' <+: t → IsNumber w' →
      w'.length ≤ w.length := by
    rintro w w' hw ⟨u, rfl⟩ hw'
    obtain ⟨w'', hscan, hle⟩ := exists_scanNumber_append hw' u
    rw [hw] at hscan
    rwa [Option.some.inj hscan]
  refine ⟨fun hw => ⟨hstart hw, isNumber_of_scanNumber hw, hlongest hw⟩, fun hw => ?_⟩
  obtain ⟨u, rfl⟩ := hw.isPrefix
  obtain ⟨w', hscan, hle⟩ := exists_scanNumber_append hw.isNumber u
  have hle' := hw.length_le (hstart hscan) (isNumber_of_scanNumber hscan)
  have hpre : w <+: w' := List.prefix_of_prefix_length_le hw.isPrefix (hstart hscan) hle
  rw [hscan, hpre.eq_of_length (Nat.le_antisymm hle hle')]

theorem scanNumber_eq_none_iff {t : Text} :
    scanNumber t = none ↔ ∀ w, w <+: t → ¬IsNumber w := by
  constructor
  · rintro hnone w ⟨u, rfl⟩ hw
    obtain ⟨w', hscan, -⟩ := exists_scanNumber_append hw u
    rw [hnone] at hscan
    cases hscan
  · intro h
    refine Option.eq_none_iff_forall_ne_some.mpr fun w hscan => ?_
    have hw := scanNumber_eq_some_iff.mp hscan
    exact h w hw.isPrefix hw.isNumber

example : scanNumber (Text.ofString "1.x") = some (Text.ofString "1") := by
  decide

example : scanNumber (Text.ofString "-12.5e+") = some (Text.ofString "-12.5") := by
  decide

section Reading

variable (t : Text) (position : Nat) (traced : Bool)

/-- At a place of a text, the pattern of numbers reads what the scan takes of the rest. -/
theorem run_numberPattern :
    Parser.pattern numberSource numberPattern ⟨.text t, position, traced⟩ =
      match scanNumber (t.drop position) with
      | some w => .done (.success (.str w) ⟨.text t, position + w.length, traced⟩)
      | none => .done (.failure position
          (Text.ofString "preg(" ++ numberSource ++ Text.ofString ")")) := by
  rw [Parser.pattern, Input.rest_mk_text]
  dsimp only
  rw [matched?_numberPattern]
  cases scanNumber (t.drop position) <;> rfl

theorem numberPattern_reads_iff (w : Text) :
    Parser.pattern numberSource numberPattern ⟨.text t, position, traced⟩ =
        .done (.success (.str w) ⟨.text t, position + w.length, traced⟩) ↔
      IsLongestNumber (t.drop position) w := by
  rw [run_numberPattern, ← scanNumber_eq_some_iff]
  cases scanNumber (t.drop position) with
  | none => simp [Run.done]
  | some w' =>
    refine ⟨fun h => ?_, fun h => by rw [Option.some.inj h]⟩
    simp only [Run.done, Run.mk.injEq, Except.ok.injEq, Outcome.success.injEq, Value.str.injEq] at h
    rw [h.1.1]

theorem numberPattern_fails_iff :
    Parser.pattern numberSource numberPattern ⟨.text t, position, traced⟩ =
        .done (.failure position (Text.ofString "preg(" ++ numberSource ++ Text.ofString ")")) ↔
      ∀ w, w <+: t.drop position → ¬IsNumber w := by
  rw [run_numberPattern, ← scanNumber_eq_none_iff]
  cases scanNumber (t.drop position) <;> simp [Run.done]

theorem numberPattern_succeeds_iff :
    (∃ v j, Parser.pattern numberSource numberPattern ⟨.text t, position, traced⟩ =
        .done (.success v j)) ↔
      ∃ w, w <+: t.drop position ∧ IsNumber w := by
  rw [run_numberPattern]
  cases hscan : scanNumber (t.drop position) with
  | none =>
    have hnone := scanNumber_eq_none_iff.mp hscan
    refine ⟨fun ⟨_, _, h⟩ => ?_, fun ⟨w, hw, hnumber⟩ => absurd hnumber (hnone w hw)⟩
    simp [Run.done] at h
  | some w =>
    have hlongest := scanNumber_eq_some_iff.mp hscan
    exact ⟨fun _ => ⟨w, hlongest.isPrefix, hlongest.isNumber⟩, fun _ => ⟨_, _, rfl⟩⟩

end Reading

end Descent.Json
