import Descent.Proofs.Grammar.Dependence
import Descent.Proofs.Grammar.Limits
import Descent.Proofs.Parser.Faults

/-!
Grammars on texts, under one limit and another.  Where a run stops with a fault it does so whatever
stands in front of what it reads.  So a text that is accepted under a limit is accepted under a
smaller one too, or too deep for that wherever it stands.
-/

set_option autoImplicit false
set_option relaxedAutoImplicit false

namespace Descent.Grammar

variable {g : Grammar} {s : Store} {limit : Nat} {whole x y : Text} {f : Fault} {v : Value}

/-- Whether a run stops depends only on what it reads. -/
theorem stops_iff_alone (hx : x <:+ whole) :
    (g.run s limit).Stops whole x f ↔ (g.run s limit).Stops x x f := by
  obtain ⟨front, rfl⟩ := hx
  have happend : (Sequence.text front).append? (.text x) = some (.text (front ++ x)) := rfl
  have hbehind : Input.Behind (.text front) (.text x) (.text (front ++ x)) false
      (.before (front ++ x) x) (.before x x) := by
    refine ⟨rfl, rfl, ?_, ?_, rfl, rfl⟩
    · simp [Input.before]
    · simp [Input.before, Sequence.length]
  have hruns := (Correspondence.behind happend false).run_erase g s limit _ _ hbehind
  have halone : g.run s limit (.before x x) = g.erase.run s.erase limit (.before x x) := by
    rw [Input.before_self]
    exact (g.run_eq_run_erase s limit (.text x) 0).1
  rw [Parser.Stops, Parser.Stops, halone]
  exact hruns.ending.eq_error_iff f

/-- What is accepted under a limit is accepted under a smaller one or too deep for it. -/
theorem accepts_or_stops {m n : Nat} (h : m ≤ n) (hp : (g.run s n).Accepts x v y) :
    (g.run s m).Accepts x v y ∨ ∀ whole, x <:+ whole → (g.run s m).Stops whole x .tooDeep := by
  by_cases hdeep : (g.run s m).Stops x x .tooDeep
  · exact Or.inr fun whole hx => (stops_iff_alone hx).mpr hdeep
  · refine Or.inl ⟨hp.suffix, fun whole hx => ?_⟩
    have hnot : (g.run s m (.before whole x)).ending ≠ .error .tooDeep := fun hstops =>
      hdeep ((stops_iff_alone hx).mp hstops)
    rw [← run_eq_of_le h hnot]
    exact hp.run whole hx

end Descent.Grammar
