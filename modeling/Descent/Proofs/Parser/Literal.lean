import Descent.Expr
import Descent.Proofs.Pattern.Escaped
import Descent.Proofs.Sequence.Window

/-!
What is left to read, seen in four ways: as a sequence, by its length, by whether it is the end, and
by the window that a literal is compared with.  They agree from a position on that is not negative.
A negative position counts from the end for the sequence and for the window, though not for the
length and the end, and a window that goes on past the end begins at the start again.
-/

set_option autoImplicit false
set_option relaxedAutoImplicit false

namespace Descent

namespace Input

theorem left_eq_length_rest_iff (i : Input) : i.left = i.rest.length ↔ 0 ≤ i.position := by
  rw [left, rest, Sequence.length_sliceFrom]
  split <;> omega

theorem atEnd_agrees_iff (i : Input) :
    (i.atEnd = true ↔ i.rest.length = 0) ↔ 0 ≤ i.position ∨ i.data.length ≠ 0 := by
  rw [atEnd, decide_eq_true_eq, rest, Sequence.length_sliceFrom]
  split <;> omega

/-- A window agrees with a literal if the rest starts with it and the window shows the rest. -/
theorem agrees_window_iff (i : Input) (s : Sequence) :
    (i.window s.length).agrees s = true ↔
      i.rest.StartsWith s ∧ i.data.ShowsRest i.position s.length := by
  by_cases hshows : i.data.ShowsRest i.position s.length
  · rw [window, Sequence.slice_eq_take hshows]
    exact Sequence.agrees_take_iff.trans (and_iff_left hshows).symm
  · refine iff_of_false (fun hagrees => ?_) fun h => hshows h.2
    have hlength := Sequence.length_eq_of_agrees hagrees
    have hshort := Sequence.length_slice_lt hshows
    rw [window] at hlength
    omega

end Input

namespace Parser

/-- A literal is read, or the failure names it, by what the window agrees with. -/
theorem lit_ends (s : Sequence) (i : Input) :
    (lit s i = .done (.success s.toValue (i.advance s.length)) ↔
      i.rest.StartsWith s ∧ i.data.ShowsRest i.position s.length) ∧
    (lit s i =
        .done (.failure i.position (Text.ofString "plit(" ++ s.toValue.shown ++ Text.ofString ")")) ↔
      ¬(i.rest.StartsWith s ∧ i.data.ShowsRest i.position s.length)) := by
  rw [← i.agrees_window_iff s, lit]
  split
  · next hagrees => simp [hagrees, result, Run.done]
  · next hagrees => simp [hagrees, fail, Run.done]

/-- What a pattern with a single match does to a text. -/
theorem pattern_spelled_ends {i : Input} {t : Text} (ht : i.rest = .text t) (source u : Text) :
    (pattern source (Pattern.spelled u) i = .done (.success (.str u) (i.advance u.length)) ↔
      i.rest.StartsWith (.text u)) ∧
    (pattern source (Pattern.spelled u) i =
        .done (.failure i.position (Text.ofString "preg(" ++ source ++ Text.ofString ")")) ↔
      ¬i.rest.StartsWith (.text u)) := by
  rw [pattern, ht, Sequence.startsWith_text]
  dsimp only
  rw [Pattern.matched?_spelled]
  by_cases hstarts : u <+: t
  · simp [hstarts, result, Run.done]
  · simp [hstarts, fail, Run.done]

end Parser

/-- The length and the end of what is left are told right exactly from the positions that are not
negative (the end also of a sequence that is not empty), and a literal is read exactly where the
rest starts with it and the window shows the rest.  The pattern that a text is written as with its
special code points escaped finds it wherever the rest starts with it. -/
theorem Input.views_agree_iff (i : Input) :
    (i.left = i.rest.length ↔ 0 ≤ i.position) ∧
    ((i.atEnd = true ↔ i.rest.length = 0) ↔ 0 ≤ i.position ∨ i.data.length ≠ 0) ∧
    (∀ s : Sequence,
      (Parser.lit s i = .done (.success s.toValue (i.advance s.length)) ↔
        i.rest.StartsWith s ∧ i.data.ShowsRest i.position s.length) ∧
      (Parser.lit s i = .done (.failure i.position
          (Text.ofString "plit(" ++ s.toValue.shown ++ Text.ofString ")")) ↔
        ¬(i.rest.StartsWith s ∧ i.data.ShowsRest i.position s.length)) ∧
      (i.data.ShowsRest i.position s.length →
        (i.advance s.length).rest = i.rest.drop s.length)) ∧
    ∀ t u : Text, i.rest = .text t →
      ∃ g, Expr.patternOf (Pattern.escaped u) {} = .ok g ∧ ∀ (store : Store) (limit : Nat),
        (g.run store limit i = .done (.success (.str u) (i.advance u.length)) ↔
          i.rest.StartsWith (.text u)) ∧
        (g.run store limit i = .done (.failure i.position
            (Text.ofString "preg(" ++ Pattern.escaped u ++ Text.ofString ")")) ↔
          ¬i.rest.StartsWith (.text u)) := by
  refine ⟨i.left_eq_length_rest_iff, i.atEnd_agrees_iff, fun s => ?_, fun t u ht => ?_⟩
  · exact ⟨(Parser.lit_ends s i).1, (Parser.lit_ends s i).2, Sequence.sliceFrom_add⟩
  · refine ⟨.pattern (Pattern.escaped u) (Pattern.spelled u), ?_, fun store limit => ?_⟩
    · rw [Expr.patternOf, Pattern.read?_escaped rfl]
    · exact Parser.pattern_spelled_ends ht (Pattern.escaped u) u

/-- One element before the end, the length counts four elements and a literal is compared with an
empty window; before the start of an empty text, the end is not seen. -/
theorem Input.views_differ_at_negative_position :
    let i : Input := ⟨.text (Text.ofString "abc"), -1, false⟩
    let j : Input := ⟨.text [], -1, false⟩
    let c : Sequence := .text (Text.ofString "c")
    (i.left = 4 ∧ i.rest.length = 1) ∧
    (j.atEnd = false ∧ j.rest.length = 0) ∧
    (i.rest.StartsWith c ∧ Parser.lit c i = .done (.failure (-1) (Text.ofString "plit('c')"))) := by
  refine ⟨⟨by decide, by decide⟩, ⟨by decide, by decide⟩, ?_, rfl⟩
  exact Sequence.startsWith_text.mpr (List.prefix_refl _)

end Descent
