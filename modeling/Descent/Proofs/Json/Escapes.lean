import Descent.Proofs.Json.StringLiteral
import Descent.Proofs.Pattern.Segments
import Descent.Proofs.Text.Surrogates

/-!
What string literals denote.  Two patterns read the escapes of a string: the one of string literals,
which says where they are, and the one by which they are replaced, which finds them once more.
Replacing them is one scan from the left, whatever the text, and in a string literal both patterns
cut the text at the same places.
-/

set_option autoImplicit false
set_option relaxedAutoImplicit false

namespace Descent.Json

open Pattern

private theorem matchAt_escape (rest : Text) :
    escapePattern.matchAt some (Place.start (backslash :: rest)) =
      (matchAt (.seq (.one (· == Code.ofChar 'u')) (.group 1 fourHexDigits)) some
        ⟨[backslash], rest, []⟩).or
      (matchAt (.group 2 (.one (· != Code.ofChar '\n'))) some ⟨[backslash], rest, []⟩) := by
  have hp : (Place.start (backslash :: rest)).ahead = Code.ofChar '\\' :: rest := rfl
  rw [escapePattern, matchAt_seq, matchAt_one_self hp, matchAt_alt]
  rfl

theorem segments_of_ne_backslash {c : Code} (hc : c ≠ backslash) (rest : Text) :
    escapePattern.segments (c :: rest) = .kept c :: escapePattern.segments rest := by
  have hp : (Place.start (c :: rest)).ahead = c :: rest := rfl
  exact segments_cons_of_none (matchAt_one_of_ne hp hc)

theorem segments_digits {digits : Text} (u : Text) (hlength : digits.length = 4)
    (hall : digits.all isHexDigit = true) :
    escapePattern.segments (backslash :: Code.ofChar 'u' :: (digits ++ u)) =
      .found (backslash :: Code.ofChar 'u' :: digits) [(1, digits)] :: escapePattern.segments u := by
  have hp : (⟨[backslash], Code.ofChar 'u' :: (digits ++ u), []⟩ : Place).ahead
      = Code.ofChar 'u' :: (digits ++ u) := rfl
  have htake : (digits ++ u).take 4 = digits := by simp [← hlength]
  have hdrop : (digits ++ u).drop 4 = u := by simp [← hlength]
  have hahead : ((⟨[backslash], Code.ofChar 'u' :: (digits ++ u), []⟩ : Place).after
      [Code.ofChar 'u']).ahead = digits ++ u := rfl
  have hmatch :
      escapePattern.matchAt some (Place.start (backslash :: Code.ofChar 'u' :: (digits ++ u))) =
        some ⟨digits.reverse ++ [Code.ofChar 'u', backslash], u, [(1, digits)]⟩ := by
    rw [matchAt_escape, matchAt_seq, matchAt_one_self hp, matchAt_group, fourHexDigits,
      matchAt_exactly, hahead, htake, if_pos ⟨hlength, hall⟩, Place.upTo_after (by simp)]
    simp [Place.after, hlength, hdrop]
  exact segments_append_of_some (backslash :: Code.ofChar 'u' :: digits) (by simp)
    (by simpa using hmatch)

/-- Without four hexadecimal digits, the letter u is a letter like any other. -/
theorem segments_letter {d : Code} {rest : Text} (hline : d ≠ Code.ofChar '\n')
    (hdigits : ¬(d = Code.ofChar 'u' ∧ (rest.take 4).length = 4 ∧
      (rest.take 4).all isHexDigit = true)) :
    escapePattern.segments (backslash :: d :: rest) =
      .found [backslash, d] [(2, [d])] :: escapePattern.segments rest := by
  have hp : (⟨[backslash], d :: rest, []⟩ : Place).ahead = d :: rest := rfl
  have hunicode : matchAt (.seq (.one (· == Code.ofChar 'u')) (.group 1 fourHexDigits)) some
      ⟨[backslash], d :: rest, []⟩ = none := by
    by_cases hd : d = Code.ofChar 'u'
    · subst hd
      have hfew : ¬((rest.take 4).length = 4 ∧ (rest.take 4).all isHexDigit = true) := fun h =>
        hdigits ⟨rfl, h⟩
      rw [matchAt_seq, matchAt_one_self hp, matchAt_group, fourHexDigits, matchAt_exactly]
      exact if_neg hfew
    · rw [matchAt_seq, matchAt_one_of_ne hp hd]
  have hmatch : escapePattern.matchAt some (Place.start (backslash :: d :: rest))
      = some ⟨[d, backslash], rest, [(2, [d])]⟩ := by
    have hletter : (fun d => d != Code.ofChar '\n') d = true := bne_iff_ne.mpr hline
    rw [matchAt_escape, hunicode, Option.none_or, matchAt_group, matchAt_one_of_pos hp hletter,
      Place.upTo_after (by simp)]
    rfl
  exact segments_append_of_some [backslash, d] (by simp) hmatch

private theorem escapeText_letter (d : Code) :
    escapeText [(2, [d])] =
      match escapedCode? d with
      | some e => .ok [e]
      | none => .error (.noKey (.str [d])) := rfl

/-- An element is a segment, whatever comes behind it, and it is replaced by what it denotes. -/
theorem exists_segment_of_element {raw : Text} {c : Code} (u : Text) (h : StringElement raw c) :
    ∃ segment : Segment, escapePattern.segments (raw ++ u) = segment :: escapePattern.segments u ∧
      segment.text = raw ∧ segment.replaced escapeText = .ok [c] := by
  -- What comes behind an escaped letter does not matter, as the letter is not u.
  cases h with
  | plain hc => exact ⟨.kept c, segments_of_ne_backslash (isPlain_iff.mp hc).2.1 u, rfl, rfl⟩
  | @escape d c hd =>
    have hline : d ≠ Code.ofChar '\n' := ne_of_escapedCode? hd rfl
    have hu : d ≠ Code.ofChar 'u' := ne_of_escapedCode? hd rfl
    refine ⟨.found [backslash, d] [(2, [d])], segments_letter hline fun h => hu h.1, rfl, ?_⟩
    rw [Segment.replaced, escapeText_letter, hd]
  | @unicode digits hlength hall =>
    exact ⟨.found (backslash :: Code.ofChar 'u' :: digits) [(1, digits)],
      segments_digits u hlength hall, rfl, rfl⟩

theorem segments_elements {raws : List Text} {codes : Text}
    (h : List.Forall₂ StringElement raws codes) :
    (escapePattern.segments raws.flatten).map Segment.text = raws ∧
      List.Forall₂ (fun segment c => Segment.replaced escapeText segment = .ok [c])
        (escapePattern.segments raws.flatten) codes := by
  induction h with
  | nil =>
    rw [List.flatten_nil, segments]
    exact ⟨rfl, .nil⟩
  | @cons raw c raws codes hraw _ ih =>
    obtain ⟨segment, hsegments, htext, hreplaced⟩ := exists_segment_of_element raws.flatten hraw
    rw [List.flatten_cons, hsegments, List.map_cons, htext, ih.1]
    exact ⟨rfl, .cons hreplaced ih.2⟩

/-- A body is the elements of which it is made, one behind the other. -/
theorem StringBody.exists_elements {body decoded : Text} (h : StringBody body decoded) :
    ∃ raws : List Text, body = raws.flatten ∧ List.Forall₂ StringElement raws decoded := by
  induction h with
  | nil => exact ⟨[], rfl, .nil⟩
  | @cons raw body decoded c hraw _ ih =>
    obtain ⟨raws, rfl, hraws⟩ := ih
    exact ⟨raw :: raws, rfl, .cons hraw hraws⟩

/-! What a literal denotes. -/

theorem between_eq_dropLast_tail (t : Text) : Sequence.between 1 (-1) t = t.tail.dropLast := by
  have hstart : Sequence.offset t 1 = 1 := rfl
  have hstop : Sequence.offset t (-1) = t.length - 1 := by
    rw [Sequence.offset, if_neg (by decide)]
    omega
  rw [Sequence.between, hstart, hstop, List.drop_one, ← List.dropLast_eq_take, List.tail_dropLast]

/-- A string literal denotes the code points of its elements, with the surrogate pairs joined. -/
theorem unescape_literal {body decoded : Text} (h : StringBody body decoded) :
    unescape (quote :: (body ++ [quote])) = .ok decoded.joinSurrogates := by
  obtain ⟨raws, rfl, hraws⟩ := h.exists_elements
  rw [unescape, between_eq_dropLast_tail, List.tail_cons, List.dropLast_concat,
    replace_of_forall₂ (segments_elements hraws).2]
  rfl

end Descent.Json
