import Descent.Json.Literal
import Descent.Proofs.Pattern.Scan
import Descent.Proofs.Text.Classes

/-!
String literals: how they are written, and that this is what the pattern of strings matches.  A
literal is made of elements, each of which denotes one code point, and no element begins with a
quotation mark, so the first one outside an element ends the literal.
-/

set_option autoImplicit false
set_option relaxedAutoImplicit false

namespace Descent.Json

open Pattern

/-- A quotation mark. -/
def quote : Code :=
  Code.ofChar '"'

/-- A backslash. -/
def backslash : Code :=
  Code.ofChar '\\'

/-- One element of a string literal and the code point that it denotes. -/
inductive StringElement : Text → Code → Prop where
  | plain {c : Code} : isPlain c = true → StringElement [c] c
  | escape {c d : Code} : escapedCode? c = some d → StringElement [backslash, c] d
  | unicode {digits : Text} : digits.length = 4 → digits.all isHexDigit = true →
    StringElement (backslash :: Code.ofChar 'u' :: digits) (Code.ofNat (ofHexDigits digits))

/-- What stands between the quotation marks of a string literal, and the code points of its
elements. -/
inductive StringBody : Text → Text → Prop where
  | nil : StringBody [] []
  | cons {raw body decoded : Text} {c : Code} : StringElement raw c → StringBody body decoded →
    StringBody (raw ++ body) (c :: decoded)

theorem isPlain_iff {c : Code} :
    isPlain c = true ↔ c ≠ quote ∧ c ≠ backslash ∧ 0x1F < c.val := by
  simp [isPlain, quote, backslash, and_assoc]

/-- The letters that may be escaped are those that stand for a code point. -/
theorem isOneOf_escapes {c : Code} :
    isOneOf "\"\\/bfnrt" c = true ↔ ∃ d, escapedCode? c = some d := by
  constructor
  · intro h
    have hmem : c = quote ∨ c = backslash ∨ c = Code.ofChar '/' ∨ c = Code.ofChar 'b' ∨
        c = Code.ofChar 'f' ∨ c = Code.ofChar 'n' ∨ c = Code.ofChar 'r' ∨ c = Code.ofChar 't' := by
      simpa [isOneOf, Text.ofString, quote, backslash] using h
    rcases hmem with rfl | rfl | rfl | rfl | rfl | rfl | rfl | rfl <;> exact ⟨_, rfl⟩
  · rintro ⟨d, h⟩
    unfold escapedCode? at h
    split at h
    all_goals first
      | (next hc => obtain rfl := Code.eq_ofChar_of_toChar hc (by decide); decide)
      | cases h

theorem ne_of_escapedCode? {c d e : Code} (hd : escapedCode? d = some e)
    (hc : escapedCode? c = none) : d ≠ c := by
  rintro rfl
  rw [hc] at hd
  cases hd

/-! What the pattern of strings matches. -/

/-- The pattern of one element of a string literal, which the pattern of strings repeats. -/
def elementPattern : Pattern :=
  .alt (.one isPlain)
    (.alt (.seq (.one (· == Code.ofChar '\\')) (.one (isOneOf "\"\\/bfnrt")))
      (sequence [.one (· == Code.ofChar '\\'), .one (· == Code.ofChar 'u'), fourHexDigits]))

theorem StringElement.exists_cons {raw : Text} {c : Code} (h : StringElement raw c) :
    ∃ d rest, raw = d :: rest ∧ d ≠ quote := by
  cases h with
  | plain hc => exact ⟨_, _, rfl, (isPlain_iff.mp hc).1⟩
  | escape _ => exact ⟨_, _, rfl, by decide⟩
  | unicode _ _ => exact ⟨_, _, rfl, by decide⟩

private theorem matchAt_element_plain {c : Code} {rest : Text} {p : Place} (next : Next)
    (hp : p.ahead = c :: rest) (hc : isPlain c = true) :
    matchAt elementPattern next p = next (p.after [c]) := by
  have hne : c ≠ Code.ofChar '\\' := (isPlain_iff.mp hc).2.1
  rw [elementPattern, matchAt_alt, matchAt_alt, matchAt_one_of_pos hp hc, matchAt_seq,
    matchAt_one_of_ne hp hne, Pattern.sequence, matchAt_seq, matchAt_one_of_ne hp hne]
  cases next (p.after [c]) <;> rfl

private theorem matchAt_element_backslash {rest : Text} {p : Place} (next : Next)
    (hp : p.ahead = backslash :: rest) :
    matchAt elementPattern next p =
      (matchAt (.one (isOneOf "\"\\/bfnrt")) next (p.after [backslash])).or
        (matchAt (.seq (.one (· == Code.ofChar 'u')) fourHexDigits) next (p.after [backslash])) := by
  have hplain : matchAt (.one isPlain) next p = none := matchAt_one_of_neg hp (by decide)
  rw [elementPattern, matchAt_alt, matchAt_alt, hplain, Option.none_or]
  exact congrArg₂ Option.or (matchAt_one_self hp) (matchAt_one_self hp)

/-- An element that comes next is taken. -/
theorem matchAt_element {raw u : Text} {c : Code} (next : Next) {p : Place}
    (h : StringElement raw c) (hp : p.ahead = raw ++ u) :
    matchAt elementPattern next p = next (p.after raw) := by
  cases h with
  | plain hc => exact matchAt_element_plain next hp hc
  | @escape d c hc =>
    have hahead : (p.after [backslash]).ahead = d :: u := by simp [hp]
    have hescape : isOneOf "\"\\/bfnrt" d = true := isOneOf_escapes.mpr ⟨c, hc⟩
    have hu : d ≠ Code.ofChar 'u' := ne_of_escapedCode? hc rfl
    rw [matchAt_element_backslash next hp, matchAt_one_of_pos hahead hescape, matchAt_seq,
      matchAt_one_of_ne hahead hu, Option.or_none, Place.after_after]
    rfl
  | @unicode digits hlength hall =>
    have hahead : (p.after [backslash]).ahead = Code.ofChar 'u' :: (digits ++ u) := by simp [hp]
    have hdigits : (p.after [backslash, Code.ofChar 'u']).ahead.take 4 = digits := by
      simp [hp, ← hlength]
    have hescape : matchAt (.one (isOneOf "\"\\/bfnrt")) next (p.after [backslash]) = none :=
      matchAt_one_of_neg hahead (by decide)
    rw [matchAt_element_backslash next hp, hescape, Option.none_or, matchAt_seq,
      matchAt_one_self hahead, Place.after_after, fourHexDigits, matchAt_exactly,
      List.singleton_append, hdigits, if_pos ⟨hlength, hall⟩, Place.after_after]
    rfl

/-- What is taken is an element. -/
private theorem exists_element {next : Next} {p q : Place}
    (h : matchAt elementPattern next p = some q) :
    ∃ raw c u, StringElement raw c ∧ p.ahead = raw ++ u ∧ next (p.after raw) = some q := by
  rw [elementPattern, matchAt_alt, matchAt_alt, Option.or_eq_some_iff, Option.or_eq_some_iff] at h
  rcases h with hplain | ⟨-, hescape | ⟨-, hunicode⟩⟩
  · obtain ⟨c, rest, hp, hc, hnext⟩ := exists_of_matchAt_one hplain
    exact ⟨[c], c, rest, .plain hc, hp, hnext⟩
  · obtain ⟨b, rest, hp, hb, hescape⟩ := exists_of_matchAt_one hescape
    obtain ⟨c, rest', hp', hc, hnext⟩ := exists_of_matchAt_one hescape
    obtain rfl : b = backslash := eq_of_beq hb
    obtain ⟨d, hd⟩ := isOneOf_escapes.mp hc
    have hrest : rest = c :: rest' := by simpa [hp] using hp'
    rw [Place.after_after] at hnext
    exact ⟨_, d, rest', .escape hd, by rw [hp, hrest]; rfl, hnext⟩
  · obtain ⟨b, rest, hp, hb, hunicode⟩ := exists_of_matchAt_one hunicode
    obtain ⟨c, rest', hp', hc, hdigits⟩ := exists_of_matchAt_one hunicode
    obtain rfl : b = backslash := eq_of_beq hb
    obtain rfl : c = Code.ofChar 'u' := eq_of_beq hc
    have hrest : rest = Code.ofChar 'u' :: rest' := by simpa [hp] using hp'
    have hahead : ((p.after [backslash]).after [Code.ofChar 'u']).ahead = rest' := by
      simp [hp, hrest]
    have hexactly := (matchAt_exactly isHexDigit 4 next _).symm.trans hdigits
    rw [hahead] at hexactly
    split at hexactly
    · next hall =>
      rw [Place.after_after, Place.after_after] at hexactly
      refine ⟨_, _, rest'.drop 4, .unicode hall.1 hall.2, ?_, hexactly⟩
      rw [hp, hrest]
      simp
    · cases hexactly

private theorem matchAt_quote {next : Next} {p : Place} {u : Text} (hp : p.ahead = quote :: u) :
    matchAt (.one (· == Code.ofChar '"')) next p = next (p.after [quote]) :=
  matchAt_one_self hp

/-- The loop over the elements and the quotation mark behind it. -/
private def closeString : Place → Option Place :=
  greedily elementPattern.matchAt (matchAt (.one (· == Code.ofChar '"')) some) none

private theorem closeString_eq (p : Place) :
    closeString p =
      (matchAt elementPattern (fun q =>
        if q.ahead.length < p.ahead.length then closeString q
        else matchAt (.one (· == Code.ofChar '"')) some q) p).or
      (matchAt (.one (· == Code.ofChar '"')) some p) := by
  rw [closeString, greedily]
  simp only [Option.map_none, reduceCtorEq, beq_iff_eq, if_false]
  split <;> simp_all

private theorem length_after_lt {raw u : Text} {c : Code} {p : Place} (h : StringElement raw c)
    (hp : p.ahead = raw ++ u) : (p.after raw).ahead.length < p.ahead.length := by
  obtain ⟨d, rest, hcons, -⟩ := h.exists_cons
  have hraw : 0 < raw.length := by simp [hcons]
  simp only [Place.ahead_after, hp, List.drop_left, List.length_append]
  omega

private theorem closeString_append {body decoded u : Text} (h : StringBody body decoded) {p : Place}
    (hp : p.ahead = body ++ quote :: u) : closeString p = some (p.after (body ++ [quote])) := by
  induction h generalizing p with
  | nil =>
    -- The loop stops here, as no element begins with a quotation mark.
    rw [closeString_eq, matchAt_quote hp, Option.or_eq_some_iff]
    refine Or.inr ⟨?_, rfl⟩
    refine Option.eq_none_iff_forall_ne_some.mpr fun q hq => ?_
    obtain ⟨raw, c, u', hraw, hahead, -⟩ := exists_element hq
    obtain ⟨d, rest, rfl, hd⟩ := hraw.exists_cons
    exact hd (List.cons.inj (hahead.symm.trans hp)).1
  | @cons raw body decoded c hraw _ ih =>
    have hahead : p.ahead = raw ++ (body ++ quote :: u) := by simpa using hp
    rw [closeString_eq, matchAt_element _ hraw hahead, if_pos (length_after_lt hraw hahead),
      ih (by simp [hahead])]
    simp

private theorem exists_body {p q : Place} (h : closeString p = some q) :
    ∃ body decoded u, StringBody body decoded ∧ p.ahead = body ++ quote :: u ∧
      q = p.after (body ++ [quote]) := by
  induction hn : p.ahead.length using Nat.strong_induction_on generalizing p with
  | _ n ih =>
    subst hn
    rw [closeString_eq, Option.or_eq_some_iff] at h
    rcases h with h | ⟨-, h⟩
    · obtain ⟨raw, c, u, hraw, hahead, hrest⟩ := exists_element h
      have hlt := length_after_lt hraw hahead
      rw [if_pos hlt] at hrest
      obtain ⟨body, decoded, u', hbody, hahead', hq⟩ := ih _ hlt hrest rfl
      have hu : u = body ++ quote :: u' := by simpa [hahead] using hahead'
      refine ⟨raw ++ body, c :: decoded, u', .cons hraw hbody, ?_, ?_⟩
      · rw [hahead, hu, List.append_assoc]
      · rw [hq, Place.after_after, List.append_assoc]
    · obtain ⟨c, u, hp, hc, hq⟩ := exists_of_matchAt_one h
      obtain rfl : c = quote := eq_of_beq hc
      exact ⟨[], [], u, .nil, hp, (Option.some.inj hq).symm⟩

/-- The pattern of strings matches the string literals, and nothing else. -/
theorem matched?_stringPattern {t w : Text} :
    stringPattern.matched? t = some w ↔
      ∃ body decoded u, StringBody body decoded ∧ w = quote :: (body ++ [quote]) ∧ t = w ++ u := by
  have hmatch : ∀ u, (Place.start t).ahead = quote :: u →
      stringPattern.matchAt some (Place.start t) = closeString ((Place.start t).after [quote]) :=
    fun u hu => matchAt_one_self hu
  constructor
  · intro h
    obtain ⟨q, hq, rfl⟩ := Option.map_eq_some_iff.mp h
    obtain ⟨c, rest, hp, hc, -⟩ := exists_of_matchAt_one hq
    obtain rfl : c = quote := eq_of_beq hc
    rw [hmatch rest hp] at hq
    obtain ⟨body, decoded, u, hbody, hahead, rfl⟩ := exists_body hq
    have hrest : rest = body ++ quote :: u := by simpa [hp] using hahead
    have ht : t = quote :: rest := hp
    refine ⟨body, decoded, u, hbody, ?_, ?_⟩
    · simp [Place.after, Place.start]
    · simp [Place.after, Place.start, ht, hrest]
  · rintro ⟨body, decoded, u, hbody, rfl, rfl⟩
    have hstart : (Place.start (quote :: (body ++ [quote]) ++ u)).ahead
        = quote :: (body ++ quote :: u) := by simp [Place.start]
    rw [matched?, hmatch _ hstart, closeString_append hbody (by simp [Place.start]; rfl)]
    simp [Place.after, Place.start]

end Descent.Json
