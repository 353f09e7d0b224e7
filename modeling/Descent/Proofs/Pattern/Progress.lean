import Descent.Pattern

/-!
A matcher only moves along a text: whatever it hands to what follows is a place in the same text.
So what a pattern matches is a start of the text.
-/

set_option autoImplicit false
set_option relaxedAutoImplicit false

namespace Descent.Pattern

/-- The text in which a place is. -/
def Place.whole (p : Place) : Text :=
  p.passed.reverse ++ p.ahead

/-- What a matcher hands on is a place in the same text. -/
def StaysInText (m : Next → Next) : Prop :=
  ∀ (next : Next) (p q : Place), m next p = some q → ∃ r : Place, r.whole = p.whole ∧ next r = some q

@[simp] theorem Place.whole_start (t : Text) : (Place.start t).whole = t := by
  simp [Place.whole, Place.start]

@[simp] theorem Place.whole_forward (p : Place) : p.forward.whole = p.whole := by
  rcases p with ⟨passed, _ | ⟨c, ahead⟩, groups⟩ <;> simp [Place.forward, Place.whole]

@[simp] theorem Place.whole_backward (p : Place) : p.backward.whole = p.whole := by
  rcases p with ⟨_ | ⟨c, passed⟩, ahead, groups⟩ <;> simp [Place.backward, Place.whole]

@[simp] theorem Place.whole_advance (n : Nat) (p : Place) : (p.advance n).whole = p.whole := by
  induction n generalizing p with
  | zero => rfl
  | succ n ih => rw [Place.advance, ih, Place.whole_forward]

private theorem tryBackward_stays {next : Next} {n : Nat} {p q : Place}
    (h : tryBackward next n p = some q) : ∃ r : Place, r.whole = p.whole ∧ next r = some q := by
  induction n generalizing p with
  | zero => exact ⟨p, rfl, h⟩
  | succ n ih =>
    rw [tryBackward] at h
    split at h
    · next hp => exact ⟨p, rfl, hp.trans h⟩
    · obtain ⟨r, hr, hnext⟩ := ih h
      exact ⟨r, by simpa using hr, hnext⟩

private theorem tryForward_stays {next : Next} {n : Nat} {p q : Place}
    (h : tryForward next n p = some q) : ∃ r : Place, r.whole = p.whole ∧ next r = some q := by
  induction n generalizing p with
  | zero => exact ⟨p, rfl, h⟩
  | succ n ih =>
    rw [tryForward] at h
    split at h
    · next hp => exact ⟨p, rfl, hp.trans h⟩
    · obtain ⟨r, hr, hnext⟩ := ih h
      exact ⟨r, by simpa using hr, hnext⟩

private theorem times_stays {body : Next → Next} (hbody : StaysInText body) {next : Next} {n : Nat}
    {p q : Place} (h : times body next n p = some q) :
    ∃ r : Place, r.whole = p.whole ∧ next r = some q := by
  induction n generalizing p with
  | zero => exact ⟨p, rfl, h⟩
  | succ n ih =>
    obtain ⟨r, hr, hrest⟩ := hbody _ _ _ h
    obtain ⟨r', hr', hnext⟩ := ih hrest
    exact ⟨r', hr'.trans hr, hnext⟩

private theorem greedily_stays {body : Next → Next} (hbody : StaysInText body) {next : Next}
    {most : Option Nat} {p q : Place} (h : greedily body next most p = some q) :
    ∃ r : Place, r.whole = p.whole ∧ next r = some q := by
  induction hn : p.ahead.length using Nat.strongRecOn generalizing p most with
  | ind n ih =>
    rw [greedily] at h
    split at h
    · exact ⟨p, rfl, h⟩
    · split at h
      · next q' hq =>
        cases h
        obtain ⟨r, hr, hrest⟩ := hbody _ _ _ hq
        split at hrest
        · next hlt =>
          obtain ⟨r', hr', hnext⟩ := ih _ (hn ▸ hlt) hrest rfl
          exact ⟨r', hr'.trans hr, hnext⟩
        · exact ⟨r, hr, hrest⟩
      · exact ⟨p, rfl, h⟩

private theorem lazily_stays {body : Next → Next} (hbody : StaysInText body) {next : Next}
    {most : Option Nat} {p q : Place} (h : lazily body next most p = some q) :
    ∃ r : Place, r.whole = p.whole ∧ next r = some q := by
  induction hn : p.ahead.length using Nat.strongRecOn generalizing p most with
  | ind n ih =>
    rw [lazily] at h
    split at h
    · next hp => exact ⟨p, rfl, hp.trans h⟩
    · split at h
      · cases h
      · obtain ⟨r, hr, hrest⟩ := hbody _ _ _ h
        split at hrest
        · next hlt =>
          obtain ⟨r', hr', hnext⟩ := ih _ (hn ▸ hlt) hrest rfl
          exact ⟨r', hr'.trans hr, hnext⟩
        · exact ⟨r, hr, hrest⟩

private theorem spell_stays {fold : Code → Code} {t : Text} {p q : Place}
    (h : spell fold t p = some q) : q.whole = p.whole := by
  induction t generalizing p with
  | nil => cases h; rfl
  | cons c rest ih =>
    rw [spell] at h
    split at h
    · cases h
    · split at h
      · simpa using ih h
      · cases h

theorem matchAt_stays (pattern : Pattern) : StaysInText pattern.matchAt := by
  induction pattern with
  | empty => exact fun next p q h => ⟨p, rfl, h⟩
  | one holds =>
    intro next p q h
    simp only [matchAt] at h
    split at h
    · cases h
    · split at h
      · exact ⟨p.forward, by simp, h⟩
      · cases h
  | run holds least most greedy =>
    intro next p q h
    simp only [matchAt] at h
    split at h
    · cases h
    · split at h
      · simpa using tryBackward_stays h
      · simpa using tryForward_stays h
  | seq first second ihf ihs =>
    intro next p q h
    obtain ⟨r, hr, hsecond⟩ := ihf _ _ _ h
    obtain ⟨r', hr', hnext⟩ := ihs _ _ _ hsecond
    exact ⟨r', hr'.trans hr, hnext⟩
  | alt first second ihf ihs =>
    intro next p q h
    simp only [matchAt] at h
    split at h
    · next hf => exact ihf _ _ _ (hf.trans h)
    · exact ihs _ _ _ h
  | rep body least most greedy ih =>
    intro next p q h
    simp only [matchAt] at h
    obtain ⟨r, hr, hmore⟩ := times_stays ih h
    cases greedy with
    | true =>
      obtain ⟨r', hr', hnext⟩ := greedily_stays ih hmore
      exact ⟨r', hr'.trans hr, hnext⟩
    | false =>
      obtain ⟨r', hr', hnext⟩ := lazily_stays ih hmore
      exact ⟨r', hr'.trans hr, hnext⟩
  | group number body ih =>
    intro next p q h
    obtain ⟨r, hr, hnext⟩ := ih _ _ _ h
    exact ⟨{ r with groups := (number, p.upTo r) :: r.groups }, hr, hnext⟩
  | back number fold =>
    intro next p q h
    simp only [matchAt] at h
    split at h
    · cases h
    · obtain ⟨r, hr, hnext⟩ := Option.bind_eq_some_iff.mp h
      exact ⟨r, spell_stays hr, hnext⟩
  | anchor a =>
    intro next p q h
    simp only [matchAt] at h
    split at h
    · exact ⟨p, rfl, h⟩
    · cases h
  | ahead positive body =>
    intro next p q h
    simp only [matchAt] at h
    split at h <;> split at h <;> first
      | cases h
      | exact ⟨_, by rfl, h⟩
  | behind positive width body =>
    intro next p q h
    simp only [matchAt] at h
    split at h <;> split at h <;> first
      | cases h
      | exact ⟨_, by rfl, h⟩

/-- What a pattern matches is a start of the text. -/
theorem eq_append_of_matched? {pattern : Pattern} {t found : Text}
    (h : pattern.matched? t = some found) : ∃ rest : Text, t = found ++ rest := by
  obtain ⟨q, hq, rfl⟩ := Option.map_eq_some_iff.mp h
  obtain ⟨r, hr, hsome⟩ := matchAt_stays pattern _ _ _ hq
  cases hsome
  exact ⟨q.ahead, (hr.trans (Place.whole_start t)).symm⟩

end Descent.Pattern
