import Mathlib.Data.List.TakeWhile
import Descent.Pattern

/-!
Patterns that never have to give back what they have taken.  A run of a class takes all code points
of the class, and an optional part is taken if it matches, as long as what follows accepts that; so
what such a pattern takes of a text is a function of the text, built up along the pattern.
-/

set_option autoImplicit false
set_option relaxedAutoImplicit false

namespace Descent.Pattern

/-- What follows a match always goes on. -/
def Accepting (next : Next) : Prop :=
  ∀ p, (next p).isSome

/-- The place behind a text that comes next. -/
def Place.after (p : Place) (w : Text) : Place :=
  ⟨w.reverse ++ p.passed, p.ahead.drop w.length, p.groups⟩

namespace Place

@[simp] theorem ahead_after (p : Place) (w : Text) : (p.after w).ahead = p.ahead.drop w.length := rfl

@[simp] theorem after_nil (p : Place) : p.after [] = p := rfl

@[simp] theorem after_after (p : Place) (v w : Text) : (p.after v).after w = p.after (v ++ w) := by
  simp [after]

theorem forward_eq_after {p : Place} {c : Code} {rest : Text} (h : p.ahead = c :: rest) :
    p.forward = p.after [c] := by
  simp [forward, after, h]

theorem advance_eq_after {p : Place} {n : Nat} (h : n ≤ p.ahead.length) :
    p.advance n = p.after (p.ahead.take n) := by
  induction n generalizing p with
  | zero => simp [advance]
  | succ n ih =>
    rcases hp : p.ahead with _ | ⟨c, rest⟩
    · simp [hp] at h
    · have hforward := forward_eq_after hp
      have hahead : (p.after [c]).ahead = rest := by simp [hp]
      rw [advance, hforward, ih (by simpa [hahead, hp] using h), hahead]
      simp

theorem upTo_after {p : Place} {w : Text} (h : w <+: p.ahead) : p.upTo (p.after w) = w := by
  obtain ⟨u, hu⟩ := h
  simp [upTo, ← hu]

@[simp] theorem backward_forward {p : Place} {c : Code} {rest : Text} (h : p.ahead = c :: rest) :
    p.forward.backward = p := by
  rcases p with ⟨passed, ahead, groups⟩
  subst h
  rfl

end Place

theorem runLength_none (holds : Code → Bool) (t : Text) :
    runLength holds none t = (t.takeWhile holds).length := by
  induction t with
  | nil => rfl
  | cons c rest ih => by_cases hc : holds c <;> simp [runLength, hc, ih]

theorem runLength_some (holds : Code → Bool) (n : Nat) (t : Text) :
    runLength holds (some n) t = ((t.take n).takeWhile holds).length := by
  induction t generalizing n with
  | nil => simp [runLength]
  | cons c rest ih =>
    cases n with
    | zero => simp [runLength]
    | succ n => by_cases hc : holds c <;> simp [runLength, hc, ih]

theorem tryBackward_of_isSome {next : Next} {n : Nat} {p : Place} (h : (next p).isSome) :
    tryBackward next n p = next p := by
  obtain ⟨q, hq⟩ := Option.isSome_iff_exists.mp h
  cases n with
  | zero => rfl
  | succ n => rw [tryBackward, hq]

/-! What a matcher does, by the shape of its pattern. -/

theorem matchAt_one (holds : Code → Bool) (next : Next) (p : Place) :
    matchAt (.one holds) next p =
      match p.ahead with
      | [] => none
      | c :: _ => if holds c then next p.forward else none := rfl

theorem matchAt_greedyRun (holds : Code → Bool) (least : Nat) (most : Option Nat) (next : Next)
    (p : Place) :
    matchAt (.run holds least most true) next p =
      if runLength holds most p.ahead < least then none
      else tryBackward next (runLength holds most p.ahead - least)
        (p.advance (runLength holds most p.ahead)) := rfl

theorem matchAt_greedyRep (body : Pattern) (least : Nat) (most : Option Nat) (next : Next)
    (p : Place) :
    matchAt (.rep body least most true) next p =
      times body.matchAt (greedily body.matchAt next (most.map (· - least))) least p := rfl

theorem matchAt_seq (first second : Pattern) (next : Next) (p : Place) :
    matchAt (.seq first second) next p = first.matchAt (second.matchAt next) p := rfl

theorem matchAt_group (number : Nat) (body : Pattern) (next : Next) (p : Place) :
    matchAt (.group number body) next p =
      body.matchAt (fun q => next { q with groups := (number, p.upTo q) :: q.groups }) p := rfl

theorem matchAt_one_of_pos {holds : Code → Bool} {next : Next} {p : Place} {c : Code} {rest : Text}
    (hp : p.ahead = c :: rest) (hc : holds c = true) :
    matchAt (.one holds) next p = next (p.after [c]) := by
  simp [matchAt_one, hp, hc, Place.forward_eq_after hp]

theorem matchAt_one_of_neg {holds : Code → Bool} {next : Next} {p : Place} {c : Code} {rest : Text}
    (hp : p.ahead = c :: rest) (hc : holds c = false) : matchAt (.one holds) next p = none := by
  simp [matchAt_one, hp, hc]

theorem matchAt_one_of_nil {holds : Code → Bool} {next : Next} {p : Place} (hp : p.ahead = []) :
    matchAt (.one holds) next p = none := by
  simp [matchAt_one, hp]

theorem matchAt_one_self {c : Code} {next : Next} {p : Place} {rest : Text}
    (hp : p.ahead = c :: rest) : matchAt (.one (· == c)) next p = next (p.after [c]) :=
  matchAt_one_of_pos hp (beq_self_eq_true c)

theorem matchAt_one_of_ne {c d : Code} {next : Next} {p : Place} {rest : Text}
    (hp : p.ahead = c :: rest) (hne : c ≠ d) : matchAt (.one (· == d)) next p = none :=
  matchAt_one_of_neg hp (beq_eq_false_iff_ne.mpr hne)

/-- What one code point of a class and then something else match. -/
theorem exists_of_matchAt_one {holds : Code → Bool} {next : Next} {p q : Place}
    (h : matchAt (.one holds) next p = some q) :
    ∃ c rest, p.ahead = c :: rest ∧ holds c = true ∧ next (p.after [c]) = some q := by
  rcases hp : p.ahead with _ | ⟨c, rest⟩
  · rw [matchAt_one_of_nil hp] at h
    cases h
  · by_cases hc : holds c = true
    · rw [matchAt_one_of_pos hp hc] at h
      exact ⟨c, rest, rfl, hc, h⟩
    · rw [matchAt_one_of_neg hp (Bool.eq_false_iff.mpr hc)] at h
      cases h

theorem matchAt_alt (first second : Pattern) (next : Next) (p : Place) :
    matchAt (.alt first second) next p = (first.matchAt next p).or (second.matchAt next p) := by
  rw [matchAt]
  cases first.matchAt next p <;> rfl

/-- A run that may be of any length takes all it can. -/
theorem matchAt_run {holds : Code → Bool} {least : Nat} {next : Next} {p : Place}
    (hleast : least ≤ (p.ahead.takeWhile holds).length)
    (hnext : (next (p.after (p.ahead.takeWhile holds))).isSome) :
    matchAt (.run holds least none true) next p = next (p.after (p.ahead.takeWhile holds)) := by
  have hle : (p.ahead.takeWhile holds).length ≤ p.ahead.length := (List.takeWhile_prefix holds).length_le
  have htake : p.ahead.take (p.ahead.takeWhile holds).length = p.ahead.takeWhile holds :=
    List.prefix_iff_eq_take.mp (List.takeWhile_prefix holds) |>.symm
  simp only [matchAt_greedyRun, runLength_none, Nat.not_lt.mpr hleast, if_false]
  rw [Place.advance_eq_after hle, htake]
  exact tryBackward_of_isSome hnext

theorem matchAt_run_of_lt {holds : Code → Bool} {least : Nat} {next : Next} {p : Place}
    (hlt : (p.ahead.takeWhile holds).length < least) :
    matchAt (.run holds least none true) next p = none := by
  simp [matchAt_greedyRun, runLength_none, hlt]

/-- A run of a fixed number of code points is taken as a whole or not at all. -/
theorem matchAt_exactly (holds : Code → Bool) (n : Nat) (next : Next) (p : Place) :
    matchAt (.run holds n (some n) true) next p =
      if (p.ahead.take n).length = n ∧ (p.ahead.take n).all holds = true then
        next (p.after (p.ahead.take n))
      else none := by
  have hle : ((p.ahead.take n).takeWhile holds).length ≤ (p.ahead.take n).length :=
    (List.takeWhile_prefix holds).length_le
  have hn : (p.ahead.take n).length ≤ n := List.length_take_le n p.ahead
  by_cases hall : (p.ahead.take n).all holds = true
  · have hself : (p.ahead.take n).takeWhile holds = p.ahead.take n := by
      rw [List.takeWhile_eq_self_iff]
      exact List.all_eq_true.mp hall
    by_cases hlength : (p.ahead.take n).length = n
    · have hadvance : p.advance n = p.after (p.ahead.take n) :=
        Place.advance_eq_after (by rw [List.length_take] at hlength; omega)
      simp only [matchAt_greedyRun, runLength_some, hself, hlength, hall, Nat.lt_irrefl, and_self, if_false,
        if_true, Nat.sub_self, tryBackward, hadvance]
    · have hlt : (p.ahead.take n).length < n := by omega
      simp only [matchAt_greedyRun, runLength_some, hself, hlt, hlength, false_and, if_true, if_false]
  · have hne : (p.ahead.take n).takeWhile holds ≠ p.ahead.take n := fun h =>
      hall (List.all_eq_true.mpr (List.takeWhile_eq_self_iff.mp h))
    have hneq : ((p.ahead.take n).takeWhile holds).length ≠ (p.ahead.take n).length := fun h =>
      hne ((List.takeWhile_prefix holds).eq_of_length h)
    have hlt : ((p.ahead.take n).takeWhile holds).length < n := by omega
    simp only [matchAt_greedyRun, runLength_some, hlt, hall, Bool.false_eq_true, and_false, if_true, if_false]

/-- An optional code point of a class is taken if it is there, provided that what follows never
begins with the class itself. -/
theorem matchAt_optional {holds : Code → Bool} {next : Next} {p : Place}
    (hnext : ∀ c rest, p.ahead = c :: rest → holds c = true → next p = none) :
    matchAt (.run holds 0 (some 1) true) next p =
      next (p.after ((p.ahead.take 1).takeWhile holds)) := by
  rcases hp : p.ahead with _ | ⟨c, rest⟩
  · simp [matchAt_greedyRun, runLength, hp, tryBackward, Place.advance]
  · cases hc : holds c with
    | false => simp [matchAt_greedyRun, runLength, hp, hc, tryBackward, Place.advance]
    | true =>
      have hnone := hnext c rest hp hc
      have hafter : p.advance 1 = p.after [c] := Place.forward_eq_after hp
      have hback : (p.after [c]).backward = p := by
        rw [← Place.forward_eq_after hp, Place.backward_forward hp]
      have hlength : runLength holds (some 1) p.ahead = 1 := by simp [runLength_some, hp, hc]
      simp only [matchAt_greedyRun, hlength, Nat.not_lt_zero, if_false, hafter, tryBackward,
        hback, hnone, List.take_succ_cons, List.take_zero, List.takeWhile_cons_of_pos hc,
        List.takeWhile_nil]
      cases next (p.after [c]) <;> rfl

/-- An optional part is taken if it matches and what follows accepts that. -/
theorem matchAt_rep_optional (body : Pattern) (next : Next) (p : Place) :
    matchAt (.rep body 0 (some 1) true) next p =
      match body.matchAt next p with
      | some q => some q
      | none => next p := by
  have hlast : ∀ q, greedily body.matchAt next (some 0) q = next q := by
    intro q
    rw [greedily]
    simp
  have hinner : (fun q : Place =>
      if q.ahead.length < p.ahead.length then greedily body.matchAt next ((some 1).map (· - 1)) q
      else next q) = next := by
    funext q
    simp [hlast]
  simp only [matchAt_greedyRep, times, Option.map_some]
  rw [greedily]
  simp only [Nat.sub_zero, hinner]
  rfl

/-- What a pattern takes of a text is given by a function, if what follows always goes on. -/
def Scans (pattern : Pattern) (scan : Text → Option Text) : Prop :=
  ∀ next, Accepting next → ∀ p, pattern.matchAt next p = (scan p.ahead).bind fun w => next (p.after w)

namespace Scans

variable {pattern first second : Pattern} {scan scan' : Text → Option Text}

theorem congr (h : Scans pattern scan) (heq : ∀ t, scan t = scan' t) : Scans pattern scan' :=
  fun next hnext p => by rw [h next hnext p, heq]

/-- What the pattern matches at the start of a text is what it takes. -/
theorem matched?_eq (h : Scans pattern scan) (t : Text) : pattern.matched? t = scan t := by
  rw [matched?, h some (fun _ => rfl) (Place.start t)]
  show Option.map _ ((scan t).bind fun w => some ((Place.start t).after w)) = scan t
  cases scan t <;> simp [Place.after, Place.start]

theorem one (holds : Code → Bool) :
    Scans (.one holds) fun
      | [] => none
      | c :: _ => if holds c then some [c] else none := by
  intro next hnext p
  rcases hp : p.ahead with _ | ⟨c, rest⟩
  · exact matchAt_one_of_nil hp
  · cases hc : holds c with
    | true => simpa [hc] using matchAt_one_of_pos hp hc
    | false => simpa [hc] using matchAt_one_of_neg hp hc

theorem run (holds : Code → Bool) :
    Scans (.run holds 0 none true) fun t => some (t.takeWhile holds) :=
  fun _ hnext _ => matchAt_run (Nat.zero_le _) (hnext _)

theorem run_one (holds : Code → Bool) :
    Scans (.run holds 1 none true) fun t =>
      if (t.takeWhile holds).isEmpty then none else some (t.takeWhile holds) := by
  intro next hnext p
  dsimp only
  split
  · next hempty => exact matchAt_run_of_lt (by simp [List.isEmpty_iff.mp hempty])
  · next hsome =>
    refine matchAt_run ?_ (hnext _)
    exact List.length_pos_iff.mpr fun h => hsome (by simp [h])

/-- A code point of a class and then another pattern. -/
theorem cons {holds : Code → Bool} (h : Scans second scan) :
    Scans (.seq (.one holds) second) fun
      | [] => none
      | c :: rest => if holds c then (scan rest).map (c :: ·) else none := by
  intro next hnext p
  rcases hp : p.ahead with _ | ⟨c, rest⟩
  · exact matchAt_one_of_nil hp
  · cases hc : holds c with
    | false =>
      have hone : matchAt (.one holds) (second.matchAt next) p = none := matchAt_one_of_neg hp hc
      simpa [matchAt_seq, hc] using hone
    | true =>
      have hone : matchAt (.one holds) (second.matchAt next) p = second.matchAt next (p.after [c]) :=
        matchAt_one_of_pos hp hc
      have hahead : (p.after [c]).ahead = rest := by simp [hp]
      rw [matchAt_seq, hone, h next hnext, hahead]
      simp only [hc, if_true]
      cases scan rest <;> simp

theorem alt {scanFirst : Text → Option Text} (hf : Scans first scanFirst) (hs : Scans second scan) :
    Scans (.alt first second) fun t => (scanFirst t).or (scan t) := by
  intro next hnext p
  simp only [matchAt_alt, hf next hnext p, hs next hnext p]
  cases scanFirst p.ahead with
  | none => rfl
  | some w =>
    obtain ⟨q, hq⟩ := Option.isSome_iff_exists.mp (hnext (p.after w))
    simp [hq]

/-- A pattern that takes something of every text may stand behind any other one. -/
theorem seq {scanSecond : Text → Text} (hf : Scans first scan)
    (hs : Scans second fun t => some (scanSecond t)) :
    Scans (.seq first second) fun t =>
      (scan t).map fun w => w ++ scanSecond (t.drop w.length) := by
  intro next hnext p
  have haccepts : Accepting (second.matchAt next) := by
    intro q
    rw [hs next hnext q]
    exact hnext _
  rw [matchAt_seq, hf _ haccepts p]
  dsimp only
  cases scan p.ahead with
  | none => rfl
  | some w => simp [hs next hnext]

theorem optional (h : Scans pattern scan) :
    Scans (.rep pattern 0 (some 1) true) fun t => some ((scan t).getD []) := by
  intro next hnext p
  rw [matchAt_rep_optional, h next hnext p]
  dsimp only
  cases scan p.ahead with
  | none => simp
  | some w =>
    obtain ⟨q, hq⟩ := Option.isSome_iff_exists.mp (hnext (p.after w))
    simp [hq]

/-- An optional code point of a class in front of a pattern that takes nothing where the class
begins. -/
theorem optional_cons {holds : Code → Bool} (h : Scans second scan)
    (hnone : ∀ c rest, holds c = true → scan (c :: rest) = none) :
    Scans (.seq (.run holds 0 (some 1) true) second) fun t =>
      let taken := (t.take 1).takeWhile holds
      (scan (t.drop taken.length)).map (taken ++ ·) := by
  intro next hnext p
  have hrefuses : ∀ c rest, p.ahead = c :: rest → holds c = true → second.matchAt next p = none := by
    intro c rest hp hc
    rw [h next hnext p, hp, hnone c rest hc]
    rfl
  rw [matchAt_seq, matchAt_optional hrefuses, h next hnext, Place.ahead_after]
  dsimp only
  cases scan (p.ahead.drop ((p.ahead.take 1).takeWhile holds).length) <;> simp

end Scans

end Descent.Pattern
