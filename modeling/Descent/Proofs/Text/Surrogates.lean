import Mathlib.Data.List.Chain
import Descent.Text.Units

/-!
Joining surrogate pairs in one pass over the code points, and that this is what writing a text as
code units and reading it back does.  The pass leaves no pair behind, and it changes nothing where
there is none.
-/

set_option autoImplicit false
set_option relaxedAutoImplicit false

namespace Descent.Text

/-- Joins every high surrogate with a low one that comes right behind it. -/
def joinPairs : Text → Text
  | [] => []
  | [c] => [c]
  | c :: d :: rest =>
    if c.isHighSurrogate && d.isLowSurrogate then codeOfPair c.val d.val :: joinPairs rest
    else c :: joinPairs (d :: rest)

private theorem isHighSurrogate_iff {c : Code} :
    c.isHighSurrogate = true ↔ 0xD800 ≤ c.val ∧ c.val ≤ 0xDBFF := by
  simp [Code.isHighSurrogate]

private theorem isLowSurrogate_iff {c : Code} :
    c.isLowSurrogate = true ↔ 0xDC00 ≤ c.val ∧ c.val ≤ 0xDFFF := by
  simp [Code.isLowSurrogate]

private theorem toNat_toUInt16 {n : Nat} (h : n < 0x10000) : n.toUInt16.toNat = n := by
  simp only [Nat.toUInt16, UInt16.toNat_ofNat']
  omega

private theorem ofUnits_cons_of_not {u : UInt16} {units : List UInt16}
    (h : ∀ v rest, units = v :: rest →
      ¬(0xD800 ≤ u.toNat ∧ u.toNat ≤ 0xDBFF ∧ 0xDC00 ≤ v.toNat ∧ v.toNat ≤ 0xDFFF)) :
    ofUnits (u :: units) = Code.ofNat u.toNat :: ofUnits units := by
  cases units with
  | nil => rfl
  | cons v rest => rw [ofUnits, if_neg (h v rest rfl)]

/-- The two units of a code point above U+FFFF are read as that code point. -/
private theorem ofUnits_large {c : Code} (hc : 0x10000 ≤ c.val) (units : List UInt16) :
    ofUnits (unitsOfCode c ++ units) = c :: ofUnits units := by
  have hlt := c.isLt
  have hhigh : (0xD800 + (c.val - 0x10000) / 0x400).toUInt16.toNat
      = 0xD800 + (c.val - 0x10000) / 0x400 := toNat_toUInt16 (by omega)
  have hlow : (0xDC00 + (c.val - 0x10000) % 0x400).toUInt16.toNat
      = 0xDC00 + (c.val - 0x10000) % 0x400 := toNat_toUInt16 (by omega)
  have hpair : codeOfPair (0xD800 + (c.val - 0x10000) / 0x400)
      (0xDC00 + (c.val - 0x10000) % 0x400) = c := by
    have hval : 0x10000 + (0xD800 + (c.val - 0x10000) / 0x400 - 0xD800) * 0x400
        + (0xDC00 + (c.val - 0x10000) % 0x400 - 0xDC00) = c.val := by omega
    rw [codeOfPair, hval, Code.ofNat_val]
  rw [unitsOfCode, if_neg (by omega)]
  simp only [List.cons_append, List.nil_append, ofUnits, hhigh, hlow]
  rw [if_pos (by omega), hpair]

/-- The unit of any other code point is read as that code point, unless it is a high surrogate. -/
private theorem ofUnits_small {c : Code} (hc : c.val < 0x10000) {units : List UInt16}
    (h : c.isHighSurrogate = true → ∀ v rest, units = v :: rest →
      ¬(0xDC00 ≤ v.toNat ∧ v.toNat ≤ 0xDFFF)) :
    ofUnits (unitsOfCode c ++ units) = c :: ofUnits units := by
  have hunit : c.val.toUInt16.toNat = c.val := toNat_toUInt16 hc
  rw [unitsOfCode, if_pos hc, List.singleton_append, ofUnits_cons_of_not, hunit, Code.ofNat_val]
  rintro v rest hunits ⟨h1, h2, h3, h4⟩
  rw [hunit] at h1 h2
  exact h (isHighSurrogate_iff.mpr ⟨h1, h2⟩) v rest hunits ⟨h3, h4⟩

/-- A high surrogate and a low one behind it are read as the code point that they encode. -/
private theorem ofUnits_pair {c d : Code} (hc : c.isHighSurrogate = true)
    (hd : d.isLowSurrogate = true) (units : List UInt16) :
    ofUnits (unitsOfCode c ++ (unitsOfCode d ++ units)) = codeOfPair c.val d.val :: ofUnits units := by
  have hhigh := isHighSurrogate_iff.mp hc
  have hlow := isLowSurrogate_iff.mp hd
  have hcunit : c.val.toUInt16.toNat = c.val := toNat_toUInt16 (by omega)
  have hdunit : d.val.toUInt16.toNat = d.val := toNat_toUInt16 (by omega)
  have hcsmall : c.val < 0x10000 := by omega
  have hdsmall : d.val < 0x10000 := by omega
  rw [unitsOfCode, unitsOfCode, if_pos hcsmall, if_pos hdsmall]
  simp only [List.cons_append, List.nil_append, ofUnits, hcunit, hdunit]
  rw [if_pos ⟨hhigh.1, hhigh.2, hlow⟩]

/-- The first unit of a text is no low surrogate unless its first code point is one. -/
private theorem head_units {d : Code} {t : Text} {v : UInt16} {rest : List UInt16}
    (hd : d.isLowSurrogate = false) (h : toUnits (d :: t) = v :: rest) :
    ¬(0xDC00 ≤ v.toNat ∧ v.toNat ≤ 0xDFFF) := by
  have hlt := d.isLt
  rw [toUnits, List.flatMap_cons, unitsOfCode] at h
  by_cases hsmall : d.val < 0x10000
  · rw [if_pos hsmall] at h
    obtain rfl := (List.cons.inj h).1
    rw [toNat_toUInt16 hsmall]
    intro hlow
    rw [isLowSurrogate_iff.mpr hlow] at hd
    cases hd
  · rw [if_neg hsmall] at h
    obtain rfl := (List.cons.inj h).1
    rw [toNat_toUInt16 (by omega)]
    omega

private theorem ofUnits_cons {c : Code} {t : Text}
    (h : ∀ d rest, t = d :: rest → ¬(c.isHighSurrogate && d.isLowSurrogate) = true) :
    ofUnits (toUnits (c :: t)) = c :: ofUnits (toUnits t) := by
  rw [toUnits, List.flatMap_cons]
  by_cases hc : c.val < 0x10000
  · refine ofUnits_small hc fun hhigh v rest hunits => ?_
    cases t with
    | nil => cases hunits
    | cons d t =>
      have hlow : d.isLowSurrogate = false := by simpa [hhigh] using h d t rfl
      exact head_units hlow hunits
  · exact ofUnits_large (by omega) _

theorem joinSurrogates_eq_joinPairs (t : Text) : joinSurrogates t = joinPairs t := by
  induction t using joinPairs.induct with
  | case1 => rfl
  | case2 c => exact ofUnits_cons fun d rest h => by cases h
  | case3 c d rest hpair ih =>
    rw [joinPairs, if_pos hpair, ← ih]
    rw [Bool.and_eq_true] at hpair
    exact ofUnits_pair hpair.1 hpair.2 (toUnits rest)
  | case4 c d rest hpair ih =>
    rw [joinPairs, if_neg hpair, ← ih]
    refine ofUnits_cons fun d' rest' h => ?_
    obtain ⟨rfl, rfl⟩ := List.cons.inj h
    exact hpair

/-! Texts without a pair. -/

/-- No high surrogate stands right before a low one. -/
def PairFree (t : Text) : Prop :=
  t.IsChain fun c d => ¬(c.isHighSurrogate && d.isLowSurrogate) = true

/-- A code point above U+FFFF is no surrogate. -/
private theorem not_surrogate_of_large {c : Code} (hc : 0x10000 ≤ c.val) :
    c.isHighSurrogate = false ∧ c.isLowSurrogate = false := by
  constructor <;> refine Bool.eq_false_iff.mpr fun h => ?_
  · have hhigh := isHighSurrogate_iff.mp h
    omega
  · have hlow := isLowSurrogate_iff.mp h
    omega

private theorem large_codeOfPair {c d : Code} (hc : c.isHighSurrogate = true)
    (hd : d.isLowSurrogate = true) : 0x10000 ≤ (codeOfPair c.val d.val).val := by
  have hhigh := isHighSurrogate_iff.mp hc
  have hlow := isLowSurrogate_iff.mp hd
  rw [codeOfPair, Code.ofNat, dif_pos (by omega)]
  show 0x10000 ≤ 0x10000 + (c.val - 0xD800) * 0x400 + (d.val - 0xDC00)
  omega

/-- The pass starts with the first code point or with one above U+FFFF. -/
private theorem head_joinPairs {c d : Code} {t : Text} (h : d ∈ (joinPairs (c :: t)).head?) :
    d = c ∨ 0x10000 ≤ d.val := by
  cases t with
  | nil => exact Or.inl (Option.some.inj h).symm
  | cons e t =>
    rw [joinPairs] at h
    split at h
    · next hpair =>
      rw [Bool.and_eq_true] at hpair
      obtain rfl := Option.some.inj h
      exact Or.inr (large_codeOfPair hpair.1 hpair.2)
    · exact Or.inl (Option.some.inj h).symm

theorem pairFree_joinPairs (t : Text) : PairFree (joinPairs t) := by
  induction t using joinPairs.induct with
  | case1 => exact List.isChain_nil
  | case2 c => exact List.isChain_singleton c
  | case3 c d rest hpair ih =>
    rw [joinPairs, if_pos hpair]
    rw [Bool.and_eq_true] at hpair
    have hhigh := (not_surrogate_of_large (large_codeOfPair hpair.1 hpair.2)).1
    exact List.isChain_cons.mpr ⟨fun e _ => by simp [hhigh], ih⟩
  | case4 c d rest hpair ih =>
    rw [joinPairs, if_neg hpair]
    refine List.isChain_cons.mpr ⟨fun e he => ?_, ih⟩
    rcases head_joinPairs he with rfl | hlarge
    · exact hpair
    · simp [(not_surrogate_of_large hlarge).2]

theorem joinPairs_of_pairFree {t : Text} (ht : PairFree t) : joinPairs t = t := by
  induction t using joinPairs.induct with
  | case1 => rfl
  | case2 c => rfl
  | case3 c d rest hpair _ => exact absurd hpair (List.isChain_cons_cons.mp ht).1
  | case4 c d rest hpair ih => rw [joinPairs, if_neg hpair, ih (List.isChain_cons_cons.mp ht).2]

end Descent.Text
