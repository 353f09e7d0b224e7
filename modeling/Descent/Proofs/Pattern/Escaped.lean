import Descent.Pattern.Reader
import Descent.Proofs.Pattern.Scan
import Descent.Proofs.Text.Classes

/-!
Texts written as patterns.  With a backslash in front of every code point that could mean something
else, a text is read as the pattern of its own code points, one after the other, and what that
matches is the text itself wherever it comes first.
-/

set_option autoImplicit false
set_option relaxedAutoImplicit false

namespace Descent.Pattern

/-- The code points that can mean something else than themselves in a written pattern. -/
def specials : Text :=
  Text.ofString "()[]\x7b\x7d?*+-|^$\\.&~# \t\n\x0d\x0b\x0c"

/-- A text with a backslash in front of every special code point. -/
def escaped (t : Text) : Text :=
  t.flatMap fun c => if c ∈ specials then [Code.ofChar '\\', c] else [c]

/-- The pattern of the code points of a text. -/
def spelled (t : Text) : Pattern :=
  sequence (t.map fun c => .one (· == c))

/-! How an escaped text is read. -/

variable {c : Code}

private theorem toChar_ne_of_letter (hc : c.isAsciiLetter = false) {d : Char}
    (hd : (Code.ofChar d).isAsciiLetter = true) (hne : d ≠ Char.ofNat 0) : c.toChar ≠ d := by
  intro h
  rw [Code.eq_ofChar_of_toChar h hne, hd] at hc
  cases hc

private theorem namedClass?_eq_none (o : Options) (hc : c.isAsciiLetter = false) :
    o.namedClass? c.toChar = none := by
  unfold Options.namedClass?
  split <;> first
    | rfl
    | (next h => exact absurd h (toChar_ne_of_letter hc (by decide) (by decide)))

private theorem escapedCode?_self (hletter : c.isAsciiLetter = false)
    (hdigit : c.isAsciiDigit = false) (rest : Text) : escapedCode? c rest = some (c, rest) := by
  have hcontrol : namedControl? c.toChar = none := by
    unfold namedControl?
    split <;> first
      | rfl
      | (next h => exact absurd h (toChar_ne_of_letter hletter (by decide) (by decide)))
  unfold escapedCode?
  split <;> first
    | (next h => exact absurd h (toChar_ne_of_letter hletter (by decide) (by decide)))
    | simp [hcontrol, hletter, hdigit]

/-- Behind a backslash, all but the letters and digits of ASCII mean themselves. -/
theorem escape?_self (o : Options) (hletter : c.isAsciiLetter = false)
    (hdigit : c.isAsciiDigit = false) (rest : Text) :
    escape? o (c :: rest) = some (.one (o.widen (· == c)), rest) := by
  have hzero : c.toChar ≠ '0' := fun h => by
    rw [Code.eq_ofChar_of_toChar h (by decide)] at hdigit
    exact absurd hdigit (by decide)
  simp only [escape?]
  split <;> first
    | (next h => exact absurd h (toChar_ne_of_letter hletter (by decide) (by decide)))
    | (next h => exact absurd h hzero)
    | simp [namedClass?_eq_none o hletter, escapedCode?_self hletter hdigit, hdigit]

theorem marksWithin_special (o : Options) (atStart : Bool) (n : Nat) (hc : c ∈ specials)
    (rest : Text) :
    marksWithin o atStart (n + 1) (Code.ofChar '\\' :: c :: rest) =
      (marksWithin o false n rest).map (.one (o.widen (· == c)) :: ·) := by
  have hself : specials.all (fun d => !d.isAsciiLetter && !d.isAsciiDigit) = true := by decide
  have hspace : (Code.ofChar '\\').isAsciiSpace = false := by decide
  have hcomment : (Code.ofChar '\\' == Code.ofChar '#') = false := by decide
  simp only [marksWithin, hspace, hcomment, Bool.and_false, Bool.false_eq_true, if_false]
  show (escape? o (c :: rest)).bind _ = _
  have hc' := List.all_eq_true.mp hself c hc
  rw [Bool.and_eq_true, Bool.not_eq_true', Bool.not_eq_true'] at hc'
  rw [escape?_self o hc'.1 hc'.2]
  rfl

private theorem toChar_ne_of_special (hc : c ∉ specials) {d : Char} (hd : Code.ofChar d ∈ specials)
    (hne : d ≠ Char.ofNat 0) : c.toChar ≠ d := by
  intro h
  rw [Code.eq_ofChar_of_toChar h hne] at hc
  exact hc hd

private theorem isAsciiSpace_eq_false (hc : c ∉ specials) : c.isAsciiSpace = false := by
  have hall : ∀ n ∈ [0x9, 0xA, 0xB, 0xC, 0xD, 0x20], Code.ofNat n ∈ specials := by decide
  refine Bool.eq_false_iff.mpr fun h => hc ?_
  rw [← Code.ofNat_val c]
  refine hall c.val ?_
  simp only [Code.isAsciiSpace, Bool.or_eq_true, Bool.and_eq_true, decide_eq_true_eq, beq_iff_eq] at h
  simp only [List.mem_cons, List.not_mem_nil, or_false]
  omega

theorem marksWithin_plain (o : Options) (atStart : Bool) (n : Nat) (hc : c ∉ specials)
    (rest : Text) :
    marksWithin o atStart (n + 1) (c :: rest) =
      (marksWithin o false n rest).map (.one (o.widen (· == c)) :: ·) := by
  have hcomment : (c == Code.ofChar '#') = false :=
    beq_eq_false_iff_ne.mpr fun h => hc (by rw [h]; decide)
  simp only [marksWithin, isAsciiSpace_eq_false hc, hcomment, Bool.and_false, Bool.false_eq_true,
    if_false]
  split <;> first
    | rfl
    | (next h => exact absurd h (toChar_ne_of_special hc (by decide) (by decide)))

private theorem escaped_cons_special (hc : c ∈ specials) (t : Text) :
    escaped (c :: t) = Code.ofChar '\\' :: c :: escaped t := by
  simp [escaped, List.flatMap_cons, hc]

private theorem escaped_cons_plain (hc : c ∉ specials) (t : Text) :
    escaped (c :: t) = c :: escaped t := by
  simp [escaped, List.flatMap_cons, hc]

/-- An escaped text is read as the marks of its code points. -/
theorem marksWithin_escaped (o : Options) (atStart : Bool) (t : Text) {n : Nat}
    (hn : (escaped t).length ≤ n) :
    marksWithin o atStart n (escaped t) = some (t.map fun c => .one (o.widen (· == c))) := by
  -- Each step takes a unit of the bound and leaves no less than the escaped rest is long.
  induction t generalizing atStart n with
  | nil => cases n <;> rfl
  | cons c t ih =>
    by_cases hc : c ∈ specials
    · rw [escaped_cons_special hc] at hn ⊢
      simp only [List.length_cons] at hn
      cases n with
      | zero => omega
      | succ n =>
        rw [marksWithin_special o atStart n hc, ih false (by omega)]
        rfl
    · rw [escaped_cons_plain hc] at hn ⊢
      simp only [List.length_cons] at hn
      cases n with
      | zero => omega
      | succ n =>
        rw [marksWithin_plain o atStart n hc, ih false (by omega)]
        rfl

private theorem foldlM_one (t : Text) (r : Reading) (hold : Code → Code → Bool) :
    (t.map fun c => Mark.one (hold c)).foldlM step? r =
      some { r with level := { r.level with
        parts := (t.map fun c => ⟨.one (hold c), true⟩).reverse ++ r.level.parts } } := by
  induction t generalizing r with
  | nil => rfl
  | cons c t ih =>
    rw [List.map_cons, List.foldlM_cons]
    show (t.map fun c => Mark.one (hold c)).foldlM step? (r.add (.one (hold c)) true) = _
    rw [ih]
    simp [Reading.add]

/-- An escaped text is the pattern of its code points, if both cases of a letter are told apart. -/
theorem read?_escaped {o : Options} (ho : o.ignoreCase = false) (t : Text) :
    read? o (escaped t) = some (spelled t) := by
  have hmarks : marks? o (escaped t) = some (t.map fun c => .one (· == c)) := by
    rw [marks?, marksWithin_escaped o true t (Nat.le_refl _)]
    simp only [Options.widen, ho, Bool.false_eq_true, if_false]
  rw [read?, hmarks]
  show (do
    let r ← (t.map fun c => Mark.one (· == c)).foldlM step? Reading.start
    if r.outer.isEmpty then some r.level.pattern else none) = _
  rw [foldlM_one]
  simp [Reading.start, Level.pattern, Level.branch, spelled, Function.comp_def]

/-! What it matches. -/

private theorem scan_cons (c : Code) (t : Text) : ∀ u : Text,
    (match u with
      | [] => none
      | d :: rest => if (d == c) = true then (if t <+: rest then some t else none).map (d :: ·) else none)
      = if c :: t <+: u then some (c :: t) else none
  | [] => by simp
  | d :: rest => by
    by_cases hd : d = c
    · subst hd
      by_cases ht : t <+: rest <;> simp [List.cons_prefix_cons, ht]
    · have hne : ¬c = d := fun h => hd h.symm
      simp [List.cons_prefix_cons, hd, hne]

/-- The pattern of the code points of a text takes that text where it comes first. -/
theorem scans_spelled (t : Text) :
    Scans (spelled t) fun u => if t <+: u then some t else none := by
  induction t with
  | nil =>
    intro next hnext p
    simp [spelled, sequence, matchAt]
  | cons c t ih =>
    cases t with
    | nil =>
      refine (Scans.one (· == c)).congr fun u => (Eq.trans ?_ (scan_cons c [] u))
      cases u <;> simp
    | cons d t => exact ih.cons.congr (scan_cons c (d :: t))

theorem matched?_spelled (t u : Text) :
    (spelled t).matched? u = if t <+: u then some t else none :=
  (scans_spelled t).matched?_eq u

end Descent.Pattern
