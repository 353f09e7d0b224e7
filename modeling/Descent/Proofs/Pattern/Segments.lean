import Mathlib.Data.List.Forall2
import Descent.Pattern.Replace
import Descent.Proofs.Pattern.Progress

/-!
The segments into which the matches of a pattern cut a text.  They make up the text again, and to
replace the matches is to replace segment by segment.
-/

set_option autoImplicit false
set_option relaxedAutoImplicit false

namespace Descent.Pattern

/-- A segment of a text in which the matches of a pattern have been sought from the left. -/
inductive Segment where
  /-- A code point outside the matches. -/
  | kept (c : Code)
  /-- A match, with what the groups have matched. -/
  | found (w : Text) (groups : List (Nat × Text))

namespace Segment

def text : Segment → Text
  | kept c => [c]
  | found w _ => w

/-- What stands for a segment when the matches are replaced. -/
def replaced (f : List (Nat × Text) → Except Fault Text) : Segment → Except Fault Text
  | kept c => .ok [c]
  | found _ groups => f groups

end Segment

/-- The segments of a text: at each place a match of something, or else one code point. -/
def segments (pattern : Pattern) (t : Text) : List Segment :=
  match t with
  | [] => []
  | c :: rest =>
    match pattern.matchAt some (Place.start (c :: rest)) with
    | some q =>
      if q.ahead.length < rest.length + 1 then
        .found ((Place.start (c :: rest)).upTo q) q.groups :: segments pattern q.ahead
      else .kept c :: segments pattern rest
    | none => .kept c :: segments pattern rest
termination_by t.length

variable {pattern : Pattern} {f : List (Nat × Text) → Except Fault Text} {t u : Text}

private theorem upTo_append {q : Place} (h : q.whole = t) :
    (Place.start t).upTo q ++ q.ahead = t := by
  subst h
  simp [Place.upTo, Place.start, Place.whole]

theorem segments_cons_of_none {c : Code} (h : pattern.matchAt some (Place.start (c :: u)) = none) :
    pattern.segments (c :: u) = .kept c :: pattern.segments u := by
  rw [segments, h]

theorem segments_append_of_some (w : Text) {groups : List (Nat × Text)} (hw : w ≠ [])
    (h : pattern.matchAt some (Place.start (w ++ u)) = some ⟨w.reverse, u, groups⟩) :
    pattern.segments (w ++ u) = .found w groups :: pattern.segments u := by
  obtain ⟨c, rest, rfl⟩ := List.exists_cons_of_ne_nil hw
  have hlt : u.length < (rest ++ u).length + 1 := by
    rw [List.length_append]
    omega
  have hupTo : (Place.start (c :: (rest ++ u))).upTo ⟨(c :: rest).reverse, u, groups⟩ = c :: rest :=
    List.append_cancel_right (upTo_append (by simp [Place.whole]))
  rw [List.cons_append] at h ⊢
  rw [segments, h]
  simp only [if_pos hlt, hupTo]

/-- Nothing is lost between the segments. -/
theorem flatten_segments (pattern : Pattern) (t : Text) :
    ((pattern.segments t).map Segment.text).flatten = t := by
  induction t using segments.induct pattern with
  | case1 => rw [segments]; rfl
  | case2 c rest q hq hlt ih =>
    obtain ⟨r, hr, hsome⟩ := matchAt_stays pattern _ _ _ hq
    obtain rfl := Option.some.inj hsome
    rw [segments, hq]
    simp only [if_pos hlt, List.map_cons, List.flatten_cons, ih]
    exact upTo_append (hr.trans (Place.whole_start _))
  | case3 c rest q hq hlt ih =>
    rw [segments, hq]
    simp only [if_neg hlt, List.map_cons, List.flatten_cons, ih]
    rfl
  | case4 c rest hnone ih =>
    rw [segments_cons_of_none hnone, List.map_cons, List.flatten_cons, ih]
    rfl

/-- Replacing the matches is replacing segment by segment, up to the first segment that cannot be. -/
theorem replace_eq_segments (pattern : Pattern) (f : List (Nat × Text) → Except Fault Text)
    (t : Text) :
    pattern.replace f t = ((pattern.segments t).mapM (Segment.replaced f)).map List.flatten := by
  -- A code point may be kept for two reasons: nothing matches there, or only the empty text does.
  have hkept : ∀ (c : Code) (tail : List Segment),
      ((Segment.kept c :: tail).mapM (Segment.replaced f)).map List.flatten
        = ((tail.mapM (Segment.replaced f)).map List.flatten).map (c :: ·) := by
    intro c tail
    rw [List.mapM_cons]
    cases tail.mapM (Segment.replaced f) <;> rfl
  induction t using segments.induct pattern with
  | case1 => rw [replace, segments]; rfl
  | case2 c rest q hq hlt ih =>
    rw [replace, segments, hq]
    simp only [if_pos hlt, ih, List.mapM_cons, Segment.replaced]
    cases f q.groups with
    | error e => rfl
    | ok new => cases (pattern.segments q.ahead).mapM (Segment.replaced f) <;> rfl
  | case3 c rest q hq hlt ih =>
    rw [replace, segments, hq]
    simp only [if_neg hlt, hkept, ih]
  | case4 c rest hnone ih =>
    rw [replace, segments_cons_of_none hnone, hnone, hkept]
    simp only [ih]

theorem replace_of_forall₂ {codes : Text}
    (h : List.Forall₂ (fun segment c => Segment.replaced f segment = .ok [c])
      (pattern.segments t) codes) :
    pattern.replace f t = .ok codes := by
  have hmapM : (pattern.segments t).mapM (Segment.replaced f) = .ok (codes.map fun c => [c]) := by
    generalize pattern.segments t = items at h
    induction h with
    | nil => rfl
    | cons hsegment _ ih =>
      rw [List.mapM_cons, hsegment, ih]
      rfl
  rw [replace_eq_segments, hmapM, Except.map, ← List.flatMap_def, List.flatMap_singleton']

end Descent.Pattern
