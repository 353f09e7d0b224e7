import Descent.Proofs.Parser.Laws
import Descent.Proofs.Parser.Literal

/-!
White space, which is always taken as far as it goes and never given back.  So to leave it out twice
is to leave it out once, whatever is read behind it.  A literal with white space around it is read
wherever it stands between white space, unless it begins with white space itself: then all that it
begins with has been taken before, and it is read nowhere.
-/

set_option autoImplicit false
set_option relaxedAutoImplicit false

namespace Descent

/-- A text begins with white space. -/
def Text.BeginsWithSpace (t : Text) : Prop :=
  ∃ c rest, t = c :: rest ∧ c.isSpace = true

/-- The longest run of white space that a text begins with. -/
structure Text.IsLongestSpaces (t w : Text) : Prop where
  isPrefix : w <+: t
  isSpace : ∀ c ∈ w, c.isSpace = true
  length_le {w' : Text} : w' <+: t → (∀ c ∈ w', c.isSpace = true) → w'.length ≤ w.length

theorem Text.isLongestSpaces_takeWhile (t : Text) :
    Text.IsLongestSpaces t (t.takeWhile Code.isSpace) where
  isPrefix := List.takeWhile_prefix _
  isSpace _ hc := List.mem_takeWhile_imp hc
  length_le := by
    rintro w' ⟨u, rfl⟩ hw'
    rw [List.takeWhile_append_of_pos hw', List.length_append]
    exact Nat.le_add_right _ _

/-- White space goes as far as to what does not begin with any. -/
theorem Text.takeWhile_isSpace_append {w u : Text} (hw : ∀ c ∈ w, c.isSpace = true)
    (hu : ¬u.BeginsWithSpace) : (w ++ u).takeWhile Code.isSpace = w := by
  rw [List.takeWhile_append_of_pos hw]
  rcases u with _ | ⟨c, u⟩
  · simp
  · have hc : ¬c.isSpace = true := fun hc => hu ⟨c, u, rfl, hc⟩
    simp [hc]

theorem Text.not_beginsWithSpace_dropWhile (u : Text) :
    ¬Text.BeginsWithSpace (u.dropWhile Code.isSpace) := by
  rintro ⟨c, rest, h, hc⟩
  have hhead := List.head?_dropWhile_not Code.isSpace u
  rw [h] at hhead
  simp [hc] at hhead

namespace Input

/-- The input behind the white space that comes next. -/
def behindSpaces (i : Input) : Input :=
  i.advance ((i.rest.text?.getD []).takeWhile Code.isSpace).length

theorem exists_data_of_rest {i : Input} {t : Text} (h : i.rest = .text t) :
    ∃ whole, i.data = .text whole := by
  rcases i with ⟨whole | _ | _ | _, position, traced⟩
  · exact ⟨whole, rfl⟩
  all_goals cases h

theorem advance_zero (i : Input) : i.advance 0 = i := by
  simp only [advance, Int.add_zero]

theorem advance_advance (i : Input) (m n : Nat) :
    (i.advance m).advance n = i.advance ((m + n : Nat) : Int) := by
  simp only [advance, Int.natCast_add, Int.add_assoc]

/-- Behind a number of elements, the rest is without them. -/
theorem rest_advance {i : Input} {t : Text} (hposition : 0 ≤ i.position) (h : i.rest = .text t)
    (n : Nat) : (i.advance n).rest = .text (t.drop n) := by
  have hdrop : (i.advance n).rest = i.rest.drop n :=
    Sequence.sliceFrom_add (Or.inr (Or.inl hposition))
  rw [hdrop, h]
  rfl

theorem behindSpaces_of_rest {i : Input} {w u : Text} (hw : ∀ c ∈ w, c.isSpace = true)
    (hu : ¬u.BeginsWithSpace) (h : i.rest = .text (w ++ u)) : i.behindSpaces = i.advance w.length := by
  rw [behindSpaces, h]
  exact congrArg (fun v : Text => i.advance v.length) (Text.takeWhile_isSpace_append hw hu)

theorem rest_behindSpaces {i : Input} {u : Text} (hposition : 0 ≤ i.position)
    (h : i.rest = .text u) : i.behindSpaces.rest = .text (u.dropWhile Code.isSpace) := by
  rw [behindSpaces, rest_advance hposition h, h]
  have hsplit : u.takeWhile Code.isSpace ++ u.dropWhile Code.isSpace = u :=
    List.takeWhile_append_dropWhile
  refine congrArg Sequence.text ?_
  calc u.drop (u.takeWhile Code.isSpace).length
      = (u.takeWhile Code.isSpace ++ u.dropWhile Code.isSpace).drop
          (u.takeWhile Code.isSpace).length := by rw [hsplit]
    _ = u.dropWhile Code.isSpace := List.drop_left

/-- Behind white space there is none. -/
theorem behindSpaces_behindSpaces {i : Input} {t : Text} (hposition : 0 ≤ i.position)
    (hi : i.data = .text t) : i.behindSpaces.behindSpaces = i.behindSpaces := by
  have hrest := rest_behindSpaces hposition (rest_of_text hi)
  have hnone := behindSpaces_of_rest (w := []) (by simp) (Text.not_beginsWithSpace_dropWhile _) hrest
  exact hnone.trans i.behindSpaces.advance_zero

/-- At a position that counts from the end, the white space at the start comes behind that at the
end. -/
example :
    let i : Input := ⟨.text (Text.ofString " a "), -1, false⟩
    i.behindSpaces.position = 0 ∧ i.behindSpaces.behindSpaces.position = 1 := by
  decide

end Input

namespace Grammar

variable {onEnter : CellId → Parser} {i : Input} {t s : Text}

theorem run_spaces (hi : i.data = .text t) : spaces.parser onEnter i =
    .done (.success (.str ((i.rest.text?.getD []).takeWhile Code.isSpace)) i.behindSpaces) := by
  show Parser.cause (Parser.pattern _ (.run Code.isSpace 0 none true)) _ i = _
  rw [Parser.cause, Parser.pattern, Input.behindSpaces, Input.rest_of_text hi]
  dsimp only
  rw [(Pattern.Scans.run Code.isSpace).matched?_eq]
  exact Run.done_andThen _ _

/-- White space up to what does not begin with any is the result, and what follows is left. -/
theorem run_spaces_of_rest {w u : Text} (hw : ∀ c ∈ w, c.isSpace = true) (hu : ¬u.BeginsWithSpace)
    (h : i.rest = .text (w ++ u)) :
    spaces.parser onEnter i = .done (.success (.str w) (i.advance w.length)) := by
  obtain ⟨whole, hi⟩ := Input.exists_data_of_rest h
  rw [run_spaces hi, Input.behindSpaces_of_rest hw hu h, h]
  show Run.done (Outcome.success (.str ((w ++ u).takeWhile Code.isSpace)) _) = _
  rw [Text.takeWhile_isSpace_append hw hu]

/-- Behind white space, the white space that is still read is empty. -/
theorem run_spaces_behindSpaces (hposition : 0 ≤ i.position) (hi : i.data = .text t) :
    spaces.parser onEnter i.behindSpaces = .done (.success (.str []) i.behindSpaces) := by
  have hrest := Input.rest_behindSpaces hposition (Input.rest_of_text hi)
  have hempty : spaces.parser onEnter i.behindSpaces =
      .done (.success (.str []) (i.behindSpaces.advance 0)) :=
    run_spaces_of_rest (by simp) (Text.not_beginsWithSpace_dropWhile _) hrest
  rwa [Input.advance_zero] at hempty

/-- White space is what the pattern `\s*` matches, with an explanation of its own. -/
theorem spaces_eq_cause : ∃ g, Expr.patternOf (Text.ofString "\\s*") {} = .ok g ∧
    spaces = cause g (Text.ofString "pspaces") :=
  ⟨_, rfl, rfl⟩

/-- White space in front of a grammar only moves the place at which the grammar is run. -/
theorem run_right_spaces (hi : i.data = .text t) (g : Grammar) :
    (right spaces g).parser onEnter i = g.parser onEnter i.behindSpaces := by
  show (spaces.parser onEnter i).onSuccess _ = _
  rw [run_spaces hi, Run.done_onSuccess]

/-- At any place of a text, white space is taken as far as it goes.  To take it again gets no further,
and in front of any grammar it makes no difference whether it is taken once or twice: the runs are
the same, with their outcomes, faults and traces. -/
theorem spaces_absorb_spaces (t : Text) (position : Nat) (traced : Bool) (store : Store)
    (limit : Nat) :
    let i : Input := ⟨.text t, position, traced⟩
    ∃ w, Text.IsLongestSpaces (t.drop position) w ∧
      spaces.run store limit i = .done (.success (.str w) (i.advance w.length)) ∧
      (right spaces spaces).run store limit i = .done (.success (.str []) (i.advance w.length)) ∧
      ∀ g, (right spaces (right spaces g)).run store limit i = (right spaces g).run store limit i := by
  intro i
  let w := (t.drop position).takeWhile Code.isSpace
  let u := (t.drop position).dropWhile Code.isSpace
  have hlongest : Text.IsLongestSpaces (t.drop position) w := Text.isLongestSpaces_takeWhile _
  have hu : ¬Text.BeginsWithSpace u := Text.not_beginsWithSpace_dropWhile _
  have hi : i.data = .text t := rfl
  have hposition : 0 ≤ i.position := Int.natCast_nonneg position
  have hrest : i.rest = .text (t.drop position) := Input.rest_mk_text t position traced
  have hsplit : i.rest = .text (w ++ u) := by
    rw [hrest, List.takeWhile_append_dropWhile]
  have hbehind : i.behindSpaces = i.advance w.length :=
    Input.behindSpaces_of_rest hlongest.isSpace hu hsplit
  refine ⟨w, hlongest, run_spaces_of_rest hlongest.isSpace hu hsplit, ?_, fun g => ?_⟩
  · rw [← hbehind]
    exact (run_right_spaces hi spaces).trans (run_spaces_behindSpaces hposition hi)
  · have hbehindData : i.behindSpaces.data = .text t := rfl
    rw [run, run, run_right_spaces hi, run_right_spaces hbehindData, run_right_spaces hi,
      Input.behindSpaces_behindSpaces hposition hi]

/-- A literal with white space around it is the literal behind the white space in front, and then
the white space behind it. -/
theorem run_spacedLit (hi : i.data = .text t) (literal : Sequence) :
    (spacedLit literal).parser onEnter i =
      (Parser.lit literal i.behindSpaces).onSuccess fun v mid =>
        (spaces.parser onEnter mid).onSuccess fun _ rest => .done (.success v rest) := by
  refine (Parser.between_result _ _ _ i).trans (congrArg (Run.onSuccess · _) ?_)
  exact run_right_spaces hi (lit literal)

private theorem lit_reads {u : Text} (hposition : 0 ≤ i.position)
    (h : i.rest = .text (s ++ u)) :
    Parser.lit (.text s) i = .done (.success (.str s) (i.advance s.length)) := by
  refine (Parser.lit_ends (.text s) i).1.mpr ⟨?_, Or.inr (Or.inl hposition)⟩
  rw [h]
  exact Sequence.startsWith_text.mpr (List.prefix_append s u)

/-- White space up to a literal is taken before it, and white space up to what follows behind it. -/
private theorem spacedLit_between {w v r : Text} (hposition : 0 ≤ i.position)
    (hrest : i.rest = .text (w ++ (s ++ (v ++ r)))) (hw : ∀ c ∈ w, c.isSpace = true)
    (hv : ∀ c ∈ v, c.isSpace = true) (hs : ¬(s ++ (v ++ r)).BeginsWithSpace)
    (hr : ¬r.BeginsWithSpace) :
    (spacedLit (.text s)).parser onEnter i =
      .done (.success (.str s) (i.advance (w ++ (s ++ v)).length)) := by
  obtain ⟨whole, hi⟩ := Input.exists_data_of_rest hrest
  have hfront : i.behindSpaces = i.advance w.length := Input.behindSpaces_of_rest hw hs hrest
  have hfrontRest : (i.advance w.length).rest = .text (s ++ (v ++ r)) := by
    rw [Input.rest_advance hposition hrest, List.drop_left]
  have hfrontPosition : 0 ≤ (i.advance w.length).position := by
    simp only [Input.advance]
    omega
  have hbackRest : ((i.advance w.length).advance s.length).rest = .text (v ++ r) := by
    rw [Input.rest_advance hfrontPosition hfrontRest, List.drop_left]
  have hback : spaces.parser onEnter ((i.advance w.length).advance s.length) =
      .done (.success (.str v) (i.advance (w ++ (s ++ v)).length)) := by
    rw [run_spaces_of_rest hv hr hbackRest, Input.advance_advance, Input.advance_advance,
      List.length_append, List.length_append]
  rw [run_spacedLit hi, hfront, lit_reads hfrontPosition hfrontRest, Run.done_onSuccess, hback,
    Run.done_onSuccess]

/-- Two runs of white space with a literal between that does not begin with any are taken one after
the other, and what follows is left. -/
theorem spacedLit_reads {w₁ w₂ r : Text} (hposition : 0 ≤ i.position)
    (hrest : i.rest = .text (w₁ ++ (s ++ (w₂ ++ r)))) (hw₁ : ∀ c ∈ w₁, c.isSpace = true)
    (hw₂ : ∀ c ∈ w₂, c.isSpace = true) (hr : ¬r.BeginsWithSpace) (hs : ¬s.BeginsWithSpace) :
    (spacedLit (.text s)).parser onEnter i =
      .done (.success (.str s) (i.advance (w₁ ++ (s ++ w₂)).length)) := by
  rcases s with _ | ⟨c, s⟩
  · -- Around an empty literal all white space is taken in front of it.
    have hboth : ∀ c ∈ w₁ ++ w₂, c.isSpace = true := fun c hc =>
      (List.mem_append.mp hc).elim (hw₁ c) (hw₂ c)
    have hrest' : i.rest = .text ((w₁ ++ w₂) ++ ([] ++ ([] ++ r))) := by
      rw [hrest]
      simp
    have hempty : (spacedLit (.text [])).parser onEnter i =
        .done (.success (.str []) (i.advance ((w₁ ++ w₂) ++ ([] ++ [])).length)) :=
      spacedLit_between hposition hrest' hboth (by simp) hr hr
    simpa using hempty
  · refine spacedLit_between hposition hrest hw₁ hw₂ ?_ hr
    rintro ⟨d, rest, hcons, hd⟩
    exact hs ⟨c, s, rfl, (List.cons.inj hcons).1 ▸ hd⟩

/-- A literal that begins with white space is not read where white space is left out before. -/
theorem spacedLit_fails (hposition : 0 ≤ i.position) (hi : i.data = .text t)
    (hs : s.BeginsWithSpace) :
    (spacedLit (.text s)).parser onEnter i = .done (.failure i.behindSpaces.position
      (Text.ofString "plit(" ++ Value.shown (.str s) ++ Text.ofString ")")) := by
  have hnot : ¬i.behindSpaces.rest.StartsWith (.text s) := by
    rw [Input.rest_behindSpaces hposition (Input.rest_of_text hi), Sequence.startsWith_text]
    rintro ⟨u, hu⟩
    obtain ⟨c, rest, rfl, hc⟩ := hs
    exact Text.not_beginsWithSpace_dropWhile _ ⟨c, rest ++ u, hu.symm, hc⟩
  have hlit := (Parser.lit_ends (.text s) i.behindSpaces).2.mpr fun h => hnot h.1
  rw [run_spacedLit hi, hlit]
  exact Run.done_andThen _ _

/-- Between white space, a literal is read with all of it, unless the literal begins with white space
itself; then it is missed behind what was taken in front. -/
theorem spacedLit_reads_iff {w₁ w₂ r : Text} (hposition : 0 ≤ i.position)
    (hrest : i.rest = .text (w₁ ++ (s ++ (w₂ ++ r)))) (hw₁ : ∀ c ∈ w₁, c.isSpace = true)
    (hw₂ : ∀ c ∈ w₂, c.isSpace = true) (hr : ¬r.BeginsWithSpace) (store : Store) (limit : Nat) :
    ((spacedLit (.text s)).run store limit i =
        .done (.success (.str s) (i.advance (w₁ ++ (s ++ w₂)).length)) ↔ ¬s.BeginsWithSpace) ∧
      ((spacedLit (.text s)).run store limit i = .done (.failure i.behindSpaces.position
        (Text.ofString "plit(" ++ Value.shown (.str s) ++ Text.ofString ")")) ↔ s.BeginsWithSpace) ∧
      (i.advance (w₁ ++ (s ++ w₂)).length).rest = .text r := by
  obtain ⟨whole, hi⟩ := Input.exists_data_of_rest hrest
  have hleft : (i.advance (w₁ ++ (s ++ w₂)).length).rest = .text r := by
    have hcut : w₁ ++ (s ++ (w₂ ++ r)) = (w₁ ++ (s ++ w₂)) ++ r := by simp
    rw [Input.rest_advance hposition hrest, hcut, List.drop_left]
  by_cases hs : s.BeginsWithSpace
  · have hfails : (spacedLit (.text s)).parser (store.enter limit) i = _ :=
      spacedLit_fails hposition hi hs
    rw [run, hfails]
    refine ⟨?_, ?_, hleft⟩ <;> simp [hs, Run.done]
  · have hreads : (spacedLit (.text s)).parser (store.enter limit) i = _ :=
      spacedLit_reads hposition hrest hw₁ hw₂ hr hs
    rw [run, hreads]
    refine ⟨?_, ?_, hleft⟩ <;> simp [hs, Run.done]

/-- A literal that ends with white space is read up to there, and more of it is taken behind. -/
theorem spacedLit_reads_between_tabs :
    let t := Text.ofString "\t\u00a0a  \n;"
    (∀ c ∈ Text.ofString "\t\u00a0", c.isSpace = true) ∧
      (∀ c ∈ Text.ofString " \n", c.isSpace = true) ∧ ¬(Text.ofString ";").BeginsWithSpace ∧
      ¬(Text.ofString "a ").BeginsWithSpace ∧
      (spacedLit (.text (Text.ofString "a "))).run Store.empty 0 ⟨.text t, 0, true⟩ =
        .done (.success (.str (Text.ofString "a ")) ⟨.text t, 6, true⟩) := by
  intro t
  have hw₁ : ∀ c ∈ Text.ofString "\t\u00a0", c.isSpace = true :=
    List.all_eq_true.mp (by decide)
  have hw₂ : ∀ c ∈ Text.ofString " \n", c.isSpace = true :=
    List.all_eq_true.mp (by decide)
  have hr : ¬(Text.ofString ";").BeginsWithSpace := by
    rintro ⟨c, rest, hcons, hc⟩
    obtain rfl := (List.cons.inj hcons).1
    exact absurd hc (by decide)
  have hs : ¬(Text.ofString "a ").BeginsWithSpace := by
    rintro ⟨c, rest, hcons, hc⟩
    obtain rfl := (List.cons.inj hcons).1
    exact absurd hc (by decide)
  have hrest : (Input.mk (.text t) 0 true).rest =
      .text (Text.ofString "\t\u00a0" ++ (Text.ofString "a " ++ (Text.ofString " \n" ++
        Text.ofString ";"))) := rfl
  have hiff := spacedLit_reads_iff (by decide) hrest hw₁ hw₂ hr Store.empty 0
  exact ⟨hw₁, hw₂, hr, hs, hiff.1.mpr hs⟩

/-- A literal that begins with white space is not even read where it is all there is. -/
theorem spacedLit_fails_on_itself :
    (spacedLit (.text (Text.ofString " a"))).run Store.empty 0 ⟨.text (Text.ofString " a"), 0, false⟩
      = .done (.failure 1 (Text.ofString "plit(' a')")) := by
  rfl

end Grammar

end Descent
