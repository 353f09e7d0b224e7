import Descent.Proofs.Grammar.Entries
import Descent.Proofs.Json.Refusals

/-!
How deep the readings of JSON texts nest.  An entry that is made while another one is active lies
behind a bracket or a brace that opens after the place of the outer one.  So the positions of active
entries increase, and there are not more of them than openings in the text and one.
-/

set_option autoImplicit false
set_option relaxedAutoImplicit false

namespace Descent.Json

open Descent.Parser (ReadsOnly StopsList)

section Probe

/-! The cell of values, probed at one place: a fault that the grammar does not have otherwise. -/

variable {limit : Nat} {whole x : Text} {cell : CellId} {position : Int}

private theorem readsOnly_probe :
    (redirect (documentStore.enter limit) cell position (Parser.fault .undefinedCell) 0).ReadsOnly
      (Derives FitsLimit .value) := by
  intro whole x hx
  simp only [redirect]
  split
  · exact .stop _
  · exact readsOnly_enter limit whole x hx

private theorem stopsOnly_probe (hx : x <:+ whole) :
    (redirect (documentStore.enter limit) cell position (Parser.fault .undefinedCell) 0
      (.before whole x)).StopsOnly fun f =>
        f = .undefinedCell → cell = 0 ∧ position = (Input.before whole x).position := by
  simp only [redirect]
  split
  · next hhere => exact Run.stopsOnly_stop fun _ => ⟨hhere.1.symm, hhere.2.symm⟩
  · refine (stopsOnly_enter limit hx).mono fun f hf hundefined => ?_
    rcases hf with ⟨rfl, -⟩ | ⟨n, rfl, -⟩
    · cases hundefined
    · cases hundefined

/-- An entry directly inside another one has been led to by a bracket or a brace. -/
theorem exists_of_enters_valueRule (hx : x <:+ whole)
    (h : (valueRule 0).Enters (documentStore.enter limit) (.before whole x) cell position) :
    cell = 0 ∧ ∃ u y, x = u ++ y ∧ LeadsIn u ∧ position = (Input.before whole y).position := by
  have hstops : ((valueRule 0).parser
      (redirect (documentStore.enter limit) cell position (Parser.fault .undefinedCell))
        (.before whole x)).StopsOnly fun f => f = .undefinedCell →
          cell = 0 ∧ ∃ u y, x = u ++ y ∧ LeadsIn u ∧ position = (Input.before whole y).position := by
    -- The grammar has no cell that is undefined, so this fault can come from the probe only.
    refine stopsOnly_valueRule readsOnly_probe hx (fun _ _ _ _ _ _ hf => by cases hf) ?_
    intro u y hxy hu
    have hy : y <:+ whole := (List.suffix_append u y).trans (hxy ▸ hx)
    refine (stopsOnly_probe hy).mono fun f hf hundefined => ?_
    obtain ⟨hcell, hposition⟩ := hf hundefined
    exact ⟨hcell, u, y, hxy, hu, hposition⟩
  exact hstops _ (h .undefinedCell) rfl

/-- The document grammar enters the cell of values at the start of the text. -/
theorem eq_of_enters_document {t : Text}
    (h : documentGrammar.Enters (documentStore.enter limit) (.before t t) cell position) :
    cell = 0 ∧ position = (Input.before t t).position := by
  have hnone : (Parser.result .null).ReadsOnly fun w _ => w = [] := ReadsOnly.result .null rfl
  have hstops : (documentGrammar.parser
      (redirect (documentStore.enter limit) cell position (Parser.fault .undefinedCell))
        (.before t t)).StopsOnly fun f => f = .undefinedCell →
          cell = 0 ∧ position = (Input.before t t).position := by
    refine Parser.stopsOnly_between List.suffix_rfl (Parser.stopsOnly_result _ _) hnone ?_
      readsOnly_probe fun y _ => Parser.stopsOnly_eof _
    rintro a o y ht rfl
    obtain rfl : t = y := ht
    exact stopsOnly_probe List.suffix_rfl
  exact hstops _ (h .undefinedCell) rfl

end Probe

private theorem enters_before {g : Grammar} {limit : Nat} {whole x : Text} {traced : Bool}
    {cell : CellId} {position : Int} (hx : x <:+ whole)
    (h : g.Enters (documentStore.enter limit) { Input.before whole x with traced := traced } cell
      position) :
    g.Enters (documentStore.enter limit) (.before whole x) cell position := by
  have hposition : ((whole.length - x.length : Nat) : Int) = (whole.length : Int) - x.length :=
    Int.ofNat_sub hx.length_le
  have huntraced := (g.enters_untraced documentStore limit (.text whole)
    (whole.length - x.length) traced cell position).mp
  rw [hposition] at huntraced
  exact huntraced h

/-- Entries that are active together inside a value lie further and further behind its start, and an
opening of the value belongs to each of them. -/
theorem nested_valueRule {limit : Nat} {whole x : Text} {traced : Bool}
    {entries : List (CellId × Int)} (hx : x <:+ whole)
    (h : documentStore.Nested limit (valueRule 0) { Input.before whole x with traced := traced }
      entries) :
    entries.Pairwise (fun outer inner => outer.2 < inner.2) ∧
      (∀ e ∈ entries, (Input.before whole x).position < e.2) ∧ entries.length ≤ openings x := by
  -- The inner entries are those of a run of the same rule, from where the outermost one is made.
  induction entries generalizing limit x with
  | nil => exact ⟨.nil, fun e he => (List.not_mem_nil he).elim, Nat.zero_le _⟩
  | cons e inner ih =>
    cases h with
    | cons henters hbody hinner =>
      obtain ⟨rfl, u, y, rfl, hu, rfl⟩ := exists_of_enters_valueRule hx (enters_before hx henters)
      obtain rfl := Option.some.inj hbody
      have hy : y <:+ whole := (List.suffix_append u y).trans hx
      obtain ⟨hincreasing, hbehind, hlength⟩ := ih hy hinner
      have hpos := hu.openings_pos
      have hfurther : (Input.before whole (u ++ y)).position < (Input.before whole y).position := by
        have hlong := hu.length_pos
        simp only [Input.before, List.length_append]
        omega
      refine ⟨List.pairwise_cons.mpr ⟨hbehind, hincreasing⟩, ?_, ?_⟩
      · intro e he
        rcases List.mem_cons.mp he with rfl | he
        · exact hfurther
        · exact Int.lt_trans hfurther (hbehind e he)
      · rw [openings_append, List.length_cons]
        omega

/-- The same of the entries of a whole reading; the first one is at the start of the text. -/
theorem nested_document {limit : Nat} {t : Text} {traced : Bool} {entries : List (CellId × Int)}
    (h : documentStore.Nested limit documentGrammar ⟨.text t, 0, traced⟩ entries) :
    entries.Pairwise (fun outer inner => outer.2 < inner.2) ∧
      entries.length ≤ 1 + openings t := by
  rw [show (⟨.text t, 0, traced⟩ : Input) = { Input.before t t with traced := traced } by
    rw [Input.before_self]] at h
  cases h with
  | nil => exact ⟨.nil, Nat.zero_le _⟩
  | cons henters hbody hinner =>
    obtain ⟨rfl, rfl⟩ := eq_of_enters_document (enters_before List.suffix_rfl henters)
    obtain rfl := Option.some.inj hbody
    obtain ⟨hincreasing, hbehind, hlength⟩ := nested_valueRule List.suffix_rfl hinner
    refine ⟨List.pairwise_cons.mpr ⟨hbehind, hincreasing⟩, ?_⟩
    rw [List.length_cons]
    omega

/-! Brackets that open at the start of a text, one after the other. -/

theorem stops_tooDeep (limit : Nat) (rest : Text) {whole x : Text} (hx : x <:+ whole)
    (htrim : trim x = trim (List.replicate limit (Code.ofChar '[') ++ rest)) :
    (documentStore.enter limit 0).Stops whole x .tooDeep := by
  -- Every bracket leads into one more entry, and none of them is left when the brackets end.
  induction limit generalizing x with
  | zero => rfl
  | succ limit ih =>
    refine stops_array (isMark_alone '[') hx htrim fun hy => ?_
    exact .here (ih hy (trim_trim _))

private theorem exists_nested_inside (n : Nat) {whole : Text}
    (hx : List.replicate n (Code.ofChar '[') <:+ whole) :
    ∃ entries, documentStore.Nested n (valueRule 0)
      (.before whole (List.replicate n (Code.ofChar '['))) entries ∧ entries.length = n := by
  induction n with
  | zero => exact ⟨[], .nil, rfl⟩
  | succ n ih =>
    have hsuffix : List.replicate n (Code.ofChar '[') <:+ whole :=
      (List.suffix_cons _ _).trans (List.replicate_succ ▸ hx)
    have hself : trim (List.replicate n (Code.ofChar '[')) = List.replicate n (Code.ofChar '[') := by
      cases n with
      | zero => rfl
      | succ n =>
        rw [List.replicate_succ]
        exact trim_cons (by decide) _
    obtain ⟨entries, hentries, hlength⟩ := ih hsuffix
    have henters : (valueRule 0).Enters (documentStore.enter (n + 1))
        (.before whole (List.replicate (n + 1) (Code.ofChar '['))) 0
        (Input.before whole (List.replicate n (Code.ofChar '['))).position := by
      intro f
      refine stops_array (isMark_alone '[') hx rfl fun _ => .here ?_
      rw [hself, Parser.Stops, redirect, if_pos ⟨rfl, rfl⟩]
      rfl
    exact ⟨_, .cons henters rfl hentries, congrArg (· + 1) hlength⟩

/-- As many entries are active together as there are brackets at the start of a text, and one. -/
theorem exists_nested_brackets (n : Nat) :
    ∃ entries, documentStore.Nested (n + 1) documentGrammar
      ⟨.text (List.replicate n (Code.ofChar '[')), 0, false⟩ entries ∧ entries.length = n + 1 := by
  generalize ht : List.replicate n (Code.ofChar '[') = t
  have hsuffix : List.replicate n (Code.ofChar '[') <:+ t := ht ▸ List.suffix_rfl
  obtain ⟨entries, hentries, hlength⟩ := exists_nested_inside n hsuffix
  have henters : documentGrammar.Enters (documentStore.enter (n + 1)) (.before t t) 0
      (Input.before t t).position := by
    intro f
    have hstops : (redirect (documentStore.enter (n + 1)) 0 (Input.before t t).position
        (Parser.fault f) 0).Stops t t f := by
      rw [Parser.Stops, redirect, if_pos ⟨rfl, rfl⟩]
      rfl
    exact hstops.between_of_accepts List.suffix_rfl (Parser.Accepts.result .null t) _
  rw [ht] at hentries
  rw [← Input.before_self]
  exact ⟨_, .cons henters rfl hentries, congrArg (· + 1) hlength⟩

/-- In the reading of a text the positions of active entries increase from the outermost to the
innermost, and not more entries are active together than brackets and braces open in the text and
one.  So a limit of that many is never the reason why a text is refused; and where as many brackets
open at the start as entries are allowed, it is, whatever follows. -/
theorem nesting_bounded_by_openings (t : Text) (traced : Bool) :
    (∀ limit entries,
      documentStore.Nested limit documentGrammar ⟨.text t, 0, traced⟩ entries →
      entries.Pairwise (fun outer inner => outer.2 < inner.2) ∧
        entries.length ≤ 1 + openings t) ∧
    (∀ limit, 1 + openings t ≤ limit → ∀ position,
      (readWithin limit t traced).ending ≠
        .error (.malformed position (Text.ofString "nesting too deep"))) ∧
    ∀ limit rest, t = List.replicate limit (Code.ofChar '[') ++ rest →
      (readWithin limit t traced).ending =
        .error (.malformed 0 (Text.ofString "nesting too deep")) := by
  refine ⟨fun limit entries h => nested_document h, ?_, ?_⟩
  · intro limit hlimit position hending
    generalize hwhy : Text.ofString "nesting too deep" = why at hending
    cases refused_of_readWithin hending with
    | noValue => exact absurd hwhy (by decide)
    | trailing _ _ _ => exact absurd hwhy (by decide)
    | tooDeep hdeep => omega
  · rintro limit rest rfl
    exact ending_of_stops (stops_tooDeep limit rest List.suffix_rfl rfl) traced

/-- Two brackets lead to three entries that are active together, which is one more than a limit of
two allows. -/
theorem nesting_of_two_brackets :
    (∃ entries, documentStore.Nested 3 documentGrammar ⟨.text (Text.ofString "[["), 0, false⟩ entries ∧
      entries.length = 3 ∧ 1 + openings (Text.ofString "[[") = 3 ∧
      entries.Pairwise fun outer inner => outer.2 < inner.2) ∧
    (∀ position, (readWithin 3 (Text.ofString "[[") false).ending ≠
      .error (.malformed position (Text.ofString "nesting too deep"))) ∧
    (readWithin 2 (Text.ofString "[[") false).ending =
      .error (.malformed 0 (Text.ofString "nesting too deep")) := by
  obtain ⟨hnested, hnever, hdeep⟩ := nesting_bounded_by_openings (Text.ofString "[[") false
  obtain ⟨entries, hentries, hlength⟩ := exists_nested_brackets 2
  have hopenings : 1 + openings (Text.ofString "[[") = 3 := by decide
  exact ⟨⟨entries, hentries, hlength, hopenings, (hnested 3 entries hentries).1⟩,
    hnever 3 (Nat.le_of_eq hopenings), hdeep 2 [] rfl⟩

end Descent.Json
