import Descent.Proofs.Json.Alternatives
import Descent.Proofs.Json.Depth
import Descent.Proofs.Json.Nesting

/-!
What is reported of a malformed text.  The report names the last alternative behind the white space
at the start, if no value begins the text, or the end of the value that does, or neither if the text
is too deep.  Nothing of the place inside a value where the defect lies is left in it.
-/

set_option autoImplicit false
set_option relaxedAutoImplicit false

namespace Descent.Json

/-- The grammar of values takes a text in full, with the white space around the value. -/
def TakenAsValue (limit : Nat) (w : Text) : Prop :=
  ∃ v, ((value Store.empty).1.run (value Store.empty).2 limit ⟨.text w, 0, false⟩).ending =
    .ok (.success v ⟨.text w, w.length, false⟩)

section Fails

variable {onEnter : CellId → Parser} {cell : CellId} {limit : Nat} {whole x w u : Text} {v : Value}

/-! A value that begins a text does not fail, whatever follows it. -/

private theorem not_fails_of_accepts {p : Parser} {y : Text} (hp : p.Accepts x v y)
    (hx : x <:+ whole) : ¬(p (.before whole x)).Fails := by
  rintro ⟨position, why, h⟩
  rw [hp.run whole hx] at h
  cases h

private theorem not_fails_transform {p : Parser} {y : Text} (hp : p.Accepts x v y)
    (hx : x <:+ whole) (f : Value → Except Fault Value) :
    ¬(Parser.transform p f (.before whole x)).Fails := by
  rintro ⟨position, why, h⟩
  rw [Parser.transform, hp.run whole hx, Run.done_onSuccess] at h
  cases hf : f v <;> rw [hf] at h <;> cases h

/-- Where one alternative does not fail, all of them together do not. -/
private theorem not_fails_alternatives {a : Kind}
    (h : ¬((a.grammar cell).parser onEnter (.before whole x)).Fails) :
    ¬(alternatives onEnter cell (.before whole x)).Fails := by
  rintro ⟨position, why, hfails⟩
  rw [alternatives_eq, ending_alternativesIn writtenOrder rfl h] at hfails
  exact h ⟨position, why, hfails⟩

/-- An entry fails only if the alternatives fail behind the white space in front. -/
private theorem fails_alternatives (hx : x <:+ whole)
    (h : (documentStore.enter (limit + 1) 0 (.before whole x)).Fails) :
    (alternatives (documentStore.enter limit) 0 (.before whole (trim x))).Fails := by
  have hx' : trim x <:+ whole := (trim_suffix x).trans hx
  have hreads := readsOnly_alternatives (readsOnly_enter limit) whole (trim x) hx'
  obtain ⟨position, why, hfails⟩ := h
  rw [enter_succ_eq limit hx, Run.ending_onSuccess] at hfails
  cases hending : (alternatives (documentStore.enter limit) 0 (.before whole (trim x))).ending with
  | error f =>
    rw [hending] at hfails
    cases hfails
  | ok o =>
    cases o with
    | failure position' why' => exact ⟨position', why', hending⟩
    | success v after =>
      obtain ⟨w, y, hxy, rfl, -⟩ := hreads _ hending
      have hy : y <:+ whole := (List.suffix_append w y).trans (hxy ▸ hx')
      rw [hending] at hfails
      dsimp only at hfails
      rw [(accepts_spaces y).run whole hy] at hfails
      cases hfails

/-- Where a derived text comes next an entry does not fail, whatever follows that text. -/
theorem not_fails_of_derives (hw : Derives FitsLimit .value w v) (hlimit : openings w < limit)
    (hx : x <:+ whole) (htrim : trim x = trim (w ++ u)) :
    ¬(documentStore.enter limit 0 (.before whole x)).Fails := by
  obtain ⟨limit, rfl⟩ := Nat.exists_eq_add_one.mpr (Nat.zero_lt_of_lt hlimit)
  suffices h : ¬(alternatives (documentStore.enter limit) 0 (.before whole (trim x))).Fails from
    fun hfails => h (fails_alternatives hx hfails)
  have hx' : trim x <:+ whole := (trim_suffix x).trans hx
  cases hw with
  | @value a t b _ ha ht hb =>
    have hstart : trim x = trim (t ++ (b ++ u)) := by
      rw [htrim, List.append_assoc, trim_append ha, List.append_assoc]
    by_cases hnumber : IsNumber t
    · -- What follows may continue the number, to one that is too long or to another one.
      obtain ⟨w', hw', -⟩ := exists_scanNumber_append hnumber (b ++ u)
      rw [← matched?_numberPattern] at hw'
      obtain ⟨y, hy⟩ := Pattern.eq_append_of_matched? hw'
      rw [hy] at hw'
      rw [hnumber.trim_append, hy] at hstart
      rw [hstart] at hx' ⊢
      refine @not_fails_alternatives _ 0 _ _ .number ?_
      exact not_fails_transform ((Parser.Accepts.pattern hw').cause _) hx' _
    · have hopenings : openings t ≤ limit := by
        simp only [openings_append] at hlimit
        omega
      obtain ⟨y, -, hbare⟩ := completes_of_derives ht limit (b ++ u) hopenings
        fun h => absurd h hnumber
      rw [← hstart] at hbare
      exact not_fails_of_accepts hbare hx'

end Fails

/-! Texts that are taken. -/

section Taken

variable {limit : Nat} {whole x t w y : Text} {v : Value}

private theorem run_value (limit : Nat) (w : Text) :
    (value Store.empty).1.run (value Store.empty).2 limit ⟨.text w, 0, false⟩ =
      documentStore.enter limit 0 (.before w w) := by
  rw [Input.before_self]
  rfl

private theorem before_nil (w : Text) : Input.before w [] = ⟨.text w, w.length, false⟩ := by
  simp [Input.before]

/-- What an entry leaves has no white space in front. -/
private theorem ensures_trimmed (limit : Nat) (hx : x <:+ whole) :
    (documentStore.enter limit 0 (.before whole x)).Ensures fun
      | .success _ rest => ∃ y, y <:+ x ∧ trim y = y ∧ rest = .before whole y
      | .failure _ _ => True := by
  cases limit with
  | zero => exact .stop _
  | succ limit =>
    have hx' : trim x <:+ whole := (trim_suffix x).trans hx
    have hreads := readsOnly_alternatives (readsOnly_enter limit) whole (trim x) hx'
    rw [enter_succ_eq limit hx]
    refine hreads.onSuccess (fun _ _ _ => trivial) fun v after hafter => ?_
    obtain ⟨w, y, hxy, rfl, -⟩ := hafter
    have hyx : y <:+ x := (List.suffix_append w y).trans (hxy ▸ trim_suffix x)
    rw [(accepts_spaces y).run whole (hyx.trans hx), Run.done_onSuccess]
    exact .done ⟨trim y, (trim_suffix y).trans hyx, trim_trim y, rfl⟩

/-- What an entry takes is derived, and what it leaves has no white space in front. -/
private theorem exists_of_ending {rest : Input} (hx : x <:+ whole)
    (h : (documentStore.enter limit 0 (.before whole x)).ending = .ok (.success v rest)) :
    ∃ w y, x = w ++ y ∧ Derives FitsLimit .value w v ∧ trim y = y ∧ rest = .before whole y := by
  obtain ⟨w, y, rfl, rfl, hw⟩ := readsOnly_enter limit whole x hx _ h
  obtain ⟨y', hy', htrim, hrest⟩ := ensures_trimmed limit hx _ h
  obtain rfl := Input.before_inj ((List.suffix_append w y).trans hx) (hy'.trans hx) hrest
  exact ⟨w, y, rfl, hw, htrim, rfl⟩

theorem derives_of_takenAsValue (h : TakenAsValue limit w) :
    ∃ v, Derives FitsLimit .value w v := by
  obtain ⟨v, hv⟩ := h
  rw [run_value, ← before_nil] at hv
  obtain ⟨w', y, rfl, hw', -, hrest⟩ := exists_of_ending List.suffix_rfl hv
  obtain rfl := Input.before_inj (List.nil_suffix) (List.suffix_append w' y) hrest
  rw [List.append_nil]
  exact ⟨v, hw'⟩

/-- Where an entry fails, no text that is derived comes next. -/
theorem not_takenAsValue_of_fails (h : (documentStore.enter limit 0 (.before t t)).Fails)
    (hw : w <+: t) (limit' : Nat) : ¬TakenAsValue limit' w := by
  intro htaken
  obtain ⟨v, hv⟩ := derives_of_takenAsValue htaken
  obtain ⟨u, rfl⟩ := hw
  have hgreat : openings w < max limit (openings w + 1) := by omega
  have hnot := not_fails_of_derives (u := u) hv hgreat List.suffix_rfl rfl
  rcases documentStore.enter_eq_of_le (Nat.le_max_left limit (openings w + 1)) 0
    (.before (w ++ u) (w ++ u)) with hdeep | hsame
  · obtain ⟨position, why, hfails⟩ := h
    rw [hdeep] at hfails
    cases hfails
  · rw [hsame] at hnot
    exact hnot h

/-- What an entry takes of a text it also takes alone, under the same limit. -/
theorem takenAsValue_of_ending
    (h : (documentStore.enter limit 0 (.before (w ++ y) (w ++ y))).ending =
      .ok (.success v (.before (w ++ y) y))) : TakenAsValue limit w := by
  obtain ⟨w', y', hcut, hw, -, hrest⟩ := exists_of_ending List.suffix_rfl h
  obtain rfl := Input.before_inj (List.suffix_append w y) (hcut ▸ List.suffix_append w' y') hrest
  obtain rfl := List.append_cancel_right hcut
  have hgreat : openings w < max limit (openings w + 1) := by omega
  have haccepts : ((Grammar.enter 0).run documentStore (max limit (openings w + 1))).Accepts w v
      (trim []) :=
    completes_of_derives hw _ w [] hgreat (by rw [List.append_nil]) fun c rest hc => by cases hc
  rcases Grammar.accepts_or_stops (Nat.le_max_left _ _) haccepts with haccepts | hdeep
  · have hrun : documentStore.enter limit 0 (.before w w) =
        .done (.success v (.before w [])) := haccepts.run w List.suffix_rfl
    exact ⟨v, by rw [run_value, hrun, ← before_nil]; rfl⟩
  · -- If the text alone were too deep, it would be with something behind it too.
    have hdescends := (stops_tooDeep_iff List.suffix_rfl).mp (hdeep w List.suffix_rfl)
    have hstops := (stops_tooDeep_iff List.suffix_rfl).mpr (hdescends.append y)
    rw [Parser.Stops, h] at hstops
    cases hstops

end Taken

/-! The reports. -/

section Reports

variable {limit : Nat} {t : Text} {traced : Bool} {position : Int} {why : Text}

/-- A report is about the first entry, if that one is too deep or fails, and otherwise about what
the entry has left. -/
private theorem entry_of_malformed
    (h : (readWithin limit t traced).ending = .error (.malformed position why)) :
    position = 0 ∧ why = Text.ofString "nesting too deep" ∨
    (position = (t.takeWhile Code.isSpace).length ∧ why = Text.ofString "plit('null')" ∧
      (documentStore.enter limit 0 (.before t t)).Fails) ∨
    ∃ v w c y, t = w ++ c :: y ∧ c.isSpace = false ∧ position = w.length ∧
      why = Text.ofString "peof" ∧
      (documentStore.enter limit 0 (.before t t)).ending = .ok (.success v (.before t (c :: y))) := by
  have hdocument : documentGrammar.run documentStore limit ⟨.text t, 0, false⟩ =
      (documentStore.enter limit 0 (.before t t)).onSuccess fun v mid =>
        (Parser.eof mid).onSuccess fun _ rest => .done (.success v rest) :=
    (run_document limit t).trans (Parser.between_result _ _ _ _)
  rw [readWithin_untraced, readWithin, Reading.ofRun, hdocument, Run.ending_onSuccess] at h
  rcases hending : (documentStore.enter limit 0 (.before t t)).ending with
    f | ⟨v, mid⟩ | ⟨position', why'⟩
  · rw [hending] at h
    cases f <;> cases h
    exact Or.inl ⟨rfl, rfl⟩
  · obtain ⟨w, y, rfl, -, htrim, rfl⟩ := exists_of_ending List.suffix_rfl hending
    rw [hending] at h
    dsimp only at h
    rw [Parser.eof, Input.atEnd_before (List.suffix_append w y)] at h
    cases y with
    | nil => cases h
    | cons c y =>
      cases h
      refine Or.inr (Or.inr ⟨v, w, c, y, rfl, isSpace_of_trim htrim, ?_, rfl, rfl⟩)
      simp [Input.before]
  · obtain ⟨rfl, rfl⟩ := ensures_enter limit List.suffix_rfl _ hending
    rw [hending] at h
    cases h
    refine Or.inr (Or.inl ⟨?_, rfl, _, _, hending⟩)
    have hcut : (t.takeWhile Code.isSpace).length + (trim t).length = t.length := by
      rw [← List.length_append, trim, List.takeWhile_append_dropWhile]
    omega

/-- The report of a malformed text is one of three: that it is nested too deep, that no value begins
it, at the end of the white space in front, or that something follows the value that does begin it.
If it is not too deep, the second one is given exactly if no text that begins it is a value, and not
if the defect lies inside a value. -/
theorem malformed_reports
    (h : (readWithin limit t traced).ending = .error (.malformed position why)) :
    ((position, why) = (0, Text.ofString "nesting too deep") ∨
      (position, why) = (((t.takeWhile Code.isSpace).length : Int), Text.ofString "plit('null')") ∨
      ∃ w c y, t = w ++ c :: y ∧ c.isSpace = false ∧ TakenAsValue limit w ∧
        (position, why) = ((w.length : Int), Text.ofString "peof")) ∧
    ((position, why) = (((t.takeWhile Code.isSpace).length : Int), Text.ofString "plit('null')") ↔
      (position, why) ≠ (0, Text.ofString "nesting too deep") ∧
        ∀ w, w <+: t → ¬TakenAsValue limit w) := by
  have hdeep : Text.ofString "nesting too deep" ≠ Text.ofString "plit('null')" := by decide
  have htrailing : Text.ofString "peof" ≠ Text.ofString "plit('null')" := by decide
  rcases entry_of_malformed h with
    ⟨rfl, rfl⟩ | ⟨rfl, rfl, hfails⟩ | ⟨v, w, c, y, rfl, hc, rfl, rfl, hending⟩
  · refine ⟨Or.inl rfl, fun hreport => ?_, fun hreport => absurd rfl hreport.1⟩
    exact absurd (Prod.mk.inj hreport).2 hdeep
  · refine ⟨Or.inr (Or.inl rfl), fun _ => ⟨fun hreport => ?_, fun w hw => ?_⟩, fun _ => rfl⟩
    · exact hdeep (Prod.mk.inj hreport).2.symm
    · exact not_takenAsValue_of_fails hfails hw limit
  · have htaken : TakenAsValue limit w := takenAsValue_of_ending hending
    refine ⟨Or.inr (Or.inr ⟨w, c, y, rfl, hc, htaken, rfl⟩), fun hreport => ?_, fun hreport => ?_⟩
    · exact absurd (Prod.mk.inj hreport).2 htrailing
    · exact absurd htaken (hreport.2 w (List.prefix_append w _))

/-- A part of a word is reported behind the white space in front of it, and none of the texts that
begin it is a value. -/
theorem malformed_report_of_nul :
    (readWithin 1 (Text.ofString " nul") true).ending =
        .error (.malformed 1 (Text.ofString "plit('null')")) ∧
      ∀ w, w <+: Text.ofString " nul" → ¬TakenAsValue 1 w := by
  have h : (readWithin 1 (Text.ofString " nul") true).ending =
      .error (.malformed 1 (Text.ofString "plit('null')")) := rfl
  exact ⟨h, ((malformed_reports h).2.mp rfl).2⟩

/-! Brackets that open and are never closed. -/

private theorem IsMark.mem {mark : Char} {m : Text} (hm : IsMark mark m) : Code.ofChar mark ∈ m := by
  obtain ⟨a, b, -, -, rfl⟩ := hm
  exact List.mem_append_right _ List.mem_cons_self

/-- A value is more than brackets that open. -/
private theorem exists_mem_ne_bracket {w : Text} {v : Value} (h : Derives FitsLimit .value w v) :
    ∃ c ∈ w, c ≠ Code.ofChar '[' := by
  have hbare : ∀ w v, Derives FitsLimit .bare w v → ∃ c ∈ w, c ≠ Code.ofChar '[' := by
    intro w v h
    have hnumber : ∀ minus whole u : Text, IsWhole whole →
        ∃ c ∈ minus ++ (whole ++ u), c ≠ Code.ofChar '[' := by
      intro minus whole u hwhole
      obtain ⟨c, rest, rfl, -, hhigh⟩ := hwhole.exists_cons
      refine ⟨c, by simp, ?_⟩
      rintro rfl
      exact absurd hhigh (by decide)
    cases h with
    | null => exact ⟨Code.ofChar 'n', by decide, by decide⟩
    | true => exact ⟨Code.ofChar 't', by decide, by decide⟩
    | false => exact ⟨Code.ofChar 'f', by decide, by decide⟩
    | integer _ hwhole _ => simpa using hnumber _ _ [] hwhole
    | float _ hwhole _ _ _ _ => exact hnumber _ _ _ hwhole
    | string _ => exact ⟨quote, List.mem_cons_self, by decide⟩
    | emptyArray _ hc => exact ⟨_, List.mem_append_right _ hc.mem, by decide⟩
    | emptyObject _ hc => exact ⟨_, List.mem_append_right _ hc.mem, by decide⟩
    | array _ _ hc =>
      exact ⟨_, List.mem_append_right _ (List.mem_append_right _ hc.mem), by decide⟩
    | object _ _ hc =>
      exact ⟨_, List.mem_append_right _ (List.mem_append_right _ hc.mem), by decide⟩
  cases h with
  | value _ ht _ =>
    obtain ⟨c, hc, hne⟩ := hbare _ _ ht
    exact ⟨c, List.mem_append_right _ (List.mem_append_left _ hc), hne⟩

/-- Two thousand brackets are reported as nested too deep, although no text that begins them is a
value either. -/
theorem malformed_report_of_brackets :
    (read (List.replicate 2000 (Code.ofChar '[')) false).ending =
        .error (.malformed 0 (Text.ofString "nesting too deep")) ∧
      (∀ w, w <+: List.replicate 2000 (Code.ofChar '[') → ¬TakenAsValue entryLimit w) ∧
      ((0 : Int), Text.ofString "nesting too deep") ≠
        ((((List.replicate 2000 (Code.ofChar '[')).takeWhile Code.isSpace).length : Int),
          Text.ofString "plit('null')") := by
  refine ⟨?_, fun w hw htaken => ?_, fun hreport => ?_⟩
  · have hsplit : List.replicate 2000 (Code.ofChar '[') =
        List.replicate entryLimit (Code.ofChar '[') ++ List.replicate 1500 (Code.ofChar '[') := by
      rw [← List.replicate_add]
      rfl
    rw [hsplit]
    exact ending_of_stops (stops_tooDeep entryLimit _ List.suffix_rfl rfl) false
  · obtain ⟨v, hv⟩ := derives_of_takenAsValue htaken
    obtain ⟨c, hc, hne⟩ := exists_mem_ne_bracket hv
    exact hne (List.eq_of_mem_replicate (hw.subset hc))
  · exact absurd (Prod.mk.inj hreport).2 (by decide)

end Reports

end Descent.Json
