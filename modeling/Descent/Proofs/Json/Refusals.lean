import Descent.Json.Command
import Descent.Proofs.Json.Places
import Descent.Proofs.Json.Standard
import Descent.Proofs.Parser.Laws

/-!
Why texts are not read.  There are four reasons: no value begins the text, something follows the
value, the entries are used up, or an integer has too many digits.  The last one is a fault and the
others are reported as malformed texts.
-/

set_option autoImplicit false
set_option relaxedAutoImplicit false

namespace Descent.Json

open Descent.Parser (ReadsOnly Reads)

/-- What a refusal says of a text. -/
inductive Refused (limit : Nat) (t : Text) : Refusal → Prop where
  | noValue : Refused limit t
    (.malformed ((t.length : Int) - (trim t).length) (Text.ofString "plit('null')"))
  | trailing {w y : Text} {v : Value} : t = w ++ y → y ≠ [] → Derives FitsLimit .value w v →
    Refused limit t (.malformed w.length (Text.ofString "peof"))
  | tooDeep : limit ≤ openings t →
    Refused limit t (.malformed 0 (Text.ofString "nesting too deep"))
  | longInteger {n : Nat} : HoldsLongInteger t n → Refused limit t (.fault (.tooManyDigits n))

/-! What the failures of the grammar say. -/

/-- A failure is at one place and gives one explanation.  Nothing is said of a success. -/
def FailsOnly (position : Int) (why : Text) : Outcome → Prop
  | .success _ _ => True
  | .failure position' why' => position' = position ∧ why' = why

private theorem ensures_tryEach {position : Int} {why : Text} {front : List Parser} {q : Parser}
    {i : Input} (hq : (q i).Ensures (FailsOnly position why)) (o : Outcome) :
    (Parser.tryEach i o (front ++ [q])).Ensures (FailsOnly position why) := by
  -- Whatever the alternatives in front say, the failure is that of the last one.
  induction front generalizing o with
  | nil =>
    refine hq.andThen fun o ho => ?_
    cases o with
    | success v after => exact .done ho
    | failure position why => exact .done ho
  | cons p front ih =>
    refine (Run.Ensures.true (p i)).andThen fun o _ => ?_
    cases o with
    | success v after => exact .done trivial
    | failure position why => exact ih _

section

variable {onEnter : CellId → Parser} {whole x : Text}

private theorem ensures_null : (null.parser onEnter (.before whole x)).Ensures
    (FailsOnly ((whole.length : Int) - x.length) (Text.ofString "plit('null')")) := by
  have hword : ((word "null").parser onEnter (.before whole x)).Ensures
      (FailsOnly ((whole.length : Int) - x.length) (Text.ofString "plit('null')")) := by
    show (Parser.lit _ _).Ensures _
    unfold Parser.lit
    split
    · exact .done trivial
    · exact .done ⟨rfl, by decide⟩
  refine hword.onSuccess (fun _ _ h => h) fun v rest _ => ?_
  exact .done trivial

private theorem ensures_alternatives {cell : CellId} :
    (alternatives onEnter cell (.before whole x)).Ensures
      (FailsOnly ((whole.length : Int) - x.length) (Text.ofString "plit('null')")) := by
  refine (Run.Ensures.true _).andThen fun o _ => ?_
  cases o with
  | success v after => exact .done trivial
  | failure position why =>
    exact @ensures_tryEach _ _ [_, _, _, _] _ _ ensures_null (.failure position why)

end

/-- Behind the white space in front an entry runs the alternatives. -/
theorem enter_succ_eq (limit : Nat) {whole x : Text} (hx : x <:+ whole) :
    documentStore.enter (limit + 1) 0 (.before whole x) =
      (alternatives (documentStore.enter limit) 0 (.before whole (trim x))).onSuccess fun v after =>
        (Grammar.spaces.parser (documentStore.enter limit) after).onSuccess fun _ rest =>
          .done (.success v rest) := by
  show (valueRule 0).parser _ _ = _
  rw [parser_valueRule, Parser.between_eq, (accepts_spaces x).run whole hx, Run.done_onSuccess]

/-- An entry fails only where its white space ends, and says so by the last alternative. -/
theorem ensures_enter (limit : Nat) {whole x : Text} (hx : x <:+ whole) :
    (documentStore.enter limit 0 (.before whole x)).Ensures
      (FailsOnly ((whole.length : Int) - (trim x).length) (Text.ofString "plit('null')")) := by
  cases limit with
  | zero => exact .stop _
  | succ limit =>
    have hx' : trim x <:+ whole := (trim_suffix x).trans hx
    rw [enter_succ_eq limit hx]
    have hreads := readsOnly_alternatives (readsOnly_enter limit) whole (trim x) hx'
    have hboth := Run.Ensures.and hreads ensures_alternatives
    refine hboth.onSuccess (fun _ _ h => h.2) fun v rest h => ?_
    obtain ⟨w, y, hxy, rfl, -⟩ := h.1
    have hy : y <:+ whole := (List.suffix_append w y).trans (hxy ▸ hx')
    rw [(accepts_spaces y).run whole hy, Run.done_onSuccess]
    exact .done trivial

/-- What the document grammar says of a text that it does not take. -/
theorem ensures_document (limit : Nat) (t : Text) :
    (documentGrammar.run documentStore limit ⟨.text t, 0, false⟩).Ensures fun
      | .success _ _ => True
      | .failure position why => Refused limit t (.malformed position why) := by
  rw [run_document, Parser.between_result]
  have hreads := readsOnly_enter limit t t List.suffix_rfl
  have hboth := Run.Ensures.and hreads (ensures_enter limit List.suffix_rfl)
  refine hboth.onSuccess ?_ fun v mid h => ?_
  · rintro position why ⟨-, rfl, rfl⟩
    exact .noValue
  · obtain ⟨w, y, ht, rfl, hw⟩ := h.1
    have hy : y <:+ t := ⟨w, ht.symm⟩
    rw [Parser.eof, Input.atEnd_before hy]
    split
    · exact .done trivial
    · next hend =>
      have hne : y ≠ [] := fun hnil => hend (List.isEmpty_iff.mpr hnil)
      have hposition : (Input.before t y).position = (w.length : Int) := by
        simp only [Input.before, ht, List.length_append]
        omega
      refine .done ?_
      rw [hposition]
      exact .trailing ht hne hw

theorem stopsOnly_document (limit : Nat) (t : Text) :
    (documentGrammar.run documentStore limit ⟨.text t, 0, false⟩).StopsOnly fun f =>
      f = .tooDeep ∧ limit ≤ openings t ∨ ∃ n, f = .tooManyDigits n ∧ HoldsLongInteger t n := by
  have hnone : (Parser.result .null).ReadsOnly fun w _ => w = [] := ReadsOnly.result .null rfl
  rw [run_document]
  refine Parser.stopsOnly_between List.suffix_rfl (Parser.stopsOnly_result _ _) hnone ?_
    (readsOnly_enter limit) fun y _ => Parser.stopsOnly_eof _
  rintro a o y ht rfl
  obtain rfl : t = y := ht
  exact stopsOnly_enter limit List.suffix_rfl

/-- Every text that is not read is refused for one of the four reasons. -/
theorem refused_of_readWithin {limit : Nat} {t : Text} {traced : Bool} {e : Refusal}
    (h : (readWithin limit t traced).ending = .error e) : Refused limit t e := by
  -- A run stops or has an outcome; what is known of either case names the reason.
  rw [readWithin_untraced, readWithin] at h
  have hstops := stopsOnly_document limit t
  have hfails := ensures_document limit t
  revert h hstops hfails
  generalize documentGrammar.run documentStore limit ⟨.text t, 0, false⟩ = r
  intro h hstops hfails
  rcases r with ⟨f | ⟨v, rest⟩ | ⟨position, why⟩, trace⟩
  · rcases hstops f rfl with ⟨rfl, hlimit⟩ | ⟨n, rfl, hn⟩
    · cases h
      exact .tooDeep hlimit
    · cases h
      exact .longInteger hn
  · cases h
  · cases h
    exact hfails _ rfl

/-- A reading ends as its first entry does, if that one stops. -/
theorem ending_of_stops {limit : Nat} {t : Text} {f : Fault}
    (h : (documentStore.enter limit 0).Stops t t f) (traced : Bool) :
    (readWithin limit t traced).ending = (Reading.ofRun (Run.stop f)).ending := by
  have hstops : (documentGrammar.run documentStore limit).Stops t t f :=
    h.between_of_accepts List.suffix_rfl (Parser.Accepts.result .null t) _
  rw [Parser.Stops, Input.before_self] at hstops
  rw [readWithin_untraced, readWithin]
  simp only [Reading.ofRun, hstops, Run.stop]

/-- A text that has a long integer in it is refused for that, if enough entries are allowed. -/
theorem ending_of_holdsLongInteger {limit n : Nat} {t : Text} (hlimit : openings t < limit)
    (traced : Bool) (h : HoldsLongInteger t n) :
    (readWithin limit t traced).ending = .error (.fault (.tooManyDigits n)) :=
  ending_of_stops (stops_of_holdsLongInteger h hlimit List.suffix_rfl rfl) traced

/-- A reading gives a value, reports a malformed text, or stops with a fault; and the only fault is
that of an integer with too many digits, which the text has then at a place where a value begins. -/
theorem fault_only_for_long_integer (limit : Nat) (t : Text) (traced : Bool) :
    match (readWithin limit t traced).ending with
    | .ok _ => True
    | .error (.malformed _ _) => True
    | .error (.fault f) => ∃ n, f = .tooManyDigits n ∧ HoldsLongInteger t n := by
  split
  · trivial
  · trivial
  · next f hending =>
    cases refused_of_readWithin hending with
    | longInteger hn => exact ⟨_, rfl, hn⟩

private theorem ending_reportTextWithin {limit : Nat} {t : Text} {traced : Bool} {position : Int}
    {why : Text} (h : (readWithin limit t traced).ending = .error (.malformed position why)) :
    (reportTextWithin limit t traced).ending = .status 1 := by
  unfold reportTextWithin
  generalize readWithin limit t traced = r at h ⊢
  rcases r with ⟨ending, trace⟩
  obtain rfl : ending = .error (.malformed position why) := h
  rfl

/-- A text that is no document, however many digits its integers may have, is reported as malformed
if no integer in it is too long, and the command ends with status one, under every limit.  But with
enough entries allowed a long integer comes first, whatever is wrong behind it. -/
theorem refusal_of_not_document {t : Text} (h : ∀ v, ¬IsDocument (fun _ => True) t v)
    (traced : Bool) :
    ((∀ n, ¬HoldsLongInteger t n) →
      (∀ limit, ∃ position why,
        (readWithin limit t traced).ending = .error (.malformed position why)) ∧
      ∀ limit arguments bytesOf a, Reception.ofArguments arguments = .go a →
        (bytesOf a.source).bind textOfBytes = .ok t →
        (runCommandWithin limit arguments bytesOf).ending = .status 1) ∧
    ∀ limit n, openings t < limit → HoldsLongInteger t n →
      (readWithin limit t traced).ending = .error (.fault (.tooManyDigits n)) := by
  have hmalformed : (∀ n, ¬HoldsLongInteger t n) → ∀ limit traced, ∃ position why,
      (readWithin limit t traced).ending = .error (.malformed position why) := by
    intro hshort limit traced
    cases hending : (readWithin limit t traced).ending with
    | ok v => exact absurd ((isDocument_of_readWithin hending).mono fun _ _ => trivial) (h v)
    | error e =>
      cases refused_of_readWithin hending with
      | noValue => exact ⟨_, _, rfl⟩
      | trailing _ _ _ => exact ⟨_, _, rfl⟩
      | tooDeep _ => exact ⟨_, _, rfl⟩
      | longInteger hn => exact absurd hn (hshort _)
  refine ⟨fun hshort => ⟨fun limit => hmalformed hshort limit traced, ?_⟩, ?_⟩
  -- The command reads with the trace setting of its own.
  · intro limit arguments bytesOf a harguments hsource
    obtain ⟨position, why, hending⟩ := hmalformed hshort limit a.traced
    rw [runCommandWithin, harguments]
    simp only [hsource]
    exact ending_reportTextWithin hending
  · intro limit n hlimit hn
    exact ending_of_holdsLongInteger hlimit traced hn

/-- A text with a code point outside of its string literals that is no part of any literal or mark
is no document. -/
theorem not_isDocument_of_mem {fits : Text → Prop} {t : Text} {c : Code}
    (hc : c ∈ outsideStrings t) (htoken : ¬IsToken c) (v : Value) : ¬IsDocument fits t v :=
  fun h => htoken ((closed_of_derives h).outside c hc)

theorem HoldsLongInteger.length_le {t : Text} {n : Nat} (h : HoldsLongInteger t n) :
    Numeral.digitLimit < n ∧ n ≤ t.length := by
  induction h with
  | here _ ht =>
    obtain ⟨minus, whole, -, -, hmatch, rfl, hlong⟩ := ht
    obtain ⟨rest, rfl⟩ := Pattern.eq_append_of_matched? hmatch
    simp only [List.length_append]
    omega
  | inside _ _ ih =>
    simp only [List.length_append]
    omega

/-- A letter is no document and is reported. -/
theorem refusal_of_letter :
    (∀ v, ¬IsDocument (fun _ => True) (Text.ofString "x") v) ∧
      (∃ position why, (readWithin 1 (Text.ofString "x") true).ending =
        .error (.malformed position why)) ∧
      (runCommand [] fun _ => .ok [0x78]).ending = .status 1 := by
  have hx : ¬IsToken (Code.ofChar 'x') := by
    unfold IsToken
    decide
  have hnot : ∀ v, ¬IsDocument (fun _ => True) (Text.ofString "x") v :=
    not_isDocument_of_mem (by decide) hx
  have hshort : ∀ n, ¬HoldsLongInteger (Text.ofString "x") n := by
    intro n hn
    obtain ⟨hlong, hle⟩ := hn.length_le
    have hone : (Text.ofString "x").length = 1 := rfl
    rw [Numeral.digitLimit] at hlong
    omega
  obtain ⟨hmalformed, hcommand⟩ := (refusal_of_not_document hnot true).1 hshort
  exact ⟨hnot, hmalformed 1, hcommand entryLimit [] _ ⟨none, false⟩ rfl rfl⟩

private theorem holdsLongInteger_replicate {n : Nat} {rest : Text}
    (hlong : Numeral.digitLimit < n + 1) (hrest : EndsNumber rest) :
    HoldsLongInteger (List.replicate (n + 1) (Code.ofChar '1') ++ rest) (n + 1) := by
  have hwhole : IsWhole (List.replicate (n + 1) (Code.ofChar '1')) := by
    rw [List.replicate_succ]
    refine .digits (by decide) (by decide) fun d hd => ?_
    rw [List.eq_of_mem_replicate hd]
    decide
  have hnumber : IsNumber (List.replicate (n + 1) (Code.ofChar '1')) := by
    simpa using IsNumber.mk (Or.inl rfl) hwhole .none .none
  have hmatch : numberPattern.matched? (List.replicate (n + 1) (Code.ofChar '1') ++ rest) =
      some ([] ++ List.replicate (n + 1) (Code.ofChar '1')) := by
    rw [matched?_numberPattern, List.nil_append]
    exact scanNumber_append hnumber hrest
  exact @HoldsLongInteger.here [] _ _ isSpaces_nil
    ⟨[], _, Or.inl rfl, hwhole, hmatch, List.length_replicate, hlong⟩

/-- A long integer with a letter behind it is no document, and yet stops the reading with a fault. -/
theorem read_long_integer_and_letter :
    (∀ v, ¬IsDocument (fun _ => True)
      (List.replicate 4301 (Code.ofChar '1') ++ Text.ofString "x") v) ∧
    (read (List.replicate 4301 (Code.ofChar '1') ++ Text.ofString "x") false).ending =
      .error (.fault (.tooManyDigits 4301)) := by
  have hx : ¬IsToken (Code.ofChar 'x') := by
    unfold IsToken
    decide
  have hplain : ∀ c ∈ List.replicate 4301 (Code.ofChar '1') ++ Text.ofString "x", c ≠ quote := by
    intro c hc
    rcases List.mem_append.mp hc with hc | hc
    · rw [List.eq_of_mem_replicate hc]
      decide
    · obtain rfl := List.mem_singleton.mp hc
      decide
  have hends : EndsNumber (Text.ofString "x") := by
    intro c rest hc
    obtain rfl := (List.cons.inj hc).1
    decide
  have hopenings :
      openings (List.replicate 4301 (Code.ofChar '1') ++ Text.ofString "x") < entryLimit := by
    have hdigits : openings (List.replicate 4301 (Code.ofChar '1')) = 0 := by
      refine List.countP_eq_zero.mpr fun c hc => ?_
      rw [List.eq_of_mem_replicate hc]
      decide
    rw [openings_append, hdigits]
    decide
  constructor
  · refine not_isDocument_of_mem ?_ hx
    rw [outsideStrings_of_plain hplain]
    exact List.mem_append_right _ (by decide)
  · exact ending_of_holdsLongInteger hopenings false (holdsLongInteger_replicate (by decide) hends)

end Descent.Json
