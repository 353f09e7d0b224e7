import Descent.Json.Reader
import Descent.Proofs.Json.Derivation
import Descent.Proofs.Json.Escapes
import Descent.Proofs.Parser.OnText

/-!
What the grammar of JSON reads is derived.  The cell of values is entered a bounded number of times
inside itself, and the induction is on that bound.
-/

set_option autoImplicit false
set_option relaxedAutoImplicit false

namespace Descent.Json

open Descent.Parser (ReadsOnly)

/-- The alternatives of a value. -/
def alternatives (onEnter : CellId → Parser) (cell : CellId) : Parser :=
  Parser.choice (((object cell).labelled (Text.ofString "object")).parser onEnter)
    [((array cell).labelled (Text.ofString "array")).parser onEnter,
      (string.labelled (Text.ofString "string")).parser onEnter,
      (number.labelled (Text.ofString "number")).parser onEnter,
      (bool.labelled (Text.ofString "bool")).parser onEnter,
      (null.labelled (Text.ofString "null")).parser onEnter]

theorem parser_valueRule (onEnter : CellId → Parser) (cell : CellId) :
    (valueRule cell).parser onEnter =
      Parser.between (Grammar.spaces.parser onEnter) (alternatives onEnter cell)
        (Grammar.spaces.parser onEnter) := rfl

theorem ofString_mark (mark : Char) : Text.ofString mark.toString = [Code.ofChar mark] := by
  simp [Text.ofString]

/-- The parser of a mark with white space around it. -/
def markParser (onEnter : CellId → Parser) (mark : Char) : Parser :=
  (spacedWord mark.toString).parser onEnter

/-- The values of an array, or none. -/
def itemsParser (onEnter : CellId → Parser) (cell : CellId) : Parser :=
  Parser.orElse (Parser.sepBy1 (onEnter cell) (markParser onEnter ',')) (.list [])

/-- The members of an object, or none. -/
def membersParser (onEnter : CellId → Parser) (cell : CellId) : Parser :=
  Parser.orElse (Parser.sepBy1 ((member cell).parser onEnter) (markParser onEnter ',')) (.list [])

/-- The name of a member and the colon. -/
def keyParser (onEnter : CellId → Parser) : Parser :=
  Parser.between (Parser.result .null)
    (Parser.right (Grammar.spaces.parser onEnter) (string.parser onEnter)) (markParser onEnter ':')

theorem parser_array (onEnter : CellId → Parser) (cell : CellId) :
    (array cell).parser onEnter =
      Parser.between (markParser onEnter '[') (itemsParser onEnter cell) (markParser onEnter ']') :=
  rfl

theorem parser_object (onEnter : CellId → Parser) (cell : CellId) :
    (object cell).parser onEnter =
      Parser.transform (Parser.between (markParser onEnter '\x7b') (membersParser onEnter cell)
        (markParser onEnter '\x7d')) Value.toDict :=
  rfl

theorem parser_member (onEnter : CellId → Parser) (cell : CellId) :
    (member cell).parser onEnter = Parser.seq (keyParser onEnter) (onEnter cell) :=
  rfl

variable {onEnter : CellId → Parser}

theorem readsOnly_spaces : (Grammar.spaces.parser onEnter).ReadsOnly fun w _ => IsSpaces w := by
  refine ReadsOnly.cause (ReadsOnly.pattern fun t w h => ?_) _
  rw [(Pattern.Scans.run Code.isSpace).matched?_eq] at h
  obtain rfl := Option.some.inj h
  exact fun c hc => List.mem_takeWhile_imp hc

/-- The text of a word is read as it is. -/
theorem readsOnly_word (s : String) :
    ((word s).parser onEnter).ReadsOnly fun w _ => w = Text.ofString s :=
  ReadsOnly.lit rfl

theorem readsOnly_mark (mark : Char) :
    (markParser onEnter mark).ReadsOnly fun w _ => IsMark mark w := by
  have hword : ((word mark.toString).parser onEnter).ReadsOnly fun w _ => w = [Code.ofChar mark] :=
    ReadsOnly.lit (ofString_mark mark)
  have hright : ((Grammar.right .spaces (word mark.toString)).parser onEnter).ReadsOnly fun w _ =>
      ∃ a, IsSpaces a ∧ w = a ++ [Code.ofChar mark] :=
    ReadsOnly.right readsOnly_spaces hword fun w v w' v' hw hw' => ⟨w, hw, by rw [hw']⟩
  have hnone : (Parser.result .null).ReadsOnly fun w _ => w = [] := ReadsOnly.result .null rfl
  refine ReadsOnly.between hnone hright readsOnly_spaces ?_
  rintro a o w v b c rfl ⟨s, hs, rfl⟩ hb
  exact ⟨s, b, hs, hb, by simp⟩

theorem readsOnly_string : (string.parser onEnter).ReadsOnly fun w v =>
    ∃ body decoded, StringBody body decoded ∧ w = quote :: (body ++ [quote]) ∧
      v = .str decoded.joinPairs := by
  refine ReadsOnly.transform (L := fun w v => v = .str w ∧
    ∃ body decoded, StringBody body decoded ∧ w = quote :: (body ++ [quote])) ?_ ?_
  · refine ReadsOnly.cause (ReadsOnly.pattern fun t w h => ⟨rfl, ?_⟩) _
    obtain ⟨body, decoded, u, hbody, hw, -⟩ := matched?_stringPattern.mp h
    exact ⟨body, decoded, hbody, hw⟩
  · rintro w v v' ⟨rfl, body, decoded, hbody, rfl⟩ hv'
    refine ⟨body, decoded, hbody, rfl, ?_⟩
    simp only [Value.onText, unescape_literal hbody] at hv'
    rw [← Text.joinSurrogates_eq_joinPairs]
    exact (Except.ok.inj hv').symm

theorem readsOnly_key : (keyParser onEnter).ReadsOnly fun w v =>
    ∃ name, IsKey w name ∧ v = .str name := by
  have hstring : (Parser.right (Grammar.spaces.parser onEnter)
      (string.parser onEnter)).ReadsOnly fun w v =>
        ∃ a body decoded, IsSpaces a ∧ StringBody body decoded ∧
          w = a ++ quote :: (body ++ [quote]) ∧ v = .str decoded.joinPairs := by
    refine ReadsOnly.right readsOnly_spaces readsOnly_string ?_
    rintro a v w v' ha ⟨body, decoded, hbody, rfl, rfl⟩
    exact ⟨a, body, decoded, ha, hbody, rfl, rfl⟩
  have hnone : (Parser.result .null).ReadsOnly fun w _ => w = [] := ReadsOnly.result .null rfl
  refine ReadsOnly.between hnone hstring (readsOnly_mark ':') ?_
  rintro w₀ o w v m c rfl ⟨a, body, decoded, ha, hbody, rfl, rfl⟩ hm
  exact ⟨_, ⟨a, body, decoded, m, ha, hbody, hm, by simp, rfl⟩, rfl⟩

private theorem toNumber_sound {w : Text} {v : Value} (hw : IsNumber w) (hv : toNumber w = .ok v) :
    Derives FitsLimit .bare w v := by
  obtain ⟨hminus, hwhole, hfraction, hexponent⟩ := hw
  rename_i minus whole fraction exponent
  by_cases hsome : fraction ≠ [] ∨ exponent ≠ []
  · rw [toNumber_float hfraction hexponent hsome, Text.toFloat] at hv
    split at hv
    · next x hx =>
      obtain rfl := (Except.ok.inj hv).symm
      exact .float hminus hwhole hfraction hexponent hsome hx
    · cases hv
  · obtain ⟨rfl, rfl⟩ : fraction = [] ∧ exponent = [] := by
      simpa [not_or] using hsome
    simp only [List.append_nil] at hv ⊢
    rw [toNumber_integer hminus hwhole] at hv
    split at hv
    · cases hv
    · next hfits =>
      obtain rfl := (Except.ok.inj hv).symm
      exact .integer hminus hwhole (Nat.not_lt.mp hfits)

theorem readsOnly_number : (number.parser onEnter).ReadsOnly (Derives FitsLimit .bare) := by
  refine ReadsOnly.transform (L := fun w v => v = .str w ∧ IsNumber w) ?_ ?_
  · refine ReadsOnly.cause (ReadsOnly.pattern fun t w h => ⟨rfl, ?_⟩) _
    rw [matched?_numberPattern] at h
    exact isNumber_of_scanNumber h
  · rintro w v v' ⟨rfl, hw⟩ hv'
    exact toNumber_sound hw hv'

/-- The grammar of a fixed text with a fixed result. -/
private theorem readsOnly_replace {s : String} {v : Value}
    (h : Derives FitsLimit .bare (Text.ofString s) v) :
    (((word s).replace v).parser onEnter).ReadsOnly (Derives FitsLimit .bare) := by
  refine ReadsOnly.transform (readsOnly_word s) ?_
  rintro w v₀ v' rfl hv'
  obtain rfl := Except.ok.inj hv'
  exact h

variable {fits : Text → Prop}

private theorem items_of_separated {w : Text} {vs : List Value}
    (h : Parser.Separated (Derives fits .value) (fun w _ => IsMark ',' w) w vs) :
    Derives fits .items w vs := by
  induction h with
  | one hw => exact .item hw
  | more hw hm _ ih => exact .items hw hm ih

private theorem members_of_separated {w : Text} {vs : List Value}
    (h : Parser.Separated (fun w v => ∃ e, Derives fits .member w e ∧ v = Value.pair (.str e.1) e.2)
      (fun w _ => IsMark ',' w) w vs) :
    ∃ es, Derives fits .members w es ∧ vs = es.map fun e => Value.pair (.str e.1) e.2 := by
  induction h with
  | one hw =>
    obtain ⟨e, he, rfl⟩ := hw
    exact ⟨[e], .lastMember he, rfl⟩
  | more hw hm _ ih =>
    obtain ⟨e, he, rfl⟩ := hw
    obtain ⟨es, hes, rfl⟩ := ih
    exact ⟨e :: es, .members he hm hes, rfl⟩

section Cell

variable {cell : CellId} (hcell : (onEnter cell).ReadsOnly (Derives fits .value))

include hcell

theorem readsOnly_items :
    (itemsParser onEnter cell).ReadsOnly fun w v =>
      ∃ vs, v = .list vs ∧ (vs = [] ∧ w = [] ∨ Derives fits .items w vs) := by
  refine ReadsOnly.orElse (ReadsOnly.sepBy1 hcell (readsOnly_mark ',') fun w vs h => ?_) ?_
  · exact ⟨vs, rfl, Or.inr (items_of_separated h)⟩
  · exact ⟨[], rfl, Or.inl ⟨rfl, rfl⟩⟩

theorem readsOnly_array : ((array cell).parser onEnter).ReadsOnly (Derives fits .bare) := by
  rw [parser_array]
  refine ReadsOnly.between (readsOnly_mark '[') (readsOnly_items hcell) (readsOnly_mark ']') ?_
  rintro a o w v b c ha ⟨vs, rfl, hw⟩ hb
  rcases hw with ⟨rfl, rfl⟩ | hw
  · exact .emptyArray ha hb
  · exact .array ha hw hb

theorem readsOnly_member : ((member cell).parser onEnter).ReadsOnly fun w v =>
    ∃ e, Derives fits .member w e ∧ v = Value.pair (.str e.1) e.2 := by
  rw [parser_member]
  refine ReadsOnly.seq readsOnly_key hcell ?_
  rintro w v w' v' ⟨name, ⟨a, body, decoded, m, ha, hbody, hm, rfl, rfl⟩, rfl⟩ hv'
  refine ⟨(decoded.joinPairs, v'), ?_, rfl⟩
  have hderived := Derives.member ha hbody hm hv'
  simpa using hderived

theorem readsOnly_members :
    (membersParser onEnter cell).ReadsOnly fun w v =>
      ∃ es, v = .list (es.map fun e => Value.pair (.str e.1) e.2) ∧
        (es = [] ∧ w = [] ∨ Derives fits .members w es) := by
  refine ReadsOnly.orElse
    (ReadsOnly.sepBy1 (readsOnly_member hcell) (readsOnly_mark ',') fun w vs h => ?_) ?_
  · obtain ⟨es, hes, rfl⟩ := members_of_separated h
    exact ⟨es, rfl, Or.inr hes⟩
  · exact ⟨[], rfl, Or.inl ⟨rfl, rfl⟩⟩

theorem readsOnly_object : ((object cell).parser onEnter).ReadsOnly (Derives fits .bare) := by
  rw [parser_object]
  refine ReadsOnly.transform (L := fun w v =>
    ∃ es, v = .list (es.map fun e => Value.pair (.str e.1) e.2) ∧
      Derives fits .bare w (.dict ((Value.dictionary es).map Value.textEntry))) ?_ ?_
  · refine ReadsOnly.between (readsOnly_mark '\x7b') (readsOnly_members hcell)
      (readsOnly_mark '\x7d') ?_
    rintro a o w v b c ha ⟨es, rfl, hw⟩ hb
    refine ⟨es, rfl, ?_⟩
    rcases hw with ⟨rfl, rfl⟩ | hw
    · exact .emptyObject ha hb
    · exact .object ha hw hb
  · rintro w v v' ⟨es, rfl, hw⟩ hv'
    rw [Value.toDict_members] at hv'
    obtain rfl := Except.ok.inj hv'
    exact hw

end Cell

theorem readsOnly_alternatives {cell : CellId}
    (hcell : (onEnter cell).ReadsOnly (Derives FitsLimit .value)) :
    (alternatives onEnter cell).ReadsOnly (Derives FitsLimit .bare) := by
  have hstring : (string.parser onEnter).ReadsOnly (Derives FitsLimit .bare) := by
    refine readsOnly_string.mono ?_
    rintro w v ⟨body, decoded, hbody, rfl, rfl⟩
    exact .string hbody
  have hbool : (bool.parser onEnter).ReadsOnly (Derives FitsLimit .bare) := by
    refine ReadsOnly.choice (readsOnly_replace .true) fun q hq => ?_
    obtain rfl := List.mem_singleton.mp hq
    exact readsOnly_replace .false
  refine ReadsOnly.choice ((readsOnly_object hcell).labelled _) fun q hq => ?_
  simp only [List.mem_cons, List.not_mem_nil, or_false] at hq
  rcases hq with rfl | rfl | rfl | rfl | rfl
  · exact (readsOnly_array hcell).labelled _
  · exact hstring.labelled _
  · exact readsOnly_number.labelled _
  · exact hbool.labelled _
  · exact (readsOnly_replace .null).labelled _

/-- The rule of values reads only values if the cell that it enters does. -/
theorem readsOnly_valueRule {cell : CellId}
    (hcell : (onEnter cell).ReadsOnly (Derives FitsLimit .value)) :
    ((valueRule cell).parser onEnter).ReadsOnly (Derives FitsLimit .value) := by
  rw [parser_valueRule]
  exact ReadsOnly.between readsOnly_spaces (readsOnly_alternatives hcell) readsOnly_spaces
    fun a o w v b c ha hw hb => .value ha hw hb

/-- Whatever the bound on the entries, the cell of the document grammar reads only values. -/
theorem readsOnly_enter (limit : Nat) :
    (documentStore.enter limit 0).ReadsOnly (Derives FitsLimit .value) := by
  induction limit with
  | zero => exact ReadsOnly.fault _
  | succ limit ih => exact readsOnly_valueRule ih

/-- The run of the document grammar is that of the cell of values and then the end of the text. -/
theorem run_document (limit : Nat) (t : Text) :
    documentGrammar.run documentStore limit ⟨.text t, 0, false⟩ =
      Parser.between (Parser.result .null) (documentStore.enter limit 0) Parser.eof (.before t t) := by
  rw [← Input.before_self]
  rfl

/-- A text that the document grammar reads is a document and denotes the result. -/
theorem ensures_isDocument (limit : Nat) (t : Text) :
    (documentGrammar.run documentStore limit ⟨.text t, 0, false⟩).Ensures fun
      | .success v _ => IsDocument FitsLimit t v
      | .failure _ _ => True := by
  rw [run_document, Parser.between_result]
  refine (readsOnly_enter limit t t List.suffix_rfl).onSuccess (fun _ _ _ => trivial) fun v mid ho => ?_
  obtain ⟨w, y, ht, rfl, hw⟩ := ho
  have hy : y <:+ t := ⟨w, ht.symm⟩
  rw [Parser.eof, Input.atEnd_before hy]
  split
  · next hend =>
    obtain rfl := List.isEmpty_iff.mp hend
    refine .done ?_
    rw [ht, List.append_nil]
    exact hw
  · exact .done trivial

end Descent.Json
