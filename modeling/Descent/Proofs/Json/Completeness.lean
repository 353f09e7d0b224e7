import Mathlib.Data.List.DropRight
import Descent.Proofs.Json.Soundness

/-!
What is derived is read.  A derivation is followed from the text that it derives: what is left after
a part begins behind the white space that follows that part, so parts are compared after leaving out
the white space in front of them.  The alternatives that come before the right one fail at the first
code point and enter no cell.
-/

set_option autoImplicit false
set_option relaxedAutoImplicit false

namespace Descent.Json

open Descent.Parser (Accepts Rejects AcceptsList)

/-- A text without the white space in front. -/
def trim (t : Text) : Text :=
  t.dropWhile Code.isSpace

/-- The number of brackets and braces that open in a text. -/
def openings (t : Text) : Nat :=
  t.countP fun c => c == Code.ofChar '[' || c == Code.ofChar '\x7b'

/-- After white space nothing follows, or a mark that may follow a value. -/
def EndsValue (u : Text) : Prop :=
  ∀ c rest, trim u = c :: rest →
    c = Code.ofChar ',' ∨ c = Code.ofChar ']' ∨ c = Code.ofChar '\x7d'

/-- A code point is visible ASCII, so it is no white space. -/
def IsVisible (c : Code) : Prop :=
  0x21 ≤ c.val ∧ c.val ≤ 0x7E

theorem IsVisible.isSpace_eq_false {c : Code} (hc : IsVisible c) : c.isSpace = false :=
  Code.isSpace_eq_false hc.1 (by have := hc.2; omega)

instance (c : Code) : Decidable (IsVisible c) :=
  inferInstanceAs (Decidable (_ ∧ _))

@[simp] theorem trim_trim (t : Text) : trim (trim t) = trim t :=
  List.dropWhile_idempotent ..

theorem trim_suffix (t : Text) : trim t <:+ t :=
  List.dropWhile_suffix _

theorem trim_append {a : Text} (ha : IsSpaces a) (t : Text) : trim (a ++ t) = trim t :=
  List.dropWhile_append_of_pos ha

theorem trim_cons {c : Code} (hc : IsVisible c) (t : Text) : trim (c :: t) = c :: t :=
  List.dropWhile_cons_of_neg (by simp [hc.isSpace_eq_false])

theorem isSpace_of_trim {t y : Text} {c : Code} (h : trim t = c :: y) : c.isSpace = false := by
  have hhead := List.head?_dropWhile_not Code.isSpace t
  rwa [show t.dropWhile Code.isSpace = c :: y from h] at hhead

theorem openings_append (s t : Text) : openings (s ++ t) = openings s + openings t :=
  List.countP_append

/-- A mark is what follows the white space in front of it, and then its other white space. -/
theorem trim_mark {mark : Char} (hmark : IsVisible (Code.ofChar mark)) {m : Text}
    (hm : IsMark mark m) (u : Text) :
    ∃ y, trim (m ++ u) = Code.ofChar mark :: y ∧ trim y = trim u := by
  obtain ⟨a, b, ha, hb, rfl⟩ := hm
  refine ⟨b ++ u, ?_, trim_append hb u⟩
  rw [List.append_assoc, List.cons_append, trim_append ha, trim_cons hmark]

variable {onEnter : CellId → Parser} {x y u : Text}

theorem accepts_spaces (x : Text) :
    (Grammar.spaces.parser onEnter).Accepts x (.str (x.takeWhile Code.isSpace)) (trim x) := by
  have hcut : x.takeWhile Code.isSpace ++ trim x = x := List.takeWhile_append_dropWhile
  refine Accepts.cause ?_ _
  have hmatch : (Pattern.run Code.isSpace 0 none true).matched? (x.takeWhile Code.isSpace ++ trim x)
      = some (x.takeWhile Code.isSpace) := by
    rw [(Pattern.Scans.run Code.isSpace).matched?_eq, hcut]
  have haccepts : (Parser.pattern (Text.ofString "\\s*") (.run Code.isSpace 0 none true)).Accepts
      (x.takeWhile Code.isSpace ++ trim x) (.str (x.takeWhile Code.isSpace)) (trim x) :=
    Accepts.pattern hmatch
  rwa [hcut] at haccepts

theorem accepts_mark {mark : Char} (h : trim x = Code.ofChar mark :: y) :
    (markParser onEnter mark).Accepts x (.str [Code.ofChar mark]) (trim y) := by
  have hlit : ((word mark.toString).parser onEnter).Accepts (trim x) (.str [Code.ofChar mark]) y := by
    rw [h, word, ofString_mark]
    exact Accepts.lit _ _
  exact Accepts.between (Accepts.result .null x) ((accepts_spaces x).right hlit) (accepts_spaces y)

theorem rejects_mark {mark : Char} (h : ∀ y, trim x ≠ Code.ofChar mark :: y) :
    (markParser onEnter mark).Rejects x := by
  have hlit : ((word mark.toString).parser onEnter).Rejects (trim x) := by
    refine Rejects.lit fun hprefix => ?_
    rw [ofString_mark] at hprefix
    obtain ⟨y, hy⟩ := hprefix
    exact h y hy.symm
  exact Rejects.between_of_accepts (Accepts.result .null x)
    (Rejects.right_of_accepts (accepts_spaces x) hlit) _

/-! Literals. -/

theorem accepts_word (s : String) (u : Text) :
    ((word s).parser onEnter).Accepts (Text.ofString s ++ u) (.str (Text.ofString s)) u :=
  Accepts.lit _ _

theorem rejects_word {s : String} (h : ¬Text.ofString s <+: x) :
    ((word s).parser onEnter).Rejects x :=
  Rejects.lit h

theorem accepts_string {body decoded : Text} (h : StringBody body decoded) (u : Text) :
    (string.parser onEnter).Accepts (quote :: (body ++ [quote]) ++ u) (.str decoded.joinPairs) u := by
  have hmatch : stringPattern.matched? (quote :: (body ++ [quote]) ++ u) =
      some (quote :: (body ++ [quote])) :=
    matched?_stringPattern.mpr ⟨body, decoded, u, h, rfl, rfl⟩
  refine ((Accepts.pattern hmatch).cause _).transform ?_
  rw [Value.onText, unescape_literal h, Text.joinSurrogates_eq_joinPairs]
  rfl

theorem rejects_string (h : ∀ y, x ≠ quote :: y) : (string.parser onEnter).Rejects x := by
  refine ((Rejects.pattern ?_).cause _).transform _
  refine Option.eq_none_iff_forall_ne_some.mpr fun w hw => ?_
  obtain ⟨body, decoded, u, -, rfl, hx⟩ := matched?_stringPattern.mp hw
  exact h _ hx

theorem accepts_key {k name : Text} (hk : IsKey k name) (hx : trim x = trim (k ++ u)) :
    (keyParser onEnter).Accepts x (.str name) (trim u) := by
  obtain ⟨a, body, decoded, m, ha, hbody, hm, rfl, rfl⟩ := hk
  obtain ⟨y, hy, htrim⟩ := trim_mark (by decide) hm u
  have hstart : trim x = quote :: (body ++ [quote]) ++ (m ++ u) := by
    rw [hx, List.append_assoc, trim_append ha, List.append_assoc]
    exact trim_cons (by decide) _
  have hstring : (Parser.right (Grammar.spaces.parser onEnter) (string.parser onEnter)).Accepts x
      (.str decoded.joinPairs) (m ++ u) := by
    refine (accepts_spaces x).right ?_
    rw [hstart]
    exact accepts_string hbody _
  rw [← htrim]
  exact (Accepts.result .null x).between hstring (accepts_mark hy)

theorem accepts_number {w : Text} {v : Value} (hw : IsNumber w) (hu : EndsNumber u)
    (hv : toNumber w = .ok v) : (number.parser onEnter).Accepts (w ++ u) v u := by
  have hmatch : numberPattern.matched? (w ++ u) = some w := by
    rw [matched?_numberPattern]
    exact scanNumber_append hw hu
  exact ((Accepts.pattern hmatch).cause _).transform hv

/-- The first code point of a number literal is a minus sign or a digit of ASCII. -/
theorem IsNumber.exists_cons {w : Text} (h : IsNumber w) :
    ∃ c rest, w = c :: rest ∧ (c = Code.ofChar '-' ∨ 0x30 ≤ c.val ∧ c.val ≤ 0x39) := by
  obtain ⟨hminus, hwhole, -, -⟩ := h
  rcases hminus with rfl | rfl
  · obtain ⟨c, rest, rfl, hlow, hhigh⟩ := hwhole.exists_cons
    exact ⟨c, _, rfl, Or.inr ⟨hlow, hhigh⟩⟩
  · exact ⟨_, _, rfl, Or.inl rfl⟩

theorem isVisible_of_startsNumber {c : Code}
    (hc : c = Code.ofChar '-' ∨ 0x30 ≤ c.val ∧ c.val ≤ 0x39) : IsVisible c := by
  rcases hc with rfl | hc
  · decide
  · exact ⟨by omega, by omega⟩

theorem ne_of_startsNumber {c d : Code} (hc : c = Code.ofChar '-' ∨ 0x30 ≤ c.val ∧ c.val ≤ 0x39)
    (hd : d.val < 0x2D ∨ 0x39 < d.val) : c ≠ d := by
  rintro rfl
  rcases hc with rfl | hc
  · exact absurd hd (by decide)
  · omega

/-- A number literal has no white space in front. -/
theorem IsNumber.trim_append {w : Text} (h : IsNumber w) (u : Text) : trim (w ++ u) = w ++ u := by
  obtain ⟨c, rest, rfl, hc⟩ := h.exists_cons
  exact trim_cons (isVisible_of_startsNumber hc) _

theorem rejects_number {c : Code} (hminus : c ≠ Code.ofChar '-') (hdigit : c.val < 0x30 ∨ 0x39 < c.val)
    (y : Text) : (number.parser onEnter).Rejects (c :: y) := by
  refine ((Rejects.pattern ?_).cause _).transform _
  refine Option.eq_none_iff_forall_ne_some.mpr fun w hw => ?_
  obtain ⟨u, hu⟩ := Pattern.eq_append_of_matched? hw
  rw [matched?_numberPattern] at hw
  obtain ⟨d, rest, rfl, hd⟩ := (isNumber_of_scanNumber hw).exists_cons
  obtain rfl := (List.cons.inj hu).1
  rcases hd with hd | hd
  · exact hminus hd
  · omega

theorem EndsValue.endsNumber (h : EndsValue u) : EndsNumber u := by
  rintro c rest rfl
  by_cases hc : c.isSpace = true
  · refine ⟨Code.isDecimal_of_isSpace hc, ?_, ?_, ?_⟩ <;> rintro rfl <;> revert hc <;> decide
  · have htrim : trim (c :: rest) = c :: rest := List.dropWhile_cons_of_neg hc
    rcases h c rest htrim with rfl | rfl | rfl <;> decide

/-! The alternatives of a value. -/

theorem rejects_array {cell : CellId} (h : ∀ y, trim x ≠ Code.ofChar '[' :: y) :
    ((array cell).parser onEnter).Rejects x := by
  rw [parser_array]
  exact (rejects_mark h).between _ _

theorem rejects_object {cell : CellId} (h : ∀ y, trim x ≠ Code.ofChar '\x7b' :: y) :
    ((object cell).parser onEnter).Rejects x := by
  rw [parser_object]
  exact ((rejects_mark h).between _ _).transform _

theorem rejects_member {cell : CellId} (h : ∀ y, trim x ≠ quote :: y) :
    ((member cell).parser onEnter).Rejects x := by
  have hkey : (Parser.right (Grammar.spaces.parser onEnter) (string.parser onEnter)).Rejects x :=
    Rejects.right_of_accepts (accepts_spaces x) (rejects_string h)
  rw [parser_member]
  exact (Rejects.between_of_accepts (Accepts.result .null x) hkey _).seq _

variable {cell : CellId} {c : Code} {v : Value} {z : Text}

/-- A text that begins with neither a brace nor a bracket is left to the literals. -/
private theorem accepts_literal (hc : IsVisible c) (hbrace : c ≠ Code.ofChar '\x7b')
    (hbracket : c ≠ Code.ofChar '[')
    (h : (Parser.choice ((string.labelled (Text.ofString "string")).parser onEnter)
      [(number.labelled (Text.ofString "number")).parser onEnter,
        (bool.labelled (Text.ofString "bool")).parser onEnter,
        (null.labelled (Text.ofString "null")).parser onEnter]).Accepts (c :: y) v z) :
    (alternatives onEnter cell).Accepts (c :: y) v z := by
  have hobject : ((object cell).parser onEnter).Rejects (c :: y) := rejects_object fun y' h => by
    rw [trim_cons hc] at h
    exact hbrace (List.cons.inj h).1
  have harray : ((array cell).parser onEnter).Rejects (c :: y) := rejects_array fun y' h => by
    rw [trim_cons hc] at h
    exact hbracket (List.cons.inj h).1
  exact .choice_of_rejects (hobject.labelled _) (.choice_of_rejects (harray.labelled _) h)

/-- A text that does not begin like a string or a number either is left to the words. -/
private theorem accepts_wordlike (hc : 0x61 ≤ c.val) (hc' : c.val ≤ 0x7A)
    (h : (Parser.choice ((bool.labelled (Text.ofString "bool")).parser onEnter)
        [(null.labelled (Text.ofString "null")).parser onEnter]).Accepts (c :: y) v z) :
    (alternatives onEnter cell).Accepts (c :: y) v z := by
  have hne : ∀ d : Code, d.val < 0x61 ∨ 0x7A < d.val → c ≠ d := by
    rintro d hd rfl
    omega
  have hstring : (string.parser onEnter).Rejects (c :: y) := rejects_string fun y' h =>
    hne quote (by decide) (List.cons.inj h).1
  have hnumber : (number.parser onEnter).Rejects (c :: y) :=
    rejects_number (hne _ (by decide)) (by omega) y
  exact accepts_literal ⟨by omega, by omega⟩ (hne _ (by decide)) (hne _ (by decide))
    (.choice_of_rejects (hstring.labelled _) (.choice_of_rejects (hnumber.labelled _) h))

private theorem accepts_replace (s : String) (v : Value) (u : Text) :
    (((word s).replace v).parser onEnter).Accepts (Text.ofString s ++ u) v u :=
  (accepts_word s u).transform rfl

private theorem rejects_replace {s : String} (h : ¬Text.ofString s <+: x) (v : Value) :
    (((word s).replace v).parser onEnter).Rejects x :=
  (rejects_word h).transform _

private theorem accepts_null (u : Text) :
    (alternatives onEnter cell).Accepts (Text.ofString "null" ++ u) .null u := by
  have htrue : ¬Text.ofString "true" <+: Text.ofString "null" ++ u :=
    fun ⟨_, h⟩ => absurd (List.cons.inj h).1 (by decide)
  have hfalse : ¬Text.ofString "false" <+: Text.ofString "null" ++ u :=
    fun ⟨_, h⟩ => absurd (List.cons.inj h).1 (by decide)
  have hbool : (bool.parser onEnter).Rejects (Text.ofString "null" ++ u) :=
    .choice_cons (rejects_replace htrue _) (.choice_nil (rejects_replace hfalse _))
  have hnull : (null.parser onEnter).Accepts (Text.ofString "null" ++ u) .null u :=
    accepts_replace "null" .null u
  exact accepts_wordlike (by decide) (by decide)
    (.choice_of_rejects (hbool.labelled _) ((hnull.labelled _).choice []))

private theorem accepts_true (u : Text) :
    (alternatives onEnter cell).Accepts (Text.ofString "true" ++ u) (.bool true) u := by
  have hbool : (bool.parser onEnter).Accepts (Text.ofString "true" ++ u) (.bool true) u :=
    (accepts_replace "true" (.bool true) u).choice _
  exact accepts_wordlike (by decide) (by decide) ((hbool.labelled _).choice _)

private theorem accepts_false (u : Text) :
    (alternatives onEnter cell).Accepts (Text.ofString "false" ++ u) (.bool false) u := by
  have htrue : ¬Text.ofString "true" <+: Text.ofString "false" ++ u :=
    fun ⟨_, h⟩ => absurd (List.cons.inj h).1 (by decide)
  have hbool : (bool.parser onEnter).Accepts (Text.ofString "false" ++ u) (.bool false) u :=
    .choice_of_rejects (rejects_replace htrue _) ((accepts_replace "false" (.bool false) u).choice [])
  exact accepts_wordlike (by decide) (by decide) ((hbool.labelled _).choice _)

private theorem accepts_stringValue {body decoded : Text} (h : StringBody body decoded) (u : Text) :
    (alternatives onEnter cell).Accepts (quote :: (body ++ [quote]) ++ u) (.str decoded.joinPairs) u :=
  accepts_literal (by decide) (by decide) (by decide) (((accepts_string h u).labelled _).choice _)

private theorem accepts_numberValue {w : Text} (hw : IsNumber w) (hu : EndsNumber u)
    (hv : toNumber w = .ok v) : (alternatives onEnter cell).Accepts (w ++ u) v u := by
  have hnumber : (number.parser onEnter).Accepts (w ++ u) v u := accepts_number hw hu hv
  obtain ⟨c, rest, rfl, hc⟩ := hw.exists_cons
  have hne : ∀ d : Code, d.val < 0x2D ∨ 0x39 < d.val → c ≠ d := fun d hd =>
    ne_of_startsNumber hc hd
  have hstring : (string.parser onEnter).Rejects (c :: (rest ++ u)) := rejects_string fun y' h =>
    hne quote (by decide) (List.cons.inj h).1
  exact accepts_literal (isVisible_of_startsNumber hc) (hne _ (by decide)) (hne _ (by decide))
    (.choice_of_rejects (hstring.labelled _) ((hnumber.labelled _).choice _))

/-- A closing bracket is no value, and finding that out enters no cell. -/
private theorem rejects_enter {limit : Nat} (h : trim x = Code.ofChar ']' :: y) :
    (documentStore.enter (limit + 1) 0).Rejects x := by
  have hne : ∀ d : Code, d ≠ Code.ofChar ']' → ∀ y', trim x ≠ d :: y' := fun d hd y' h' =>
    hd (List.cons.inj (h'.symm.trans h)).1
  have hobject : ((object 0).parser (documentStore.enter limit)).Rejects (trim x) :=
    rejects_object fun y' h' => hne _ (by decide) y' ((trim_trim x).symm.trans h')
  have harray : ((array 0).parser (documentStore.enter limit)).Rejects (trim x) :=
    rejects_array fun y' h' => hne _ (by decide) y' ((trim_trim x).symm.trans h')
  have hstring : (string.parser (documentStore.enter limit)).Rejects (trim x) :=
    rejects_string (hne _ (by decide))
  have hnumber : (number.parser (documentStore.enter limit)).Rejects (trim x) := by
    rw [h]
    exact rejects_number (by decide) (by decide) y
  have hword : ∀ s v c rest, Text.ofString s = c :: rest → c ≠ Code.ofChar ']' →
      (((word s).replace v).parser (documentStore.enter limit)).Rejects (trim x) := by
    intro s v c rest hs hc
    refine rejects_replace ?_ v
    rw [h, hs]
    exact fun hprefix => hc (List.cons_prefix_cons.mp hprefix).1
  have hbool : (bool.parser (documentStore.enter limit)).Rejects (trim x) :=
    .choice_cons (hword "true" _ _ _ rfl (by decide))
      (.choice_nil (hword "false" _ _ _ rfl (by decide)))
  have hnull : (null.parser (documentStore.enter limit)).Rejects (trim x) :=
    hword "null" _ _ _ rfl (by decide)
  have halternatives : (alternatives (documentStore.enter limit) 0).Rejects (trim x) :=
    .choice_cons (hobject.labelled _) (.choice_cons (harray.labelled _)
      (.choice_cons (hstring.labelled _) (.choice_cons (hnumber.labelled _)
        (.choice_cons (hbool.labelled _) (.choice_nil (hnull.labelled _))))))
  exact Rejects.between_of_accepts (accepts_spaces x) halternatives _

/-! Derivations. -/

/-- What a derivation says about the parsers: each reads the text that is derived from its symbol, up
to white space in front of it and behind it.  What may follow a value matters to numbers only. -/
def Completes : (s : Symbol) → Text → s.Meaning → Prop
  | .value, t, v => ∀ limit x u, openings t < limit → trim x = trim (t ++ u) → EndsValue u →
    (documentStore.enter limit 0).Accepts x v (trim u)
  | .bare, t, v => ∀ limit u, openings t ≤ limit → (IsNumber t → EndsValue u) →
    ∃ y, trim y = trim u ∧
      (alternatives (documentStore.enter limit) 0).Accepts (trim (t ++ u)) v y
  | .items, t, vs => ∀ limit x u y, openings t < limit → trim x = trim (t ++ u) →
    trim u = Code.ofChar ']' :: y →
    AcceptsList (documentStore.enter limit 0) (markParser (documentStore.enter limit) ',') x vs
      (trim u)
  | .member, t, e => ∀ limit x u, openings t < limit → trim x = trim (t ++ u) → EndsValue u →
    ((member 0).parser (documentStore.enter limit)).Accepts x (Value.pair (.str e.1) e.2) (trim u)
  | .members, t, es => ∀ limit x u y, openings t < limit → trim x = trim (t ++ u) →
    trim u = Code.ofChar '\x7d' :: y →
    AcceptsList ((member 0).parser (documentStore.enter limit))
      (markParser (documentStore.enter limit) ',') x
      (es.map fun e => Value.pair (.str e.1) e.2) (trim u)

private theorem endsValue_of_trim {d : Code} (h : trim u = d :: y)
    (hd : d = Code.ofChar ',' ∨ d = Code.ofChar ']' ∨ d = Code.ofChar '\x7d') : EndsValue u := by
  intro c rest hc
  obtain rfl := (List.cons.inj (h.symm.trans hc)).1
  exact hd

private theorem completes_value {a t b : Text} {v : Value} (ha : IsSpaces a) (hb : IsSpaces b)
    (h : Completes .bare t v) : Completes .value (a ++ (t ++ b)) v := by
  intro limit x u hlimit hx hu
  obtain ⟨limit, rfl⟩ := Nat.exists_eq_add_one.mpr (Nat.zero_lt_of_lt hlimit)
  have hbu : trim (b ++ u) = trim u := trim_append hb u
  have hends : EndsValue (b ++ u) := fun c rest hc => hu c rest (hbu ▸ hc)
  have hopenings : openings t ≤ limit := by
    simp only [openings_append] at hlimit
    omega
  obtain ⟨y, hy, hbare⟩ := h limit (b ++ u) hopenings fun _ => hends
  have hstart : trim x = trim (t ++ (b ++ u)) := by
    rw [hx, List.append_assoc, trim_append ha, List.append_assoc]
  rw [← hstart] at hbare
  have hrule : ((valueRule 0).parser (documentStore.enter limit)).Accepts x v (trim y) :=
    (accepts_spaces x).between hbare (accepts_spaces y)
  rw [hy, hbu] at hrule
  exact hrule

theorem openings_mark {mark : Char} {m : Text} (hm : IsMark mark m)
    (hmark : Code.ofChar mark = Code.ofChar '[' ∨ Code.ofChar mark = Code.ofChar '\x7b') :
    1 ≤ openings m := by
  obtain ⟨a, b, -, -, rfl⟩ := hm
  refine List.countP_pos_iff.mpr ⟨Code.ofChar mark, by simp, ?_⟩
  rcases hmark with h | h <;> simp [h]

theorem length_trim_lt {c : Code} (h : trim x = c :: y) : (trim y).length < x.length := by
  have hle : (trim y).length ≤ y.length := (trim_suffix y).length_le
  have hx : (trim x).length ≤ x.length := (trim_suffix x).length_le
  rw [h, List.length_cons] at hx
  omega

/-- What stands between two marks is read between them. -/
private theorem accepts_bracketed {opening closing : Char} {o t c : Text} {p : Parser}
    (ho : IsMark opening o) (hc : IsMark closing c) (hopening : IsVisible (Code.ofChar opening))
    (hclosing : IsVisible (Code.ofChar closing))
    (hp : p.Accepts (trim (t ++ (c ++ u))) v (trim (c ++ u))) :
    (Parser.between (markParser onEnter opening) p (markParser onEnter closing)).Accepts
      (trim (o ++ (t ++ c) ++ u)) v (trim u) := by
  obtain ⟨y, hy, htrim⟩ := trim_mark hopening ho (t ++ (c ++ u))
  obtain ⟨z, hz, hzu⟩ := trim_mark hclosing hc u
  have hopen : trim (trim (o ++ (t ++ c) ++ u)) = Code.ofChar opening :: y := by
    simpa using hy
  have hclose : trim (trim (c ++ u)) = Code.ofChar closing :: z := by rw [trim_trim, hz]
  rw [← htrim] at hp
  rw [← hzu]
  exact (accepts_mark hopen).between hp (accepts_mark hclose)

private theorem completes_array {o t c : Text} {vs : List Value} (ho : IsMark '[' o)
    (hc : IsMark ']' c) (hitems : ∀ limit u y, openings t < limit →
      trim u = Code.ofChar ']' :: y →
      (itemsParser (documentStore.enter limit) 0).Accepts (trim (t ++ u)) (.list vs) (trim u)) :
    Completes .bare (o ++ (t ++ c)) (.list vs) := by
  intro limit u hlimit _
  have hmark := openings_mark ho (Or.inl rfl)
  obtain ⟨y, hy, -⟩ := trim_mark (by decide) ho (t ++ c ++ u)
  obtain ⟨z, hz, -⟩ := trim_mark (by decide) hc u
  have hopenings : openings t < limit := by
    simp only [openings_append] at hlimit
    omega
  have harray : ((array 0).parser (documentStore.enter limit)).Accepts (trim (o ++ (t ++ c) ++ u))
      (.list vs) (trim u) := by
    rw [parser_array]
    exact accepts_bracketed ho hc (by decide) (by decide) (hitems limit (c ++ u) z hopenings hz)
  have hobject : ((object 0).parser (documentStore.enter limit)).Rejects
      (trim (o ++ (t ++ c) ++ u)) := by
    refine rejects_object fun y' h => ?_
    rw [trim_trim, List.append_assoc, hy] at h
    exact absurd (List.cons.inj h).1 (by decide)
  exact ⟨trim u, trim_trim u, .choice_of_rejects (hobject.labelled _) ((harray.labelled _).choice _)⟩

private theorem completes_object {o t c : Text} {es : List (Text × Value)} (ho : IsMark '\x7b' o)
    (hc : IsMark '\x7d' c) (hmembers : ∀ limit u y, openings t < limit →
      trim u = Code.ofChar '\x7d' :: y →
      (membersParser (documentStore.enter limit) 0).Accepts (trim (t ++ u))
        (.list (es.map fun e => Value.pair (.str e.1) e.2)) (trim u)) :
    Completes .bare (o ++ (t ++ c)) (.dict ((Value.dictionary es).map Value.textEntry)) := by
  intro limit u hlimit _
  have hmark := openings_mark ho (Or.inr rfl)
  obtain ⟨z, hz, -⟩ := trim_mark (by decide) hc u
  have hopenings : openings t < limit := by
    simp only [openings_append] at hlimit
    omega
  have hobject : ((object 0).parser (documentStore.enter limit)).Accepts (trim (o ++ (t ++ c) ++ u))
      (.dict ((Value.dictionary es).map Value.textEntry)) (trim u) := by
    rw [parser_object]
    refine Accepts.transform ?_ (Value.toDict_members es)
    exact accepts_bracketed ho hc (by decide) (by decide) (hmembers limit (c ++ u) z hopenings hz)
  exact ⟨trim u, trim_trim u, (hobject.labelled _).choice _⟩

/-- A list ends where a closing mark follows. -/
private theorem completes_last {p : Parser} {closing : Char} {x u y : Text} {v : Value}
    (hne : Code.ofChar closing ≠ Code.ofChar ',') (hp : p.Accepts x v (trim u))
    (hu : trim u = Code.ofChar closing :: y) :
    AcceptsList p (markParser onEnter ',') x [v] (trim u) := by
  refine .one hp (rejects_mark fun y' h => ?_)
  rw [trim_trim, hu] at h
  exact hne (List.cons.inj h).1

/-- A list goes on behind a comma. -/
private theorem completes_more {p : Parser} {x t m u : Text} {v : Value} {vs : List Value}
    (hm : IsMark ',' m) (hp : p.Accepts x v (trim (m ++ (t ++ u))))
    (hlist : ∀ x', trim x' = trim (t ++ u) →
      AcceptsList p (markParser onEnter ',') x' vs (trim u)) :
    AcceptsList p (markParser onEnter ',') x (v :: vs) (trim u) := by
  obtain ⟨y, hy, htrim⟩ := trim_mark (by decide) hm (t ++ u)
  have hcomma : trim (trim (m ++ (t ++ u))) = Code.ofChar ',' :: y := by rw [trim_trim, hy]
  have hstart : trim (trim y) = trim (t ++ u) := by rw [trim_trim, htrim]
  exact .cons hp (accepts_mark hcomma) (length_trim_lt hcomma) (hlist (trim y) hstart)

private theorem completes_member {a body decoded m t : Text} {v : Value} (ha : IsSpaces a)
    (hbody : StringBody body decoded) (hm : IsMark ':' m) (ht : Completes .value t v) :
    Completes .member (a ++ (quote :: (body ++ [quote]) ++ (m ++ t))) (decoded.joinPairs, v) := by
  intro limit x u hlimit hx hu
  have hkey : IsKey (a ++ (quote :: (body ++ [quote]) ++ m)) decoded.joinPairs :=
    ⟨a, body, decoded, m, ha, hbody, hm, rfl, rfl⟩
  have hopenings : openings t < limit := by
    simp only [openings_append] at hlimit
    omega
  have hstart : trim x = trim (a ++ (quote :: (body ++ [quote]) ++ m) ++ (t ++ u)) := by
    rw [hx]
    simp only [List.append_assoc, List.cons_append]
  rw [parser_member]
  exact (accepts_key hkey hstart).seq (ht limit _ u hopenings (trim_trim _) hu)

private theorem completes_number {w : Text} {v : Value} (hw : IsNumber w) (hv : toNumber w = .ok v) :
    Completes .bare w v := by
  intro limit u _ hu
  have haccepts : (alternatives (documentStore.enter limit) 0).Accepts (w ++ u) v u :=
    accepts_numberValue hw (hu hw).endsNumber hv
  exact ⟨u, rfl, by rwa [hw.trim_append]⟩

theorem endsValue_comma {m : Text} (hm : IsMark ',' m) (u : Text) : EndsValue (m ++ u) := by
  obtain ⟨y, hy, -⟩ := trim_mark (by decide) hm u
  exact endsValue_of_trim hy (Or.inl rfl)

/-- What is derived is read. -/
theorem completes_of_derives {s : Symbol} {t : Text} {m : s.Meaning}
    (h : Derives FitsLimit s t m) : Completes s t m := by
  induction h with
  | value ha _ hb ih => exact completes_value ha hb ih
  | null => exact fun limit u _ _ => ⟨u, rfl, accepts_null u⟩
  | true => exact fun limit u _ _ => ⟨u, rfl, accepts_true u⟩
  | false => exact fun limit u _ _ => ⟨u, rfl, accepts_false u⟩
  | @integer minus whole hminus hwhole hfits =>
    have hnumber : IsNumber (minus ++ whole) := by
      simpa using IsNumber.mk hminus hwhole .none .none
    refine completes_number hnumber ?_
    rw [toNumber_integer hminus hwhole, if_neg (Nat.not_lt.mpr hfits)]
  | float hminus hwhole hfraction hexponent hsome hx =>
    refine completes_number (.mk hminus hwhole hfraction hexponent) ?_
    rw [toNumber_float hfraction hexponent hsome, Text.toFloat, hx]
    rfl
  | @string body decoded hbody =>
    intro limit u _ _
    have htrim : trim (quote :: (body ++ [quote]) ++ u) = quote :: (body ++ [quote]) ++ u :=
      trim_cons (by decide) _
    refine ⟨u, rfl, ?_⟩
    rw [htrim]
    exact accepts_stringValue hbody u
  | emptyArray ho hc =>
    -- The cell is entered once more, only to find that no value begins with the closing bracket.
    refine @completes_array _ [] _ _ ho hc fun limit u y hlimit hu => ?_
    obtain ⟨limit, rfl⟩ := Nat.exists_eq_add_one.mpr (Nat.zero_lt_of_lt hlimit)
    have htrim : trim (trim ([] ++ u)) = Code.ofChar ']' :: y := by simpa using hu
    exact .orElse_of_rejects ((rejects_enter htrim).sepBy1 _) _
  | array ho _ hc ih =>
    refine completes_array ho hc fun limit u y hlimit hu => ?_
    exact (ih limit _ u y hlimit (trim_trim _) hu).sepBy1.orElse _
  | emptyObject ho hc =>
    -- No cell is entered here: a member begins with its key.
    refine @completes_object _ [] _ [] ho hc fun limit u y hlimit hu => ?_
    have hquote : ∀ y', trim (trim ([] ++ u)) ≠ quote :: y' := fun y' h => by
      rw [trim_trim, List.nil_append, hu] at h
      exact absurd (List.cons.inj h).1 (by decide)
    exact .orElse_of_rejects ((rejects_member hquote).sepBy1 _) _
  | object ho _ hc ih =>
    refine completes_object ho hc fun limit u y hlimit hu => ?_
    exact (ih limit _ u y hlimit (trim_trim _) hu).sepBy1.orElse _
  | item _ ih =>
    intro limit x u y hlimit hx hu
    have hends := endsValue_of_trim hu (Or.inr (Or.inl rfl))
    exact completes_last (by decide) (ih limit x u hlimit hx hends) hu
  | @items t m u v vs _ hm _ iht ihu =>
    intro limit x u' y hlimit hx hu'
    simp only [openings_append] at hlimit
    refine completes_more hm (iht limit x _ (by omega) ?_ (endsValue_comma hm _)) fun x' hx' =>
      ihu limit x' u' y (by omega) hx' hu'
    simpa using hx
  | member ha hbody hm _ ih => exact completes_member ha hbody hm ih
  | lastMember _ ih =>
    intro limit x u y hlimit hx hu
    have hends := endsValue_of_trim hu (Or.inr (Or.inr rfl))
    exact completes_last (by decide) (ih limit x u hlimit hx hends) hu
  | @members t m u e es _ hm _ iht ihu =>
    intro limit x u' y hlimit hx hu'
    simp only [openings_append] at hlimit
    refine completes_more hm (iht limit x _ (by omega) ?_ (endsValue_comma hm _)) fun x' hx' =>
      ihu limit x' u' y (by omega) hx' hu'
    simpa using hx

/-- A document is accepted in full, if enough entries of the cell of values are allowed. -/
theorem accepts_document {limit : Nat} {t : Text} {v : Value} (hlimit : openings t < limit)
    (h : IsDocument FitsLimit t v) :
    (documentGrammar.run documentStore limit).Accepts t v [] := by
  have hends : EndsValue [] := fun c rest hc => by cases hc
  have hvalue : (documentStore.enter limit 0).Accepts t v (trim []) :=
    completes_of_derives h limit t [] hlimit (by rw [List.append_nil]) hends
  exact (Accepts.result .null t).between hvalue Accepts.eof

end Descent.Json
