import Descent.Proofs.Json.Documents

/-!
JSON as the standard defines it.  There white space is the space, the tab, the line feed and the
carriage return, and digits are those of ASCII; the patterns of this library take white space and
digits of any script.  So some documents are no JSON, and which ones can be seen by looking at their
code points outside the string literals.
-/

set_option autoImplicit false
set_option relaxedAutoImplicit false

namespace Descent.Json

/-- White space of the standard. -/
def isBlank (c : Code) : Bool :=
  c.val == 0x20 || c.val == 0xA || c.val == 0xD || c.val == 0x9

/-- White space of the standard, or nothing. -/
def IsBlanks (t : Text) : Prop :=
  ∀ c ∈ t, isBlank c = true

namespace Standard

/-- The parts of a text in the grammar of the standard. -/
inductive Part where
  | element
  | value
  | elements
  | member
  | members
  deriving DecidableEq

/-- How the parts are written. -/
inductive Written : Part → Text → Prop where
  | element {a t b : Text} : IsBlanks a → Written .value t → IsBlanks b →
    Written .element (a ++ (t ++ b))
  | null : Written .value (Text.ofString "null")
  | true : Written .value (Text.ofString "true")
  | false : Written .value (Text.ofString "false")
  | number {t : Text} : IsNumber t → (∀ c ∈ t, c.isDecimal = true → c.isAsciiDigit = true) →
    Written .value t
  | string {body decoded : Text} : StringBody body decoded →
    Written .value (quote :: (body ++ [quote]))
  | emptyArray {a : Text} : IsBlanks a →
    Written .value (Code.ofChar '[' :: (a ++ [Code.ofChar ']']))
  | array {t : Text} : Written .elements t →
    Written .value (Code.ofChar '[' :: (t ++ [Code.ofChar ']']))
  | emptyObject {a : Text} : IsBlanks a →
    Written .value (Code.ofChar '\x7b' :: (a ++ [Code.ofChar '\x7d']))
  | object {t : Text} : Written .members t →
    Written .value (Code.ofChar '\x7b' :: (t ++ [Code.ofChar '\x7d']))
  | lastElement {t : Text} : Written .element t → Written .elements t
  | elements {t u : Text} : Written .element t → Written .elements u →
    Written .elements (t ++ Code.ofChar ',' :: u)
  | member {a body decoded b t : Text} : IsBlanks a → StringBody body decoded → IsBlanks b →
    Written .element t →
    Written .member (a ++ (quote :: (body ++ [quote]) ++ (b ++ Code.ofChar ':' :: t)))
  | lastMember {t : Text} : Written .member t → Written .members t
  | members {t u : Text} : Written .member t → Written .members u →
    Written .members (t ++ Code.ofChar ',' :: u)

end Standard

/-- A text is JSON by the standard. -/
def IsStandard (t : Text) : Prop :=
  Standard.Written .element t

/-! What stands outside the string literals of a text. -/

/-- Where a scan of a text is: outside string literals, in one, or behind a backslash in one. -/
inductive ScanPlace where
  | outside
  | inside
  | escaped

/-- The code points outside string literals, the scan being at a place. -/
def outsideFrom : ScanPlace → Text → Text
  | _, [] => []
  | .outside, c :: rest =>
    if c = quote then outsideFrom .inside rest else c :: outsideFrom .outside rest
  | .inside, c :: rest =>
    if c = quote then outsideFrom .outside rest
    else if c = backslash then outsideFrom .escaped rest
    else outsideFrom .inside rest
  | .escaped, _ :: rest => outsideFrom .inside rest

/-- The code points of a text that are in no string literal. -/
def outsideStrings (t : Text) : Text :=
  outsideFrom .outside t

private theorem outsideFrom_inside_append {t : Text} (h : ∀ c ∈ t, c ≠ quote ∧ c ≠ backslash)
    (u : Text) : outsideFrom .inside (t ++ u) = outsideFrom .inside u := by
  induction t with
  | nil => rfl
  | cons c t ih =>
    obtain ⟨hquote, hbackslash⟩ := h c List.mem_cons_self
    rw [List.cons_append, outsideFrom, if_neg hquote, if_neg hbackslash]
    exact ih fun d hd => h d (List.mem_cons_of_mem _ hd)

private theorem outsideFrom_element {raw : Text} {c : Code} (h : StringElement raw c) (u : Text) :
    outsideFrom .inside (raw ++ u) = outsideFrom .inside u := by
  have hbackslash : backslash ≠ quote := by decide
  cases h with
  | plain hc =>
    refine outsideFrom_inside_append (fun d hd => ?_) u
    obtain rfl := List.mem_singleton.mp hd
    exact ⟨(isPlain_iff.mp hc).1, (isPlain_iff.mp hc).2.1⟩
  | escape hc =>
    simp only [List.cons_append, List.nil_append, outsideFrom, if_neg hbackslash, if_true]
  | @unicode digits _ hhex =>
    simp only [List.cons_append, outsideFrom, if_neg hbackslash, if_true]
    refine outsideFrom_inside_append (fun d hd => ?_) u
    have hdigit := List.all_eq_true.mp hhex d hd
    constructor <;> rintro rfl <;> revert hdigit <;> decide

private theorem outsideFrom_body {body decoded : Text} (h : StringBody body decoded) (u : Text) :
    outsideFrom .inside (body ++ u) = outsideFrom .inside u := by
  induction h with
  | nil => rfl
  | cons hraw _ ih => rw [List.append_assoc, outsideFrom_element hraw, ih]

/-- A text has only whole string literals in it, and what it has outside of them is of a kind. -/
structure Closed (ok : Code → Prop) (t : Text) : Prop where
  separate : ∀ u, outsideStrings (t ++ u) = outsideStrings t ++ outsideStrings u
  outside : ∀ c ∈ outsideStrings t, ok c

namespace Closed

variable {ok : Code → Prop} {s t : Text}

theorem append (hs : Closed ok s) (ht : Closed ok t) : Closed ok (s ++ t) := by
  constructor
  · intro u
    rw [List.append_assoc, hs.separate, ht.separate, hs.separate, List.append_assoc]
  · intro c hc
    rw [hs.separate] at hc
    rcases List.mem_append.mp hc with hc | hc
    · exact hs.outside c hc
    · exact ht.outside c hc

theorem string {body decoded : Text} (h : StringBody body decoded) :
    Closed ok (quote :: (body ++ [quote])) := by
  have hskip : ∀ u, outsideStrings (quote :: (body ++ quote :: u)) = outsideStrings u := by
    intro u
    rw [outsideStrings, outsideFrom, if_pos rfl, outsideFrom_body h, outsideFrom, if_pos rfl]
    rfl
  have hnone : outsideStrings (quote :: (body ++ [quote])) = [] := hskip []
  constructor
  · intro u
    rw [hnone, List.nil_append, ← hskip u]
    simp only [List.cons_append, List.append_assoc, List.nil_append]
  · intro c hc
    rw [hnone] at hc
    cases hc

end Closed

private theorem outsideStrings_append_of_plain {t : Text} (h : ∀ c ∈ t, c ≠ quote) (u : Text) :
    outsideStrings (t ++ u) = t ++ outsideStrings u := by
  induction t with
  | nil => rfl
  | cons c t ih =>
    rw [List.cons_append, outsideStrings, outsideFrom, if_neg (h c List.mem_cons_self)]
    exact congrArg (c :: ·) (ih fun d hd => h d (List.mem_cons_of_mem _ hd))

/-- A text without quotation marks is all outside. -/
theorem outsideStrings_of_plain {t : Text} (h : ∀ c ∈ t, c ≠ quote) : outsideStrings t = t := by
  have hself := outsideStrings_append_of_plain h []
  rwa [List.append_nil, show outsideStrings [] = [] from rfl, List.append_nil] at hself

theorem Closed.of_plain {ok : Code → Prop} {t : Text} (h : ∀ c ∈ t, c ≠ quote)
    (hok : ∀ c ∈ t, ok c) : Closed ok t := by
  have hself := outsideStrings_of_plain h
  constructor
  · intro u
    rw [outsideStrings_append_of_plain h, hself]
  · rwa [hself]

/-- The code points of the marks, the words and the parts of numbers that are no digits. -/
def isFixed (c : Code) : Bool :=
  isOneOf "[]\x7b\x7d,:+-.eEtrufalsn" c

/-- White space, a digit, or a code point of the syntax. -/
def IsToken (c : Code) : Prop :=
  c.isSpace = true ∨ c.isDecimal = true ∨ isFixed c = true

/-- A code point of the standard is no white space and no digit but one of the standard. -/
def IsAdmitted (c : Code) : Prop :=
  (c.isSpace = true → isBlank c = true) ∧ (c.isDecimal = true → c.isAsciiDigit = true)

theorem IsToken.ne_quote {c : Code} (h : IsToken c) : c ≠ quote := by
  rintro rfl
  revert h
  unfold IsToken
  decide

theorem isToken_spaces {a : Text} (ha : IsSpaces a) : ∀ c ∈ a, IsToken c :=
  fun c hc => Or.inl (ha c hc)

theorem isToken_mark {mark : Char} {m : Text} (hmark : isFixed (Code.ofChar mark) = true)
    (hm : IsMark mark m) : ∀ c ∈ m, IsToken c := by
  obtain ⟨a, b, ha, hb, rfl⟩ := hm
  intro c hc
  rcases List.mem_append.mp hc with hc | hc
  · exact isToken_spaces ha c hc
  · rcases List.mem_cons.mp hc with rfl | hc
    · exact Or.inr (Or.inr hmark)
    · exact isToken_spaces hb c hc

private theorem isFixed_of_mark {c : Code} (h : isOneOf "+-.eE" c = true) : isFixed c = true := by
  have hmarks : (Text.ofString "+-.eE").all isFixed = true := by decide
  exact List.all_eq_true.mp hmarks c (List.contains_iff_mem.mp h)

theorem isToken_number {w : Text} (hw : IsNumber w) : ∀ c ∈ w, IsToken c := by
  intro c hc
  rcases isDecimal_or_mark_of_mem hw c hc with h | h
  · exact Or.inr (Or.inl h)
  · exact Or.inr (Or.inr (isFixed_of_mark h))

/-! So the parts of a document have only tokens outside of their string literals. -/

private theorem closed_tokens {t : Text} (h : ∀ c ∈ t, IsToken c) : Closed IsToken t :=
  .of_plain (fun c hc => (h c hc).ne_quote) h

private theorem closed_spaces {a : Text} (ha : IsSpaces a) : Closed IsToken a :=
  closed_tokens (isToken_spaces ha)

private theorem closed_mark {mark : Char} {m : Text} (hmark : isFixed (Code.ofChar mark) = true)
    (hm : IsMark mark m) : Closed IsToken m :=
  closed_tokens (isToken_mark hmark hm)

private theorem closed_word {s : String} (h : (Text.ofString s).all isFixed = true) :
    Closed IsToken (Text.ofString s) :=
  closed_tokens fun c hc => Or.inr (Or.inr (List.all_eq_true.mp h c hc))

/-- Outside its string literals a document has nothing but white space, digits and syntax. -/
theorem closed_of_derives {fits : Text → Prop} {s : Symbol} {t : Text} {m : s.Meaning}
    (h : Derives fits s t m) : Closed IsToken t := by
  induction h with
  | value ha _ hb ih => exact (closed_spaces ha).append (ih.append (closed_spaces hb))
  | null => exact closed_word (by decide)
  | true => exact closed_word (by decide)
  | false => exact closed_word (by decide)
  | integer hminus hwhole _ =>
    have hw := IsNumber.mk hminus hwhole .none .none
    simp only [List.append_nil] at hw
    exact closed_tokens (isToken_number hw)
  | float hminus hwhole hfraction hexponent _ _ =>
    exact closed_tokens (isToken_number (.mk hminus hwhole hfraction hexponent))
  | string hbody => exact .string hbody
  | emptyArray ho hc =>
    exact (closed_mark (by decide) ho).append (closed_mark (by decide) hc)
  | array ho _ hc ih =>
    exact (closed_mark (by decide) ho).append (ih.append (closed_mark (by decide) hc))
  | emptyObject ho hc =>
    exact (closed_mark (by decide) ho).append (closed_mark (by decide) hc)
  | object ho _ hc ih =>
    exact (closed_mark (by decide) ho).append (ih.append (closed_mark (by decide) hc))
  | item _ ih => exact ih
  | items _ hm _ iht ihu =>
    exact iht.append ((closed_mark (by decide) hm).append ihu)
  | member ha hbody hm _ ih =>
    refine (closed_spaces ha).append ((Closed.string hbody).append ?_)
    exact (closed_mark (by decide) hm).append ih
  | lastMember _ ih => exact ih
  | members _ hm _ iht ihu =>
    exact iht.append ((closed_mark (by decide) hm).append ihu)

/-! A document is JSON by the standard if and only if all that it has outside of its string literals
is admitted there. -/

private theorem isSpace_of_isBlank {c : Code} (h : isBlank c = true) : c.isSpace = true := by
  have hval : c.val = 0x20 ∨ c.val = 0xA ∨ c.val = 0xD ∨ c.val = 0x9 := by
    simpa [isBlank, or_assoc] using h
  rcases hval with h | h | h | h <;> rw [Code.isSpace, h] <;> rfl

private theorem isAdmitted_of_isBlank {c : Code} (h : isBlank c = true) : IsAdmitted c := by
  refine ⟨fun _ => h, fun hdecimal => ?_⟩
  rw [Code.isDecimal_of_isSpace (isSpace_of_isBlank h)] at hdecimal
  cases hdecimal

private theorem isAdmitted_of_isFixed {c : Code} (h : isFixed c = true) : IsAdmitted c := by
  have hclasses : (Text.ofString "[]\x7b\x7d,:+-.eEtrufalsn").all
      (fun c => !c.isSpace && !c.isDecimal) = true := by decide
  have hc := List.all_eq_true.mp hclasses c (List.contains_iff_mem.mp h)
  obtain ⟨hspace, hdecimal⟩ : c.isSpace = false ∧ c.isDecimal = false := by simpa using hc
  constructor
  · intro hc
    rw [hspace] at hc
    cases hc
  · intro hc
    rw [hdecimal] at hc
    cases hc

/-- A token of the standard. -/
def IsStandardToken (c : Code) : Prop :=
  IsToken c ∧ IsAdmitted c

namespace Standard

private theorem closed_standardTokens {t : Text} (h : ∀ c ∈ t, IsStandardToken c) :
    Closed IsStandardToken t :=
  .of_plain (fun c hc => (h c hc).1.ne_quote) h

private theorem closed_blanks {a : Text} (ha : IsBlanks a) : Closed IsStandardToken a :=
  closed_standardTokens fun c hc =>
    ⟨Or.inl (isSpace_of_isBlank (ha c hc)), isAdmitted_of_isBlank (ha c hc)⟩

private theorem closed_fixed {t : Text} (h : t.all isFixed = true) : Closed IsStandardToken t :=
  closed_standardTokens fun c hc =>
    have hc := List.all_eq_true.mp h c hc
    ⟨Or.inr (Or.inr hc), isAdmitted_of_isFixed hc⟩

private theorem closed_number {w : Text} (hw : IsNumber w)
    (hascii : ∀ c ∈ w, c.isDecimal = true → c.isAsciiDigit = true) : Closed IsStandardToken w := by
  refine closed_standardTokens fun c hc => ?_
  refine ⟨isToken_number hw c hc, fun hspace => ?_, hascii c hc⟩
  rcases isDecimal_or_mark_of_mem hw c hc with h | h
  · rw [Code.isDecimal_of_isSpace hspace] at h
    cases h
  · exact (isAdmitted_of_isFixed (isFixed_of_mark h)).1 hspace

theorem closed_of_written {p : Part} {t : Text} (h : Written p t) : Closed IsStandardToken t := by
  have hmark : ∀ {mark : Char} {t : Text}, [Code.ofChar mark].all isFixed = true →
      Closed IsStandardToken t → Closed IsStandardToken (Code.ofChar mark :: t) :=
    fun hmark ht => (closed_fixed hmark).append ht
  induction h with
  | element ha _ hb ih => exact (closed_blanks ha).append (ih.append (closed_blanks hb))
  | null => exact closed_fixed (by decide)
  | true => exact closed_fixed (by decide)
  | false => exact closed_fixed (by decide)
  | number hw hascii => exact closed_number hw hascii
  | string hbody => exact .string hbody
  | emptyArray ha => exact hmark (by decide) ((closed_blanks ha).append (closed_fixed (by decide)))
  | array _ ih => exact hmark (by decide) (ih.append (closed_fixed (by decide)))
  | emptyObject ha => exact hmark (by decide) ((closed_blanks ha).append (closed_fixed (by decide)))
  | object _ ih => exact hmark (by decide) (ih.append (closed_fixed (by decide)))
  | lastElement _ ih => exact ih
  | elements _ _ iht ihu => exact iht.append (hmark (by decide) ihu)
  | member ha hbody hb _ ih =>
    refine (closed_blanks ha).append ((Closed.string hbody).append ?_)
    exact (closed_blanks hb).append (hmark (by decide) ih)
  | lastMember _ ih => exact ih
  | members _ _ iht ihu => exact iht.append (hmark (by decide) ihu)

private theorem isBlanks_nil : IsBlanks [] :=
  fun c hc => by cases hc

private theorem IsBlanks.append {a b : Text} (ha : IsBlanks a) (hb : IsBlanks b) :
    IsBlanks (a ++ b) := by
  intro c hc
  rcases List.mem_append.mp hc with hc | hc
  · exact ha c hc
  · exact hb c hc

/-- White space may be added around any part but a value that stands alone. -/
theorem Written.pad {p : Part} {t : Text} (h : Written p t) (hp : p ≠ .value) {a b : Text}
    (ha : IsBlanks a) (hb : IsBlanks b) : Written p (a ++ (t ++ b)) := by
  -- A list passes what is in front to its first part and what is behind to the rest.
  induction h generalizing a b with
  | element ha' ht hb' _ =>
    have hpadded := Written.element (IsBlanks.append ha ha') ht (IsBlanks.append hb' hb)
    simpa only [List.append_assoc] using hpadded
  | null => exact absurd rfl hp
  | true => exact absurd rfl hp
  | false => exact absurd rfl hp
  | number _ _ => exact absurd rfl hp
  | string _ => exact absurd rfl hp
  | emptyArray _ => exact absurd rfl hp
  | array _ _ => exact absurd rfl hp
  | emptyObject _ => exact absurd rfl hp
  | object _ _ => exact absurd rfl hp
  | lastElement _ ih => exact .lastElement (ih (by decide) ha hb)
  | elements _ _ iht ihu =>
    have hpadded := Written.elements (iht (by decide) ha isBlanks_nil)
      (ihu (by decide) isBlanks_nil hb)
    simpa only [List.append_assoc, List.append_nil, List.nil_append, List.cons_append] using hpadded
  | member ha' hbody hb' _ ih =>
    have hpadded := Written.member (IsBlanks.append ha ha') hbody hb'
      (ih (by decide) isBlanks_nil hb)
    simpa only [List.append_assoc, List.nil_append, List.cons_append] using hpadded
  | lastMember _ ih => exact .lastMember (ih (by decide) ha hb)
  | members _ _ iht ihu =>
    have hpadded := Written.members (iht (by decide) ha isBlanks_nil)
      (ihu (by decide) isBlanks_nil hb)
    simpa only [List.append_assoc, List.append_nil, List.nil_append, List.cons_append] using hpadded

theorem Written.pad_front {p : Part} {a t : Text} (h : Written p t) (hp : p ≠ .value)
    (ha : IsBlanks a) : Written p (a ++ t) := by
  have hpadded := h.pad hp ha isBlanks_nil
  rwa [List.append_nil] at hpadded

theorem Written.pad_back {p : Part} {t b : Text} (h : Written p t) (hp : p ≠ .value)
    (hb : IsBlanks b) : Written p (t ++ b) :=
  h.pad hp isBlanks_nil hb

end Standard

open Standard

/-- All that a text has outside of its string literals is admitted by the standard. -/
def Admits (t : Text) : Prop :=
  ∀ c ∈ outsideStrings t, IsAdmitted c

private theorem Admits.append {s t : Text} (hs : Closed IsToken s) (h : Admits (s ++ t)) :
    Admits s ∧ Admits t := by
  rw [Admits, hs.separate] at h
  exact ⟨fun c hc => h c (List.mem_append_left _ hc), fun c hc => h c (List.mem_append_right _ hc)⟩

private theorem isBlanks_of_admits {a : Text} (ha : IsSpaces a) (h : Admits a) : IsBlanks a := by
  have hself : outsideStrings a = a :=
    outsideStrings_of_plain fun c hc => (isToken_spaces ha c hc).ne_quote
  rw [Admits, hself] at h
  exact fun c hc => (h c hc).1 (ha c hc)

private theorem exists_of_mark_of_admits {mark : Char} {m : Text}
    (hmark : isFixed (Code.ofChar mark) = true) (hm : IsMark mark m) (h : Admits m) :
    ∃ a b, IsBlanks a ∧ IsBlanks b ∧ m = a ++ Code.ofChar mark :: b := by
  have htokens := isToken_mark hmark hm
  obtain ⟨a, b, ha, hb, rfl⟩ := hm
  have ha' := Admits.append (closed_spaces ha) h
  have hsingle : Closed IsToken [Code.ofChar mark] :=
    closed_tokens fun c hc => htokens c (by simp [List.mem_singleton.mp hc])
  have hb' := Admits.append hsingle ha'.2
  exact ⟨a, b, isBlanks_of_admits ha ha'.1, isBlanks_of_admits hb hb'.2, rfl⟩

/-- The part of the standard that a symbol corresponds to. -/
def Symbol.part : Symbol → Part
  | .value => .element
  | .bare => .element
  | .items => .elements
  | .member => .member
  | .members => .members

private theorem written_literal {t : Text} (h : Written .value t) : Written .element t := by
  simpa using Written.element isBlanks_nil h isBlanks_nil

/-- White space around the two marks goes inside or outside. -/
private theorem written_bracketed {opening closing : Char} {o t c : Text}
    (hopening : isFixed (Code.ofChar opening) = true)
    (hclosing : isFixed (Code.ofChar closing) = true) (ho : IsMark opening o)
    (hc : IsMark closing c) (ht : Closed IsToken t) (hadmits : Admits (o ++ (t ++ c)))
    (h : ∀ a b, IsBlanks a → IsBlanks b → Admits t →
      Written .value (Code.ofChar opening :: ((a ++ (t ++ b)) ++ [Code.ofChar closing]))) :
    Written .element (o ++ (t ++ c)) := by
  obtain ⟨ho', hrest⟩ := Admits.append (closed_mark hopening ho) hadmits
  obtain ⟨ht', hc'⟩ := Admits.append ht hrest
  obtain ⟨a, b, ha, hb, rfl⟩ := exists_of_mark_of_admits hopening ho ho'
  obtain ⟨a', b', ha', hb', rfl⟩ := exists_of_mark_of_admits hclosing hc hc'
  have helement := Written.element ha (h b a' hb ha' ht') hb'
  simpa only [List.append_assoc, List.cons_append, List.nil_append] using helement

/-- White space around a comma goes to the parts. -/
private theorem written_list {p : Part} {t m u : Text} (hm : IsMark ',' m)
    (ht : Closed IsToken t) (hadmits : Admits (t ++ (m ++ u)))
    (h : ∀ a b, IsBlanks a → IsBlanks b → Admits t → Admits u →
      Written p ((t ++ a) ++ Code.ofChar ',' :: (b ++ u))) :
    Written p (t ++ (m ++ u)) := by
  obtain ⟨ht', hrest⟩ := Admits.append ht hadmits
  obtain ⟨hm', hu'⟩ := Admits.append (closed_mark (by decide) hm) hrest
  obtain ⟨a, b, ha, hb, rfl⟩ := exists_of_mark_of_admits (by decide) hm hm'
  have hlist := h a b ha hb ht' hu'
  simpa only [List.append_assoc, List.cons_append] using hlist

/-- What is derived is written by the standard if all that it has outside is admitted. -/
theorem written_of_derives {fits : Text → Prop} {s : Symbol} {t : Text} {m : s.Meaning}
    (h : Derives fits s t m) (hadmits : Admits t) : Written s.part t := by
  -- The standard has white space around values and names, a derivation also has it around marks.  So
  -- each case hands the white space of its marks over to what stands next to them.
  have hnumber : ∀ {w : Text}, IsNumber w → Admits w → Written .element w := by
    intro w hw hadmits
    have hself : outsideStrings w = w :=
      outsideStrings_of_plain fun c hc => (isToken_number hw c hc).ne_quote
    rw [Admits, hself] at hadmits
    exact written_literal (.number hw fun c hc => (hadmits c hc).2)
  induction h with
  | value ha ht hb ih =>
    obtain ⟨ha', hrest⟩ := Admits.append (closed_spaces ha) hadmits
    obtain ⟨ht', hb'⟩ := Admits.append (closed_of_derives ht) hrest
    exact (ih ht').pad (by decide) (isBlanks_of_admits ha ha') (isBlanks_of_admits hb hb')
  | null => exact written_literal .null
  | true => exact written_literal .true
  | false => exact written_literal .false
  | integer hminus hwhole _ =>
    have hw := IsNumber.mk hminus hwhole .none .none
    simp only [List.append_nil] at hw
    exact hnumber hw hadmits
  | float hminus hwhole hfraction hexponent _ _ =>
    exact hnumber (.mk hminus hwhole hfraction hexponent) hadmits
  | string hbody => exact written_literal (.string hbody)
  | emptyArray ho hc =>
    refine @written_bracketed '[' ']' _ [] _ (by decide) (by decide) ho hc
      (closed_tokens fun c hc => by cases hc) hadmits fun a b ha hb _ => ?_
    exact .emptyArray (IsBlanks.append ha hb)
  | array ho ht hc ih =>
    refine written_bracketed (by decide) (by decide) ho hc (closed_of_derives ht) hadmits
      fun a b ha hb ht' => ?_
    exact .array ((ih ht').pad (by decide) ha hb)
  | emptyObject ho hc =>
    refine @written_bracketed '\x7b' '\x7d' _ [] _ (by decide) (by decide) ho hc
      (closed_tokens fun c hc => by cases hc) hadmits fun a b ha hb _ => ?_
    exact .emptyObject (IsBlanks.append ha hb)
  | object ho ht hc ih =>
    refine written_bracketed (by decide) (by decide) ho hc (closed_of_derives ht) hadmits
      fun a b ha hb ht' => ?_
    exact .object ((ih ht').pad (by decide) ha hb)
  | item _ ih => exact .lastElement (ih hadmits)
  | items ht hm _ iht ihu =>
    refine written_list hm (closed_of_derives ht) hadmits fun a b ha hb ht' hu' => ?_
    exact .elements ((iht ht').pad_back (by decide) ha) ((ihu hu').pad_front (by decide) hb)
  | member ha hbody hm ht ih =>
    obtain ⟨ha', hrest⟩ := Admits.append (closed_spaces ha) hadmits
    obtain ⟨-, hrest⟩ := Admits.append (Closed.string hbody) hrest
    obtain ⟨hm', ht'⟩ := Admits.append (closed_mark (by decide) hm) hrest
    obtain ⟨a', b', hblanks, hblanks', rfl⟩ := exists_of_mark_of_admits (by decide) hm hm'
    have hmember := Written.member (isBlanks_of_admits ha ha') hbody hblanks
      ((ih ht').pad_front (by decide) hblanks')
    rw [List.append_assoc a', List.cons_append]
    exact hmember
  | lastMember _ ih => exact .lastMember (ih hadmits)
  | members ht hm _ iht ihu =>
    refine written_list hm (closed_of_derives ht) hadmits fun a b ha hb ht' hu' => ?_
    exact .members ((iht ht').pad_back (by decide) ha) ((ihu hu').pad_front (by decide) hb)

/-- A document is JSON by the standard exactly if it has no white space and no digits outside of its
string literals but those of the standard. -/
theorem isStandard_iff_admits {fits : Text → Prop} {t : Text} {v : Value} (h : IsDocument fits t v) :
    IsStandard t ↔ Admits t :=
  ⟨fun hstandard c hc => ((closed_of_written hstandard).outside c hc).2, written_of_derives h⟩

/-- What is read is JSON by the standard exactly if all its white space outside of string literals is
that of the standard and all its digits there are those of ASCII. -/
theorem isStandard_iff_of_readWithin {limit : Nat} {t : Text} {traced : Bool} {v : Value}
    (h : (readWithin limit t traced).ending = .ok v) :
    IsStandard t ↔ ∀ c ∈ outsideStrings t,
      (c.isSpace = true → isBlank c = true) ∧ (c.isDecimal = true → c.isAsciiDigit = true) :=
  isStandard_iff_admits (isDocument_of_readWithin h)

private theorem isDocument_one {a : Text} (ha : IsSpaces a) :
    IsDocument FitsLimit (a ++ Text.ofString "1") (.int 1) := by
  have hone : Derives FitsLimit .bare (Text.ofString "1") (.int 1) :=
    .integer (Or.inl rfl) (.digits (by decide) (by decide) fun d hd => by cases hd)
      (by unfold FitsLimit; decide)
  have hvalue := Derives.value ha hone isSpaces_nil
  rwa [List.append_nil] at hvalue

/-- A number behind a tab is JSON. -/
theorem isStandard_behind_tab :
    (readWithin 1 (Code.ofChar '\t' :: Text.ofString "1") false).ending = .ok (.int 1) ∧
      IsStandard (Code.ofChar '\t' :: Text.ofString "1") := by
  have hspaces : IsSpaces [Code.ofChar '\t'] := fun c hc => by
    obtain rfl := List.mem_singleton.mp hc
    decide
  have hlimit : openings (Code.ofChar '\t' :: Text.ofString "1") < 1 := by decide
  have hread := readWithin_of_isDocument hlimit false (isDocument_one hspaces)
  refine ⟨hread, (isStandard_iff_of_readWithin hread).mpr fun c hc => ?_⟩
  have hself : outsideStrings (Code.ofChar '\t' :: Text.ofString "1") =
      [Code.ofChar '\t', Code.ofChar '1'] := by decide
  rw [hself] at hc
  rcases List.mem_pair.mp hc with rfl | rfl <;> decide

/-- A number behind a no-break space is read, and is no JSON. -/
theorem read_behind_no_break_space :
    (read (Code.ofNat 0xA0 :: Text.ofString "1") false).ending = .ok (.int 1) ∧
      ¬IsStandard (Code.ofNat 0xA0 :: Text.ofString "1") := by
  have hspaces : IsSpaces [Code.ofNat 0xA0] := fun c hc => by
    obtain rfl := List.mem_singleton.mp hc
    decide
  have hdocument := isDocument_one hspaces
  refine ⟨readWithin_of_isDocument (by decide) false hdocument, fun hstandard => ?_⟩
  have hadmits := (isStandard_iff_admits hdocument).mp hstandard
  have hblank := (hadmits (Code.ofNat 0xA0) (by decide)).1 (by decide)
  revert hblank
  decide

end Descent.Json
