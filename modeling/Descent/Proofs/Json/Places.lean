import Descent.Proofs.Grammar.OnText
import Descent.Proofs.Json.Completeness

/-!
Where the readings of JSON texts stop.  From the start of a value the grammar comes to the start of
another one only by way of the bracket or the brace that opens the first.  So whatever stops a
reading does so at a place that is reached by such ways: there an integer begins that is too long,
or the entries have been used up.
-/

set_option autoImplicit false
set_option relaxedAutoImplicit false

namespace Descent.Json

open Descent.Parser

/-- What lies between the start of an array or an object and the start of a value directly in it:
all values or members before that one are there, each with a comma behind it. -/
inductive LeadsIn : Text → Prop where
  | item {o u : Text} :
    IsMark '[' o → Leading (fun t => ∃ v, Derives FitsLimit .value t v) (IsMark ',') u →
    LeadsIn (o ++ u)
  | member {o u k name : Text} :
    IsMark '\x7b' o → Leading (fun t => ∃ e, Derives FitsLimit .member t e) (IsMark ',') u →
    IsKey k name → LeadsIn (o ++ (u ++ k))

/-- At the start of a text is a number literal that is an integer, and it has so many digits that it
is not read. -/
def BeginsLongInteger (t : Text) (n : Nat) : Prop :=
  ∃ minus whole, IsMinus minus ∧ IsWhole whole ∧
    numberPattern.matched? t = some (minus ++ whole) ∧ whole.length = n ∧ Numeral.digitLimit < n

/-- An integer with too many digits is the value with which a text begins, or is inside that value
behind nothing but what can be read. -/
inductive HoldsLongInteger : Text → Nat → Prop where
  | here {a t : Text} {n : Nat} : IsSpaces a → BeginsLongInteger t n → HoldsLongInteger (a ++ t) n
  | inside {u t : Text} {n : Nat} : LeadsIn u → HoldsLongInteger t n → HoldsLongInteger (u ++ t) n

theorem IsMark.ne_nil {mark : Char} {m : Text} (hm : IsMark mark m) : m ≠ [] := by
  obtain ⟨a, b, -, -, rfl⟩ := hm
  simp

/-- White space in front of a mark belongs to it. -/
theorem IsMark.spaces {mark : Char} {a m : Text} (ha : IsSpaces a) (hm : IsMark mark m) :
    IsMark mark (a ++ m) := by
  obtain ⟨b, c, hb, hc, rfl⟩ := hm
  refine ⟨a ++ b, c, ?_, hc, by rw [List.append_assoc]⟩
  intro d hd
  rcases List.mem_append.mp hd with hd | hd
  · exact ha d hd
  · exact hb d hd

theorem LeadsIn.spaces {a u : Text} (ha : IsSpaces a) (hu : LeadsIn u) : LeadsIn (a ++ u) := by
  cases hu with
  | item ho hlist =>
    rw [← List.append_assoc]
    exact .item (ho.spaces ha) hlist
  | member ho hlist hk =>
    rw [← List.append_assoc]
    exact .member (ho.spaces ha) hlist hk

/-- One more bracket or brace is open for every step inside. -/
theorem LeadsIn.openings_pos {u : Text} (hu : LeadsIn u) : 0 < openings u := by
  cases hu with
  | item ho _ =>
    have hmark := openings_mark ho (Or.inl rfl)
    rw [openings_append]
    omega
  | member ho _ _ =>
    have hmark := openings_mark ho (Or.inr rfl)
    rw [openings_append]
    omega

theorem LeadsIn.length_pos {u : Text} (hu : LeadsIn u) : 0 < u.length := by
  have hpos := hu.openings_pos
  have hle : openings u ≤ u.length := List.countP_le_length
  omega

section Faults

variable {onEnter : CellId → Parser} {cell : CellId} {whole x : Text} {F : Fault → Prop}

/-! With what the parts of the grammar can stop at a place. -/

theorem stopsOnly_spaces (hx : x <:+ whole) :
    (Grammar.spaces.parser onEnter (.before whole x)).StopsOnly F :=
  stopsOnly_of_accepts hx (accepts_spaces x)

theorem stopsOnly_mark (mark : Char) (hx : x <:+ whole) :
    (markParser onEnter mark (.before whole x)).StopsOnly F := by
  by_cases h : ∃ y, trim x = Code.ofChar mark :: y
  · obtain ⟨y, hy⟩ := h
    exact stopsOnly_of_accepts hx (accepts_mark hy)
  · exact stopsOnly_of_rejects hx (rejects_mark fun y hy => h ⟨y, hy⟩)

/-- Every string literal denotes a text. -/
theorem stopsOnly_string (hx : x <:+ whole) :
    (string.parser onEnter (.before whole x)).StopsOnly F := by
  cases hmatch : stringPattern.matched? x with
  | none => exact stopsOnly_of_rejects hx (((Rejects.pattern hmatch).cause _).transform _)
  | some w =>
    obtain ⟨body, decoded, u, hbody, rfl, rfl⟩ := matched?_stringPattern.mp hmatch
    exact stopsOnly_of_accepts hx (accepts_string hbody u)

theorem stopsOnly_key (hx : x <:+ whole) : (keyParser onEnter (.before whole x)).StopsOnly F := by
  have hnone : (Parser.result .null).ReadsOnly fun w _ => w = [] := ReadsOnly.result .null rfl
  have hstring : (Parser.right (Grammar.spaces.parser onEnter)
      (string.parser onEnter)).ReadsOnly fun _ _ => True :=
    ReadsOnly.right readsOnly_spaces readsOnly_string fun _ _ _ _ _ _ => trivial
  refine stopsOnly_between hx (stopsOnly_result _ _) hnone ?_ hstring fun y hy =>
    stopsOnly_mark ':' hy
  intro a o y hxy _
  have hy : y <:+ whole := (List.suffix_append a y).trans (hxy ▸ hx)
  refine stopsOnly_right hy (stopsOnly_spaces hy) readsOnly_spaces fun w v z hyz _ => ?_
  exact stopsOnly_string ((List.suffix_append w z).trans (hyz ▸ hy))

theorem stops_number {w y : Text} {f : Fault} (hx : w ++ y <:+ whole)
    (hmatch : numberPattern.matched? (w ++ y) = some w) (hf : toNumber w = .error f) :
    (number.parser onEnter).Stops whole (w ++ y) f :=
  Stops.transform_of_accepts hx ((Accepts.pattern hmatch).cause _) hf

theorem stopsOnly_number (hx : x <:+ whole)
    (hF : ∀ n, BeginsLongInteger x n → F (.tooManyDigits n)) :
    (number.parser onEnter (.before whole x)).StopsOnly F := by
  cases hmatch : numberPattern.matched? x with
  | none => exact stopsOnly_of_rejects hx (((Rejects.pattern hmatch).cause _).transform _)
  | some w =>
    obtain ⟨y, rfl⟩ := Pattern.eq_append_of_matched? hmatch
    cases hnumber : toNumber w with
    | ok v =>
      have haccepts : (number.parser onEnter).Accepts (w ++ y) v y :=
        ((Accepts.pattern hmatch).cause _).transform hnumber
      exact stopsOnly_of_accepts hx haccepts
    | error f =>
      have hw : IsNumber w := isNumber_of_scanNumber ((matched?_numberPattern _).symm.trans hmatch)
      have hstops := @stops_number onEnter _ _ _ _ hx hmatch hnumber
      obtain ⟨minus, digits, hminus, hdigits, rfl, hlong, rfl⟩ :=
        exists_of_toNumber_eq_error hw hnumber
      have hF' := hF _ ⟨minus, digits, hminus, hdigits, hmatch, rfl, hlong⟩
      intro f hf
      obtain rfl := Except.error.inj (hstops.symm.trans hf)
      exact hF'

private theorem stopsOnly_replace (s : String) (v : Value) (hx : x <:+ whole) :
    (((word s).replace v).parser onEnter (.before whole x)).StopsOnly F := by
  have hword : ((word s).parser onEnter).ReadsOnly fun w _ => w = Text.ofString s :=
    readsOnly_word s
  refine stopsOnly_transform hx (stopsOnly_lit _ _) hword ?_
  intro w v' y e _ _ he
  cases he

theorem stopsOnly_bool (hx : x <:+ whole) : (bool.parser onEnter (.before whole x)).StopsOnly F := by
  refine stopsOnly_choice (stopsOnly_replace "true" _ hx) fun q hq => ?_
  obtain rfl := List.mem_singleton.mp hq
  exact stopsOnly_replace "false" _ hx

section Cell

variable (hcell : (onEnter cell).ReadsOnly (Derives FitsLimit .value)) (hx : x <:+ whole)
  (hinside : ∀ u y, x = u ++ y → LeadsIn u → (onEnter cell (.before whole y)).StopsOnly F)

include hcell hx hinside

theorem stopsOnly_array : ((array cell).parser onEnter (.before whole x)).StopsOnly F := by
  have hvalues : (onEnter cell).ReadsOnly fun t _ => ∃ v, Derives FitsLimit .value t v :=
    hcell.mono fun t v h => ⟨v, h⟩
  rw [parser_array]
  refine stopsOnly_between hx (stopsOnly_mark '[' hx) (readsOnly_mark '[') ?_ (readsOnly_items hcell)
    fun y hy => stopsOnly_mark ']' hy
  intro o c y hxy ho
  have hy : y <:+ whole := (List.suffix_append o y).trans (hxy ▸ hx)
  refine stopsOnly_orElse ?_ _
  refine stopsOnly_sepBy1 hy hvalues (readsOnly_mark ',') (fun m hm => hm.ne_nil) ?_
    fun z hz => stopsOnly_mark ',' hz
  intro u z hyz hu
  refine hinside (o ++ u) z ?_ (.item ho hu)
  rw [hxy, hyz, List.append_assoc]

theorem stopsOnly_object : ((object cell).parser onEnter (.before whole x)).StopsOnly F := by
  have hmembers : ((member cell).parser onEnter).ReadsOnly fun t _ =>
      ∃ e, Derives FitsLimit .member t e :=
    (readsOnly_member hcell).mono fun t v ⟨e, he, _⟩ => ⟨e, he⟩
  have hbraces : (Parser.between (markParser onEnter '\x7b') (membersParser onEnter cell)
      (markParser onEnter '\x7d')).ReadsOnly fun _ v =>
        ∃ es : List (Text × Value), v = .list (es.map fun e => Value.pair (.str e.1) e.2) := by
    refine ReadsOnly.between (readsOnly_mark '\x7b') (readsOnly_members hcell)
      (readsOnly_mark '\x7d') ?_
    rintro a o w v b c _ ⟨es, rfl, _⟩ _
    exact ⟨es, rfl⟩
  rw [parser_object]
  refine stopsOnly_transform hx ?_ hbraces ?_
  · refine stopsOnly_between hx (stopsOnly_mark '\x7b' hx) (readsOnly_mark '\x7b') ?_
      (readsOnly_members hcell) fun y hy => stopsOnly_mark '\x7d' hy
    intro o c y hxy ho
    have hy : y <:+ whole := (List.suffix_append o y).trans (hxy ▸ hx)
    refine stopsOnly_orElse ?_ _
    refine stopsOnly_sepBy1 hy hmembers (readsOnly_mark ',') (fun m hm => hm.ne_nil) ?_
      fun z hz => stopsOnly_mark ',' hz
    intro u z hyz hu
    have hz : z <:+ whole := (List.suffix_append u z).trans (hyz ▸ hy)
    rw [parser_member]
    refine stopsOnly_seq hz (stopsOnly_key hz) readsOnly_key ?_
    rintro k v z' hzk ⟨name, hk, _⟩
    refine hinside (o ++ (u ++ k)) z' ?_ (.member ho hu hk)
    rw [hxy, hyz, hzk]
    simp only [List.append_assoc]
  · rintro w v y e _ ⟨es, rfl⟩ he
    rw [Value.toDict_members] at he
    cases he

end Cell

/-- The rule of values stops only at an integer that is too long, or where the cell that it enters
stops at the start of a value inside. -/
theorem stopsOnly_valueRule (hcell : (onEnter cell).ReadsOnly (Derives FitsLimit .value))
    (hx : x <:+ whole)
    (hnumber : ∀ a y n, x = a ++ y → IsSpaces a → BeginsLongInteger y n → F (.tooManyDigits n))
    (hinside : ∀ u y, x = u ++ y → LeadsIn u → (onEnter cell (.before whole y)).StopsOnly F) :
    ((valueRule cell).parser onEnter (.before whole x)).StopsOnly F := by
  rw [parser_valueRule]
  refine stopsOnly_between hx (stopsOnly_spaces hx) readsOnly_spaces ?_
    (readsOnly_alternatives hcell) fun y hy => stopsOnly_spaces hy
  intro a o y hxy ha
  have hy : y <:+ whole := (List.suffix_append a y).trans (hxy ▸ hx)
  have hdeeper : ∀ u z, y = u ++ z → LeadsIn u → (onEnter cell (.before whole z)).StopsOnly F := by
    intro u z hyz hu
    refine hinside (a ++ u) z ?_ (hu.spaces ha)
    rw [hxy, hyz, List.append_assoc]
  refine stopsOnly_choice (stopsOnly_object hcell hy hdeeper) fun q hq => ?_
  simp only [List.mem_cons, List.not_mem_nil, or_false] at hq
  rcases hq with rfl | rfl | rfl | rfl | rfl
  · exact stopsOnly_array hcell hy hdeeper
  · exact stopsOnly_string hy
  · exact stopsOnly_number hy fun n hn => hnumber a y n hxy ha hn
  · exact stopsOnly_bool hy
  · exact stopsOnly_replace "null" _ hy

end Faults

/-- Under any limit an entry stops only where the limit is reached, which takes as many openings, or
at an integer that is too long. -/
theorem stopsOnly_enter (limit : Nat) {whole x : Text} (hx : x <:+ whole) :
    (documentStore.enter limit 0 (.before whole x)).StopsOnly fun f =>
      f = .tooDeep ∧ limit ≤ openings x ∨ ∃ n, f = .tooManyDigits n ∧ HoldsLongInteger x n := by
  -- The entries inside have one less of the limit left, and an opening in front of them.
  induction limit generalizing x with
  | zero => exact Run.stopsOnly_stop (Or.inl ⟨rfl, Nat.zero_le _⟩)
  | succ limit ih =>
    refine stopsOnly_valueRule (readsOnly_enter limit) hx ?_ ?_
    · intro a y n hxy ha hy
      rw [hxy]
      exact Or.inr ⟨n, rfl, .here ha hy⟩
    · intro u y hxy hu
      have hy : y <:+ whole := (List.suffix_append u y).trans (hxy ▸ hx)
      refine (ih hy).mono fun f hf => ?_
      rw [hxy]
      rcases hf with ⟨rfl, hle⟩ | ⟨n, rfl, hn⟩
      · have hpos := hu.openings_pos
        refine Or.inl ⟨rfl, ?_⟩
        rw [openings_append]
        omega
      · exact Or.inr ⟨n, rfl, .inside hu hn⟩

section Stops

variable {onEnter : CellId → Parser} {cell : CellId} {limit n : Nat} {whole x y u : Text} {f : Fault}

/-! The other direction: what lies on the way to such a place is read, and then the reading stops. -/

/-- What stops behind a mark stops behind it between two marks. -/
private theorem stops_bracketed {opening closing : Char} {o : Text} {p : Parser}
    (hopening : IsVisible (Code.ofChar opening)) (ho : IsMark opening o) (hx : x <:+ whole)
    (htrim : trim x = trim (o ++ y)) (hp : trim y <:+ whole → p.Stops whole (trim y) f) :
    (Parser.between (markParser onEnter opening) p (markParser onEnter closing)).Stops whole x f := by
  obtain ⟨z, hz, hzy⟩ := trim_mark hopening ho y
  have hopen : (markParser onEnter opening).Accepts x (.str [Code.ofChar opening]) (trim z) :=
    accepts_mark (htrim.trans hz)
  rw [hzy] at hopen
  exact (hp (hopen.suffix.trans hx)).between_of_accepts hx hopen _

/-- A value stops if it is an array and the list of its values stops. -/
theorem stops_array {o : Text} (ho : IsMark '[' o) (hx : x <:+ whole) (htrim : trim x = trim (o ++ y))
    (hlist : trim y <:+ whole →
      StopsList (onEnter cell) (markParser onEnter ',') whole f (trim y)) :
    ((valueRule cell).parser onEnter).Stops whole x f := by
  have hx' : trim x <:+ whole := (trim_suffix x).trans hx
  have htrim' : trim (trim x) = trim (o ++ y) := (trim_trim x).trans htrim
  have harray : ((array cell).parser onEnter).Stops whole (trim x) f := by
    rw [parser_array]
    refine stops_bracketed (by decide) ho hx' htrim' fun hy => ?_
    exact ((hlist hy).sepBy1 hy).orElse _
  have hobject : ((object cell).parser onEnter).Rejects (trim x) := by
    obtain ⟨z, hz, -⟩ := trim_mark (by decide) ho y
    refine rejects_object fun y' hy' => ?_
    rw [htrim', hz] at hy'
    exact absurd (List.cons.inj hy').1 (by decide)
  have halternatives : (alternatives onEnter cell).Stops whole (trim x) f :=
    .choice_of_rejects hx' (hobject.labelled _) ((harray.labelled _).choice _)
  exact halternatives.between_of_accepts hx (accepts_spaces x) _

/-- The same of an object and the list of its members. -/
theorem stops_object {o : Text} (ho : IsMark '\x7b' o) (hx : x <:+ whole)
    (htrim : trim x = trim (o ++ y))
    (hlist : trim y <:+ whole →
      StopsList ((member cell).parser onEnter) (markParser onEnter ',') whole f (trim y)) :
    ((valueRule cell).parser onEnter).Stops whole x f := by
  have hx' : trim x <:+ whole := (trim_suffix x).trans hx
  have htrim' : trim (trim x) = trim (o ++ y) := (trim_trim x).trans htrim
  have hobject : ((object cell).parser onEnter).Stops whole (trim x) f := by
    rw [parser_object]
    refine Stops.transform (stops_bracketed (by decide) ho hx' htrim' fun hy => ?_) _
    exact ((hlist hy).sepBy1 hy).orElse _
  have halternatives : (alternatives onEnter cell).Stops whole (trim x) f :=
    (hobject.labelled _).choice _
  exact halternatives.between_of_accepts hx (accepts_spaces x) _

/-- What is accepted under every limit that is greater than the openings of a text is accepted, or
stops where the limit is the only matter. -/
private theorem accepts_or_stops {g : Grammar} {t : Text} {v : Value}
    (h : ∀ n, openings t < n → (g.run documentStore n).Accepts x v y)
    (hlimit : openings t < limit ∨ f = .tooDeep) (hx : x <:+ whole) :
    (∃ v, (g.run documentStore limit).Accepts x v y) ∨ (g.run documentStore limit).Stops whole x f := by
  rcases hlimit with hlt | rfl
  · exact Or.inl ⟨v, h limit hlt⟩
  · have hgreat : openings t < max limit (openings t + 1) := by omega
    exact (Grammar.accepts_or_stops (Nat.le_max_left _ _) (h _ hgreat)).imp (fun hp => ⟨v, hp⟩)
      fun hstops => hstops whole hx

/-- A list stops where the part behind some parts does, unless one of those stops it already. -/
private theorem stopsList_of_leading {p : Parser} {A : Text → Prop}
    (hp : ∀ t, A t → openings t < limit ∨ f = .tooDeep → ∀ x u, x <:+ whole →
      trim x = trim (t ++ u) → EndsValue u → (∃ v, p.Accepts x v (trim u)) ∨ p.Stops whole x f)
    (hu : Leading A (IsMark ',') u) (hlimit : openings u < limit ∨ f = .tooDeep)
    (hstops : ∀ x', x' <:+ whole → trim x' = trim y → p.Stops whole x' f) (hx : x <:+ whole)
    (htrim : trim x = trim (u ++ y)) :
    StopsList p (markParser (documentStore.enter limit) ',') whole f x := by
  induction hu generalizing x with
  | nil => exact .here (hstops x hx htrim)
  | @cons t m u ht hm _ ih =>
    simp only [openings_append] at hlimit
    obtain ⟨z, hz, hzu⟩ := trim_mark (by decide) hm (u ++ y)
    have hstart : trim x = trim (t ++ (m ++ (u ++ y))) := by
      rw [htrim]
      simp only [List.append_assoc]
    have hcomma : trim (trim (m ++ (u ++ y))) = Code.ofChar ',' :: z := by rw [trim_trim, hz]
    have hpart : openings t < limit ∨ f = .tooDeep := hlimit.imp_left fun hlt => by omega
    have hbehind : openings u < limit ∨ f = .tooDeep := hlimit.imp_left fun hlt => by omega
    rcases hp t ht hpart x (m ++ (u ++ y)) hx hstart (endsValue_comma hm _) with ⟨v, hv⟩ | hstop
    · have hsep : (markParser (documentStore.enter limit) ',').Accepts (trim (m ++ (u ++ y)))
          (.str [Code.ofChar ',']) (trim z) := accepts_mark hcomma
      have hrest : StopsList p (markParser (documentStore.enter limit) ',') whole f (trim z) :=
        ih hbehind (hsep.suffix.trans (hv.suffix.trans hx)) (by rw [trim_trim, hzu])
      exact .later hv hsep (length_trim_lt hcomma) hrest
    · exact .here hstop

/-- An entry stops if the value begins with what leads to a place where the entry inside stops.  If
that one is too deep, it does not matter whether what leads to it is too deep already. -/
theorem stops_of_leadsIn (hu : LeadsIn u) (hlimit : openings u ≤ limit ∨ f = .tooDeep)
    (hx : x <:+ whole) (htrim : trim x = trim (u ++ y))
    (hstops : ∀ x', x' <:+ whole → trim x' = trim y →
      (documentStore.enter limit 0).Stops whole x' f) :
    (documentStore.enter (limit + 1) 0).Stops whole x f := by
  cases hu with
  | @item o u ho hu =>
    have hmark := openings_mark ho (Or.inl rfl)
    rw [openings_append] at hlimit
    rw [List.append_assoc] at htrim
    refine stops_array ho hx htrim fun hy => ?_
    refine stopsList_of_leading ?_ hu (hlimit.imp_left fun hle => by omega) hstops hy (trim_trim _)
    rintro t ⟨v, hv⟩ ht x u hx hxu hends
    have haccepts : ∀ n, openings t < n →
        ((Grammar.enter 0).run documentStore n).Accepts x v (trim u) :=
      fun n hn => completes_of_derives hv n x u hn hxu hends
    exact accepts_or_stops haccepts ht hx
  | @member o u k name ho hu hk =>
    have hmark := openings_mark ho (Or.inr rfl)
    rw [openings_append, openings_append] at hlimit
    simp only [List.append_assoc] at htrim
    refine stops_object ho hx htrim fun hy => ?_
    refine stopsList_of_leading ?_ hu (hlimit.imp_left fun hle => by omega) ?_ hy (trim_trim _)
    · rintro t ⟨e, he⟩ ht x u hx hxu hends
      have haccepts : ∀ n, openings t < n →
          ((member 0).run documentStore n).Accepts x (Value.pair (.str e.1) e.2) (trim u) :=
        fun n hn => completes_of_derives he n x u hn hxu hends
      exact accepts_or_stops haccepts ht hx
    · intro x' hx' htrim'
      have hkey : (keyParser (documentStore.enter limit)).Accepts x' (.str name) (trim y) :=
        accepts_key hk htrim'
      rw [parser_member]
      exact .seq_of_accepts hx' hkey (hstops (trim y) (hkey.suffix.trans hx') (trim_trim y))

/-- An entry stops at a long integer, if enough entries are allowed inside it. -/
theorem stops_of_holdsLongInteger {t : Text} (h : HoldsLongInteger t n) (hlimit : openings t < limit)
    (hx : x <:+ whole) (htrim : trim x = trim t) :
    (documentStore.enter limit 0).Stops whole x (.tooManyDigits n) := by
  induction h generalizing limit x with
  | @here a t n ha ht =>
    obtain ⟨limit, rfl⟩ := Nat.exists_eq_add_one.mpr (Nat.zero_lt_of_lt hlimit)
    obtain ⟨minus, digits, hminus, hdigits, hmatch, rfl, hlong⟩ := ht
    have hnumber : IsNumber (minus ++ digits) := by
      simpa using IsNumber.mk hminus hdigits .none .none
    obtain ⟨rest, rfl⟩ := Pattern.eq_append_of_matched? hmatch
    have htoNumber : toNumber (minus ++ digits) = .error (.tooManyDigits digits.length) := by
      rw [toNumber_integer hminus hdigits, if_pos hlong]
    obtain ⟨c, more, hcons, hc⟩ := hnumber.exists_cons
    have hstart : trim x = minus ++ digits ++ rest := by
      rw [htrim, trim_append ha, hnumber.trim_append]
    -- A number begins with none of the code points that the alternatives in front of it begin with.
    have hne : ∀ d : Code, d.val < 0x2D ∨ 0x39 < d.val → ∀ y, trim x ≠ d :: y := by
      intro d hd y hy
      rw [hstart, hcons] at hy
      exact ne_of_startsNumber hc hd (List.cons.inj hy).1
    have hx' : trim x <:+ whole := (trim_suffix x).trans hx
    have hobject : ((object 0).parser (documentStore.enter limit)).Rejects (trim x) :=
      rejects_object fun y hy => hne _ (by decide) y ((trim_trim x).symm.trans hy)
    have harray : ((array 0).parser (documentStore.enter limit)).Rejects (trim x) :=
      rejects_array fun y hy => hne _ (by decide) y ((trim_trim x).symm.trans hy)
    have hstring : (string.parser (documentStore.enter limit)).Rejects (trim x) :=
      rejects_string (hne quote (by decide))
    have hstops : (number.parser (documentStore.enter limit)).Stops whole (trim x)
        (.tooManyDigits digits.length) := by
      rw [hstart] at hx' ⊢
      exact stops_number hx' hmatch htoNumber
    have halternatives : (alternatives (documentStore.enter limit) 0).Stops whole (trim x)
        (.tooManyDigits digits.length) :=
      .choice_of_rejects hx' (hobject.labelled _) (.choice_of_rejects hx' (harray.labelled _)
        (.choice_of_rejects hx' (hstring.labelled _) ((hstops.labelled _).choice _)))
    exact halternatives.between_of_accepts hx (accepts_spaces x) _
  | @inside u t n hu _ ih =>
    have hpos := hu.openings_pos
    rw [openings_append] at hlimit
    obtain ⟨limit, rfl⟩ := Nat.exists_eq_add_one.mpr (Nat.zero_lt_of_lt hlimit)
    exact stops_of_leadsIn hu (Or.inl (by omega)) hx htrim fun x' hx' htrim' =>
      ih (by omega) hx' htrim'

end Stops

end Descent.Json
