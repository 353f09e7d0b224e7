import Mathlib.Logic.Equiv.Defs
import Descent.Proofs.Grammar.Spaces
import Descent.Proofs.Json.Documents
import Descent.Proofs.Parser.Agreement

/-!
The alternatives of a value.  The first code point behind white space shows of which kind a value
can be, and the alternatives of all other kinds fail there.  So the order of the alternatives, in
the cell that all the values inside enter too, does not decide what is read; it decides only what is
reported of a text that is not.
-/

set_option autoImplicit false
set_option relaxedAutoImplicit false

namespace Descent

/-- The first code point that is left to read. -/
def Input.head? (i : Input) : Option Code :=
  i.rest.text?.bind List.head?

theorem Input.head?_of_rest {i : Input} {c : Code} {u : Text} (h : i.rest = .text (c :: u)) :
    i.head? = some c := by
  rw [head?, h]
  rfl

theorem Input.behindSpaces_of_head? {i : Input} {c : Code} (h : i.head? = some c)
    (hc : c.isSpace = false) : i.behindSpaces = i := by
  have hnone : (i.rest.text?.getD []).takeWhile Code.isSpace = [] := by
    rw [head?] at h
    rcases hrest : i.rest.text? with _ | ⟨_ | ⟨d, u⟩⟩ <;> rw [hrest] at h
    · rfl
    · rfl
    · obtain rfl := Option.some.inj h
      exact List.takeWhile_cons_of_neg (by simp [hc])
  rw [behindSpaces, hnone]
  exact i.advance_zero

namespace Json

/-- The kinds of values. -/
inductive Kind where
  | object
  | array
  | string
  | number
  | bool
  | null

namespace Kind

/-- The grammar of the values of a kind, with the values inside of what a cell holds. -/
def grammar (cell : CellId) : Kind → Grammar
  | object => Json.object cell
  | array => Json.array cell
  | string => Json.string
  | number => Json.number
  | bool => Json.bool
  | null => Json.null

/-- The label of a kind. -/
def label : Kind → Text
  | object => Text.ofString "object"
  | array => Text.ofString "array"
  | string => Text.ofString "string"
  | number => Text.ofString "number"
  | bool => Text.ofString "bool"
  | null => Text.ofString "null"

/-- The kind of the values that begin with a code point. -/
def startedBy? (c : Code) : Option Kind :=
  if c = Code.ofChar '\x7b' then some object
  else if c = Code.ofChar '[' then some array
  else if c = Code.ofChar '"' then some string
  else if c = Code.ofChar '-' ∨ 0x30 ≤ c.val ∧ c.val ≤ 0x39 then some number
  else if c = Code.ofChar 't' ∨ c = Code.ofChar 'f' then some bool
  else if c = Code.ofChar 'n' then some null
  else none

/-- The kind of the value that may come next. -/
def ahead? (i : Input) : Option Kind :=
  i.behindSpaces.head?.bind startedBy?

end Kind

/-- An order of the alternatives: the kinds by their places. -/
abbrev Order := Fin 6 ≃ Kind

/-- What a cell of values holds if its alternatives are in an order. -/
def valueRuleIn (order : Order) (cell : CellId) : Grammar :=
  .between .spaces
    (.choice 4 fun k => .labelled ((order k).grammar cell) (order k).label) .spaces

/-- The store whose only cell is that of the values, with the alternatives in an order. -/
def storeIn (order : Order) : Store :=
  (Store.empty.allocate (some (valueRuleIn order 0))).2

/-- Reads a document as `readWithin` does, but with the alternatives in another order. -/
def readInOrder (order : Order) (limit : Nat) (t : Text) (traced : Bool) : Reading :=
  Reading.ofRun (documentGrammar.run (storeIn order) limit ⟨.text t, 0, traced⟩)

/-- The order in which the alternatives are written. -/
def writtenOrder : Order where
  toFun
    | 0 => .object
    | 1 => .array
    | 2 => .string
    | 3 => .number
    | 4 => .bool
    | 5 => .null
  invFun
    | .object => 0
    | .array => 1
    | .string => 2
    | .number => 3
    | .bool => 4
    | .null => 5
  left_inv
    | 0 | 1 | 2 | 3 | 4 | 5 => rfl
  right_inv a := by
    cases a <;> rfl

theorem valueRuleIn_writtenOrder (cell : CellId) :
    valueRuleIn writtenOrder cell = valueRule cell := by
  show Grammar.between .spaces (.choice 4 _) .spaces = .between .spaces (.choice 4 _) .spaces
  congr 2
  exact funext fun
    | 0 | 1 | 2 | 3 | 4 | 5 => rfl

theorem readInOrder_writtenOrder : readInOrder writtenOrder = readWithin := by
  funext limit t traced
  rw [readInOrder, storeIn, valueRuleIn_writtenOrder]
  rfl

/-! Which alternative can succeed. -/

section Heads

variable {onEnter : CellId → Parser} {i : Input} {t : Text}

private theorem fails_lit_or (hi : i.data = .text t) (c : Code) (s : Text) :
    (Parser.lit (.text (c :: s)) i).Fails ∨ i.head? = some c := by
  by_cases h : i.rest.StartsWith (.text (c :: s)) ∧ i.data.ShowsRest i.position (c :: s).length
  · have hrest := Input.rest_of_text hi
    rw [hrest, Sequence.startsWith_text] at h
    obtain ⟨u, hu⟩ := h.1
    exact Or.inr (Input.head?_of_rest (hrest.trans (congrArg Sequence.text hu.symm)))
  · exact Or.inl ⟨_, _, congrArg Run.ending ((Parser.lit_ends _ i).2.mpr h)⟩

private theorem fails_mark_or (hi : i.data = .text t) (mark : Char) :
    (markParser onEnter mark i).Fails ∨ i.behindSpaces.head? = some (Code.ofChar mark) := by
  have hword : (Parser.lit (.text (Text.ofString mark.toString)) i.behindSpaces).Fails ∨
      i.behindSpaces.head? = some (Code.ofChar mark) := by
    rw [ofString_mark]
    exact fails_lit_or (i := i.behindSpaces) hi _ _
  rw [markParser, spacedWord, Grammar.run_spacedLit hi]
  exact hword.imp_left fun h => h.onSuccess _

private theorem fails_pattern_or (hi : i.data = .text t) (source why : Text) (shape : Pattern) :
    (Parser.cause (Parser.pattern source shape) why i).Fails ∨
      ∃ u w, i.rest = .text u ∧ shape.matched? u = some w := by
  rw [Parser.cause, Parser.pattern, Input.rest_of_text hi]
  dsimp only
  cases hmatch : shape.matched? (Sequence.onward i.position t) with
  | none => exact Or.inl ⟨_, _, rfl⟩
  | some w => exact Or.inr ⟨_, w, rfl, hmatch⟩

namespace Kind

private theorem ahead?_of_head? {c : Code} (hc : c.isSpace = false) (h : i.head? = some c) :
    ahead? i = startedBy? c := by
  rw [ahead?, i.behindSpaces_of_head? h hc, h]
  rfl

private theorem fails_word_or (hi : i.data = .text t) (s : String) (v : Value) {c : Code}
    {rest : Text} (hs : Text.ofString s = c :: rest) (hc : c.isSpace = false) :
    (((word s).replace v).parser onEnter i).Fails ∨ ahead? i = startedBy? c := by
  have hword : ((word s).parser onEnter i).Fails ∨ i.head? = some c := by
    rw [word, hs]
    exact fails_lit_or hi c rest
  exact hword.imp (fun h => h.onSuccess _) (ahead?_of_head? hc)

variable (onEnter)

/-- The alternative of a kind fails, unless a value of the kind may come next. -/
theorem fails_or_ahead (hi : i.data = .text t) (cell : CellId) (a : Kind) :
    ((a.grammar cell).parser onEnter i).Fails ∨ ahead? i = some a := by
  cases a with
  | object =>
    show ((Json.object cell).parser onEnter i).Fails ∨ _
    rw [parser_object, Parser.transform, Parser.between_eq]
    refine (fails_mark_or hi '\x7b').imp (fun h => (h.onSuccess _).onSuccess _) ?_
    intro h
    rw [ahead?, h]
    rfl
  | array =>
    show ((Json.array cell).parser onEnter i).Fails ∨ _
    rw [parser_array, Parser.between_eq]
    refine (fails_mark_or hi '[').imp (fun h => h.onSuccess _) ?_
    intro h
    rw [ahead?, h]
    rfl
  | string =>
    refine (fails_pattern_or hi _ _ _).imp (fun h => h.onSuccess _) ?_
    rintro ⟨u, w, hrest, hmatch⟩
    obtain ⟨body, decoded, y, -, rfl, rfl⟩ := matched?_stringPattern.mp hmatch
    exact ahead?_of_head? (by decide) (Input.head?_of_rest hrest)
  | number =>
    refine (fails_pattern_or hi _ _ _).imp (fun h => h.onSuccess _) ?_
    rintro ⟨u, w, hrest, hmatch⟩
    obtain ⟨y, rfl⟩ := Pattern.eq_append_of_matched? hmatch
    rw [matched?_numberPattern] at hmatch
    obtain ⟨c, rest, rfl, hc⟩ := (isNumber_of_scanNumber hmatch).exists_cons
    have hne : ∀ d : Code, d.val < 0x2D ∨ 0x39 < d.val → c ≠ d := fun d hd =>
      ne_of_startsNumber hc hd
    have hspace : c.isSpace = false := (isVisible_of_startsNumber hc).isSpace_eq_false
    rw [ahead?_of_head? hspace (Input.head?_of_rest hrest), startedBy?, if_neg (hne _ (by decide)),
      if_neg (hne _ (by decide)), if_neg (hne _ (by decide)), if_pos hc]
  | bool =>
    rcases fails_word_or hi "true" (.bool true) rfl (by decide) with htrue | h
    · rcases fails_word_or hi "false" (.bool false) rfl (by decide) with hfalse | h
      · refine Or.inl (Parser.fails_choice fun r hr => ?_)
        rcases List.mem_cons.mp hr with rfl | hr
        · exact htrue
        · obtain rfl := List.mem_singleton.mp hr
          exact hfalse
      · exact Or.inr h
    · exact Or.inr h
  | null => exact fails_word_or hi "null" .null rfl (by decide)

/-- Of the alternatives of two kinds one fails. -/
theorem eq_or_fails (hi : i.data = .text t) (cell : CellId) (a b : Kind) :
    a = b ∨ ((a.grammar cell).parser onEnter i).Fails ∨
      ((b.grammar cell).parser onEnter i).Fails := by
  rcases fails_or_ahead onEnter hi cell a with ha | ha
  · exact Or.inr (Or.inl ha)
  · rcases fails_or_ahead onEnter hi cell b with hb | hb
    · exact Or.inr (Or.inr hb)
    · exact Or.inl (Option.some.inj (ha.symm.trans hb))

end Kind

end Heads

/-! Other orders.  The labels are left out, since they only add to the trace. -/

private theorem erase_grammar (cell : CellId) (a : Kind) :
    (a.grammar cell).erase = a.grammar cell := by
  cases a with
  | bool =>
    refine congrArg (Grammar.choice 0) (funext fun k => ?_)
    dsimp only
    split <;> rfl
  | _ => rfl

private theorem erase_valueRuleIn (order : Order) (cell : CellId) :
    (valueRuleIn order cell).erase =
      .between .spaces (.choice 4 fun k => (order k).grammar cell) .spaces :=
  congrArg (fun branch => Grammar.between .spaces (.choice 4 branch) .spaces)
    (funext fun k => erase_grammar cell (order k))

/-- The alternatives in an order, without labels. -/
def alternativesIn (order : Order) (onEnter : CellId → Parser) (cell : CellId) : Parser :=
  Parser.choice (((order 0).grammar cell).parser onEnter)
    (List.ofFn fun k : Fin 5 => ((order k.succ).grammar cell).parser onEnter)

/-- Without tracing the labels make no difference. -/
theorem alternatives_eq (onEnter : CellId → Parser) (cell : CellId) (whole x : Text) :
    alternatives onEnter cell (.before whole x) =
      alternativesIn writtenOrder onEnter cell (.before whole x) := by
  unfold alternatives alternativesIn
  rfl

private theorem mem_alternativesIn (order : Order) (onEnter : CellId → Parser) (cell : CellId)
    (r : Parser) :
    r ∈ ((order 0).grammar cell).parser onEnter ::
        List.ofFn (fun k : Fin 5 => ((order k.succ).grammar cell).parser onEnter) ↔
      ∃ a : Kind, (a.grammar cell).parser onEnter = r := by
  rw [← List.ofFn_succ (f := fun k : Fin 6 => ((order k).grammar cell).parser onEnter),
    List.mem_ofFn]
  exact (order.surjective.exists (p := fun a => (a.grammar cell).parser onEnter = r)).symm

/-- The alternatives end as the one does that does not fail. -/
theorem ending_alternativesIn (order : Order) {onEnter : CellId → Parser} {cell : CellId} {i : Input}
    {t : Text} (hi : i.data = .text t) {a : Kind}
    (h : ¬((a.grammar cell).parser onEnter i).Fails) :
    (alternativesIn order onEnter cell i).ending =
      ((a.grammar cell).parser onEnter i).ending := by
  refine Parser.ending_choice ((mem_alternativesIn order onEnter cell _).mpr ⟨a, rfl⟩) h ?_
  intro r hr
  obtain ⟨b, rfl⟩ := (mem_alternativesIn order onEnter cell r).mp hr
  rcases Kind.eq_or_fails onEnter hi cell a b with rfl | ha | hb
  · exact Or.inl rfl
  · exact absurd ha h
  · exact Or.inr hb

variable (order order' : Order)

private theorem alternativesIn_agrees (onEnter : CellId → Parser) (cell : CellId) {i : Input}
    {t : Text} (hi : i.data = .text t) :
    (alternativesIn order onEnter cell i).Agrees (alternativesIn order' onEnter cell i) := by
  refine Parser.choice_agrees (fun r => ?_) fun r hr r' hr' => ?_
  · rw [mem_alternativesIn, mem_alternativesIn]
  · obtain ⟨a, rfl⟩ := (mem_alternativesIn order onEnter cell r).mp hr
    obtain ⟨b, rfl⟩ := (mem_alternativesIn order onEnter cell r').mp hr'
    refine (Kind.eq_or_fails onEnter hi cell a b).imp_left ?_
    rintro rfl
    rfl

/-- Over the same cells the rules of two orders agree: where there is no text, the white space in
front stops them. -/
private theorem erase_valueRuleIn_agrees (onEnter : CellId → Parser) (cell : CellId) :
    ((valueRuleIn order cell).erase.parser onEnter).Agrees
      ((valueRuleIn order' cell).erase.parser onEnter) := by
  have hrule : ∀ order i, (valueRuleIn order cell).erase.parser onEnter i =
      (Grammar.spaces.parser onEnter i).onSuccess fun _ mid =>
        (alternativesIn order onEnter cell mid).onSuccess fun v after =>
          (Grammar.spaces.parser onEnter after).onSuccess fun _ rest =>
            .done (.success v rest) := by
    intro order i
    rw [erase_valueRuleIn]
    exact Parser.between_eq _ _ _ i
  intro i
  rw [hrule order, hrule order']
  rcases i with ⟨t | items | items | data, position, traced⟩
  · rw [Grammar.run_spaces rfl, Run.done_onSuccess, Run.done_onSuccess]
    refine (alternativesIn_agrees order order' onEnter cell rfl).onSuccess fun v after => ?_
    exact .of_ending rfl
  all_goals exact .of_ending rfl

private theorem enter_agrees (limit : Nat) (cell : CellId) :
    ((storeIn order).erase.enter limit cell).Agrees ((storeIn order').erase.enter limit cell) := by
  -- First the cells that are entered are changed, which the induction allows, and then the order.
  induction limit generalizing cell with
  | zero => exact .refl _
  | succ limit ih =>
    by_cases hcell : cell = 0
    · subst hcell
      have hinside : ((valueRuleIn order 0).erase.parser ((storeIn order).erase.enter limit)).Agrees
          ((valueRuleIn order 0).erase.parser ((storeIn order').erase.enter limit)) :=
        Grammar.parser_agrees ih _
      exact hinside.trans (erase_valueRuleIn_agrees order order' _ 0)
    · have hempty : ∀ order, (storeIn order).erase.enter (limit + 1) cell =
          Parser.fault .undefinedCell := by
        intro order
        have hget : (storeIn order).erase.get? cell = none := by
          simp [storeIn, Store.erase, Store.allocate, Store.set, Store.empty, hcell]
        rw [Store.enter, hget]
      rw [hempty, hempty]
      exact .refl _

/-- Readings that end alike: with the same value, with the same fault, or in a report of a malformed
text, whatever it says. -/
inductive Reading.EndAlike : Except Refusal Value → Except Refusal Value → Prop where
  | value (v : Value) : EndAlike (.ok v) (.ok v)
  | fault (f : Fault) : EndAlike (.error (.fault f)) (.error (.fault f))
  | malformed (position position' : Int) (why why' : Text) :
    EndAlike (.error (.malformed position why)) (.error (.malformed position' why'))

private theorem endAlike_ofRun {r s : Run Outcome} (h : r.Agrees s) :
    Reading.EndAlike (Reading.ofRun r).ending (Reading.ofRun s).ending := by
  rcases r with ⟨a, trace⟩
  rcases s with ⟨b, trace'⟩
  rcases h with ⟨-, h⟩
  cases h with
  | ok h =>
    cases h with
    | success v rest => exact .value v
    | failure _ _ _ _ => exact .malformed _ _ _ _
  | error f =>
    cases f with
    | tooDeep => exact .malformed _ _ _ _
    | _ => exact .fault _

private theorem readInOrder_untraced (limit : Nat) (t : Text) (traced : Bool) :
    (readInOrder order limit t traced).ending = (Reading.ofRun
      (documentGrammar.erase.run (storeIn order).erase limit ⟨.text t, 0, false⟩)).ending := by
  have hseen := documentGrammar.seenFrom_untraced (storeIn order) limit (.text t) 0 traced
  have herase := (documentGrammar.run_eq_run_erase (storeIn order) limit (.text t) 0).1
  refine (ending_ofRun_congr hseen).trans (congrArg (fun r => (Reading.ofRun r).ending) herase)

/-- The order of the alternatives does not matter to what is accepted.  On any input over a text, of
the alternatives of two kinds one fails, so at most one succeeds.  And with the alternatives of the
cell of values in any other order every text is read as the same value, stops the reading with the
same fault or is reported as malformed, just as in the order in which they are written. -/
theorem order_of_alternatives (order : Order) :
    (∀ (s : Store) (limit : Nat) (cell : CellId) (t : Text) (position : Int) (traced : Bool)
        (a b : Kind),
      a = b ∨ ((a.grammar cell).run s limit ⟨.text t, position, traced⟩).Fails ∨
        ((b.grammar cell).run s limit ⟨.text t, position, traced⟩).Fails) ∧
    ∀ (limit : Nat) (t : Text) (traced : Bool),
      Reading.EndAlike (readInOrder order limit t traced).ending
        (readWithin limit t traced).ending := by
  constructor
  · intro s limit cell t position traced a b
    exact Kind.eq_or_fails _ rfl cell a b
  · intro limit t traced
    rw [← readInOrder_writtenOrder, readInOrder_untraced, readInOrder_untraced]
    refine endAlike_ofRun (Grammar.parser_agrees ?_ _ _)
    exact fun cell => enter_agrees order writtenOrder limit cell

end Json

end Descent
