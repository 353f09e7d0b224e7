import Descent.Proofs.Grammar.Activations

/-!
Where faults come from.  A fault is raised by one activation and ends all those around it, so a run
ends with a fault exactly if something that it includes raises the fault.  A run on a text whose
functions take all that they are given has three kinds of faults left: an entry that is too deep, an
empty cell, and a repetition of a part that leaves the position where it was.
-/

set_option autoImplicit false
set_option relaxedAutoImplicit false

namespace Descent

/-- The result satisfies a predicate.  Nothing is said of a failure. -/
def Outcome.ResultIs (P : Value → Prop) : Outcome → Prop
  | .success v _ => P v
  | .failure _ _ => True

namespace Activation

open Relation (ReflTransGen)

variable {s : Store} {a b : Activation} {n : Nat} {g separator : Grammar} {i j k : Input}
  {f : Fault}

/-- A fault with which an activation ends is raised by something that it includes. -/
theorem exists_raises (ha : 0 ≤ a.input.position) (hf : (a.run s).ending = .error f) :
    ∃ b, a.Includes s b ∧ b.Raises s f := by
  induction a using (wellFounded_calls s).induction with
  | _ a ih =>
    have hcall : ∀ b, a.Calls s b → (b.run s).ending = .error f →
        ∃ c, a.Includes s c ∧ c.Raises s f := fun b hb hbf => by
      obtain ⟨c, hc, hraises⟩ := ih b hb (hb.start ha) hbf
      exact ⟨c, .head hb hc, hraises⟩
    have hcomposed : ∀ r : Run Outcome, Composed s a r → r.ending = .error f →
        ∃ c, a.Includes s c ∧ c.Raises s f := fun r hr => by
      induction hr with
      | done x => exact nofun
      | stop hraises =>
        intro hrf
        cases hrf
        exact ⟨a, .refl, hraises⟩
      | @call b next hb _ ihnext =>
        intro hrf
        cases hbrun : (b.run s).ending with
        | error f' =>
          rw [Run.ending_andThen_of_error hbrun] at hrf
          cases hrf
          exact hcall b hb hbrun
        | ok o =>
          rw [Run.ending_andThen_of_ok hbrun] at hrf
          exact ihnext o hbrun hrf
    obtain ⟨n, g, i⟩ := a
    by_cases hlabel : ∃ h label, g = .labelled h label
    · obtain ⟨h, label, rfl⟩ := hlabel
      rw [ending_labelled ha] at hf
      exact hcall ⟨n, h, i⟩ .labelled hf
    · exact hcomposed _ (composed_run ha fun h label heq => hlabel ⟨h, label, heq⟩) hf

/-! Nothing turns a fault into something else. -/

theorem Gives.ending_onSuccess {v : Value} {rest : Input} (hv : a.Gives s v rest)
    (next : Value → Input → Run Outcome) :
    ((a.run s).onSuccess next).ending = (next v rest).ending :=
  Run.ending_andThen_of_ok hv _

private theorem ending_tryEach {before after : List Grammar}
    (hbefore : ∀ h ∈ before, Fails s ⟨n, h, i⟩) (hf : (run s ⟨n, g, i⟩).ending = .error f)
    (last : Outcome) :
    (Parser.tryEach i last ((before ++ g :: after).map fun h => h.run s n)).ending = .error f := by
  induction before generalizing last with
  | nil => exact Run.ending_andThen_of_error hf _
  | cons h before ih =>
    obtain ⟨position, why, hfails⟩ := hbefore h List.mem_cons_self
    refine (Run.ending_andThen_of_ok hfails _).trans ?_
    exact ih (fun h' hh' => hbefore h' (List.mem_cons_of_mem _ hh')) _

private theorem ending_rounds (hij : ReflTransGen (Round s n g) i j)
    (hf : (Parser.rounds (g.run s n) j).ending = .error f) :
    (Parser.rounds (g.run s n) i).ending = .error f := by
  induction hij using ReflTransGen.head_induction_on with
  | refl => exact hf
  | head hround _ ih =>
    obtain ⟨v, hv, hmoves⟩ := hround
    rw [(g.forward_run s n).rounds_eq]
    refine (Run.ending_andThen_of_ok hv _).trans ?_
    simp only [if_neg hmoves]
    exact Run.ending_andThen_of_error ih _

private theorem ending_separatedRounds (hij : ReflTransGen (SeparatedRound s n g separator) i j)
    (hf : (Parser.separatedRounds (g.run s n) (separator.run s n) j).ending = .error f) :
    (Parser.separatedRounds (g.run s n) (separator.run s n) i).ending = .error f := by
  induction hij using ReflTransGen.head_induction_on with
  | refl => exact hf
  | head hround _ ih =>
    obtain ⟨u, mid, v, hu, hv, hmoves⟩ := hround
    rw [(g.forward_run s n).separatedRounds_eq (separator.forward_run s n)]
    refine (Run.ending_andThen_of_ok hu _).trans ((Run.ending_andThen_of_ok hv _).trans ?_)
    simp only [if_neg hmoves]
    exact Run.ending_andThen_of_error ih _

private theorem ending_sepBy1 {v : Value} (hv : Gives s ⟨n, g, i⟩ v j)
    (hjk : ReflTransGen (SeparatedRound s n g separator) j k)
    (hf : (Parser.separatedRounds (g.run s n) (separator.run s n) k).ending = .error f) :
    (run s ⟨n, .sepBy1 g separator, i⟩).ending = .error f :=
  (hv.ending_onSuccess _).trans
    (Run.ending_andThen_of_error (ending_separatedRounds hjk hf) _)

/-- An activation ends with the fault of any activation that it calls. -/
theorem Calls.ending (ha : 0 ≤ a.input.position) (hcalls : a.Calls s b)
    (hf : (b.run s).ending = .error f) : (a.run s).ending = .error f := by
  cases hcalls with
  | bind | seqFirst | rightFirst | cause | transform | orElse | first =>
    exact Run.ending_andThen_of_error hf _
  | bound hv | rightSecond hv => exact (hv.ending_onSuccess _).trans hf
  | seqSecond hv => exact (hv.ending_onSuccess _).trans (Run.ending_andThen_of_error hf _)
  | opening =>
    show (Parser.between _ _ _ _).ending = _
    rw [Parser.between_eq]
    exact Run.ending_andThen_of_error hf _
  | body hu =>
    show (Parser.between _ _ _ _).ending = _
    rw [Parser.between_eq]
    exact (hu.ending_onSuccess _).trans (Run.ending_andThen_of_error hf _)
  | closing hu hv =>
    show (Parser.between _ _ _ _).ending = _
    rw [Parser.between_eq]
    refine (hu.ending_onSuccess _).trans ((hv.ending_onSuccess _).trans ?_)
    exact Run.ending_andThen_of_error hf _
  | branch hsplit hbefore =>
    rw [run_choice, hsplit]
    exact ending_tryEach hbefore hf _
  | round hij =>
    refine Run.ending_andThen_of_error (ending_rounds hij ?_) _
    rw [Parser.rounds]
    exact Run.ending_andThen_of_error hf _
  | separator hv hjk =>
    refine ending_sepBy1 hv hjk ?_
    rw [Parser.separatedRounds]
    exact Run.ending_andThen_of_error hf _
  | separated hv hjk hu =>
    refine ending_sepBy1 hv hjk ?_
    rw [Parser.separatedRounds]
    exact (Run.ending_andThen_of_ok hu _).trans (Run.ending_andThen_of_error hf _)
  | labelled => exact (ending_labelled ha).trans hf
  | @entry n cell body i hcell =>
    show (s.enter (n + 1) cell i).ending = _
    rw [Store.enter, hcell]
    exact hf

theorem Raises.ending (hraises : a.Raises s f) : (a.run s).ending = .error f := by
  cases hraises with
  | fault => rfl
  | @test n test i v f hend hv htest =>
    show (Parser.sat test i).ending = _
    unfold Parser.sat
    rw [hend, hv]
    simp [Run.andThen, Run.ofExcept, htest]
  | @noText n source p i hrest =>
    show (Parser.pattern source p i).ending = _
    unfold Parser.pattern
    cases hdata : i.rest with
    | text t => rw [hdata] at hrest; cases hrest
    | _ => rfl
  | function hv happly =>
    refine (hv.ending_onSuccess _).trans ?_
    rw [happly]
    rfl
  | stall hstalls =>
    cases hstalls with
    | many hij hv hstays =>
      refine Run.ending_andThen_of_error (ending_rounds hij ?_) _
      rw [Parser.Forward.rounds_eq (Grammar.forward_run _ s _)]
      refine (Run.ending_andThen_of_ok hv _).trans ?_
      simp only [if_pos hstays]
      rfl
    | separated hv hjk hu hw hstays =>
      refine ending_sepBy1 hv hjk ?_
      rw [Parser.Forward.separatedRounds_eq (Grammar.forward_run _ s _) (Grammar.forward_run _ s _)]
      refine (Run.ending_andThen_of_ok hu _).trans ((Run.ending_andThen_of_ok hw _).trans ?_)
      simp only [if_pos hstays]
      rfl
  | tooDeep => rfl
  | @emptyCell n cell i hcell =>
    show (s.enter (n + 1) cell i).ending = _
    rw [Store.enter, hcell]
    rfl

theorem Includes.ending (ha : 0 ≤ a.input.position) (hincludes : a.Includes s b)
    (hf : (b.run s).ending = .error f) : (a.run s).ending = .error f := by
  induction hincludes using ReflTransGen.head_induction_on with
  | refl => exact hf
  | head hcalls _ ih => exact hcalls.ending ha (ih (hcalls.start ha))

/-- A run from a position that is not before the start ends with a fault exactly if something that
it includes raises the fault. -/
theorem ending_eq_error_iff (ha : 0 ≤ a.input.position) :
    (a.run s).ending = .error f ↔ ∃ b, a.Includes s b ∧ b.Raises s f :=
  ⟨exists_raises ha, fun ⟨_, hincludes, hraises⟩ => hincludes.ending ha hraises.ending⟩

/-- What the activation asks of functions, they give: a test takes the element it is given, a
function takes the result it is given, and a rule that depends on a result has a grammar for it.
Nothing is said of the function with which one or more results are listed. -/
def Returns (s : Store) : Activation → Prop
  | ⟨_, .fault _, _⟩ => False
  | ⟨_, .sat test, i⟩ => ∀ v, i.next = .ok v → ∃ passed, test v = .ok passed
  | ⟨n, .transform g apply, i⟩ => (∃ h : Grammar, .transform g apply = h.many1) ∨
    ∀ v rest, Gives s ⟨n, g, i⟩ v rest → ∃ w, apply v = .ok w
  | _ => True

/-- That function takes what it is given. -/
theorem prepend_of_gives {v : Value} {rest : Input} (hv : Gives s ⟨n, .seq g (.many g), i⟩ v rest) :
    ∃ w, Grammar.prepend v = .ok w := by
  have hlist : ∀ j, (run s ⟨n, .many g, j⟩).Ensures
      (Outcome.ResultIs fun w => ∃ vs, w = .list vs) :=
    fun j => (Run.Ensures.true _).andThen fun found _ => .done ⟨_, rfl⟩
  have hpair : (run s ⟨n, .seq g (.many g), i⟩).Ensures
      (Outcome.ResultIs fun v => ∃ w, Grammar.prepend v = .ok w) := by
    refine (Run.Ensures.true _).onSuccess (fun _ _ _ => trivial) fun v mid _ => ?_
    refine (hlist mid).onSuccess (fun _ _ _ => trivial) fun w last hw => ?_
    obtain ⟨vs, rfl⟩ := hw
    exact .done ⟨_, rfl⟩
  exact hpair _ hv

end Activation

theorem Input.text?_rest {t : Text} (i : Input) (h : i.data = .text t) : i.rest.text? ≠ none := by
  rw [rest_of_text h]
  exact nofun

namespace Grammar

open Activation (Includes)

/-- A failed match is no fault.  If all functions take what they are given, a run on a text from its
start has an outcome, is too deep, has entered an empty cell, or has repeated something that
succeeded without moving the position. -/
theorem fault_has_cause (g : Grammar) (s : Store) (limit : Nat) (t : Text) (traced : Bool)
    (hreturns : ∀ a, Includes s ⟨limit, g, ⟨.text t, 0, traced⟩⟩ a → a.Returns s) :
    match (g.run s limit ⟨.text t, 0, traced⟩).ending with
    | .ok _ => True
    | .error f =>
      f = .tooDeep ∨
      (f = .undefinedCell ∧ ∃ n cell i, Includes s ⟨limit, g, ⟨.text t, 0, traced⟩⟩
        ⟨n, .enter cell, i⟩ ∧ s.get? cell = none) ∨
      ∃ repetition, f = .endlessRepetition repetition ∧
        ∃ a, Includes s ⟨limit, g, ⟨.text t, 0, traced⟩⟩ a ∧ a.Stalls s repetition := by
  split
  · trivial
  · next f hf =>
    obtain ⟨a, hincludes, hraises⟩ :=
      @Activation.exists_raises s ⟨limit, g, ⟨.text t, 0, traced⟩⟩ f (Int.le_refl 0) hf
    have htakes := hreturns a hincludes
    cases hraises with
    | fault _ => exact htakes.elim
    | test _ hv htest =>
      obtain ⟨passed, hpassed⟩ := htakes _ hv
      rw [hpassed] at htest
      cases htest
    | noText hrest => exact absurd hrest (Input.text?_rest _ hincludes.reaches.data)
    | function hv happly =>
      rcases htakes with ⟨h, hmany⟩ | htakes
      · cases hmany
        obtain ⟨w, hw⟩ := Activation.prepend_of_gives hv
        rw [hw] at happly
        cases happly
      · obtain ⟨w, hw⟩ := htakes _ _ hv
        rw [hw] at happly
        cases happly
    | stall hstalls => exact Or.inr (Or.inr ⟨_, rfl, a, hincludes, hstalls⟩)
    | tooDeep => exact Or.inl rfl
    | emptyCell hcell => exact Or.inr (Or.inl ⟨rfl, _, _, _, hincludes, hcell⟩)

/-- A letter and the same letter again. -/
def double : Grammar :=
  .bind .item fun
    | .str t => .lit (.text t)
    | _ => .fault .unsupported

/-- Letters that come twice, each of which may be missing. -/
def doubles : Grammar :=
  .many (.orElse double .absent)

/-- The element that is read from a text is a text. -/
theorem exists_str_of_gives_item {s : Store} {n : Nat} {i rest : Input} {t : Text} {v : Value}
    (hdata : i.data = .text t) (hv : Activation.Gives s ⟨n, .item, i⟩ v rest) :
    ∃ c, v = .str c := by
  have hitem : (Parser.item i).Ensures (Outcome.ResultIs fun v => ∃ c, v = .str c) := by
    unfold Parser.item
    split
    · exact .done trivial
    · refine Run.Ensures.andThen (P := fun v => ∃ c, v = .str c) (fun v hv => ?_) fun v hv => ?_
      · have hnext : i.next = .ok v := hv
        rw [Input.next, hdata, Sequence.get, Sequence.get?] at hnext
        cases hat : Sequence.at? t i.position with
        | none => rw [hat] at hnext; cases hnext
        | some c =>
          rw [hat] at hnext
          cases hnext
          exact ⟨_, rfl⟩
      · refine .done ?_
        exact hv
  exact hitem _ hv

/-- Few grammars are run when doubles are read from a text, and no rule among them is a fault. -/
theorem parts_of_doubles {s : Store} {n : Nat} {t : Text} {traced : Bool} {a : Activation}
    (h : Includes s ⟨n, doubles, ⟨.text t, 0, traced⟩⟩ a) :
    a.grammar ∈ [doubles, .orElse double .absent, double, .item] ∨
      ∃ c, a.grammar = .lit (.text c) := by
  induction h with
  | refl => simp
  | @tail b a hb hcalls ih =>
    obtain ⟨n, g, i⟩ := b
    simp only [List.mem_cons, List.not_mem_nil, or_false] at ih
    rcases ih with (rfl | rfl | rfl | rfl) | ⟨c, rfl⟩
    · cases hcalls
      simp
    · cases hcalls
      simp
    · cases hcalls with
      | bind => simp
      | bound hv =>
        obtain ⟨c, rfl⟩ := exists_str_of_gives_item (Activation.Includes.reaches hb).data hv
        exact Or.inr ⟨c, rfl⟩
    · cases hcalls
    · cases hcalls

/-- The third letter comes once, so nothing is read in its place, again and again. -/
theorem fault_of_single_letter :
    (∀ a, Includes Store.empty ⟨1, doubles, ⟨.text (Text.ofString "aab"), 0, true⟩⟩ a →
      a.Returns Store.empty) ∧
    (doubles.run Store.empty 1 ⟨.text (Text.ofString "aab"), 0, true⟩).ending =
      .error (.endlessRepetition .many) ∧
    ∃ a, Includes Store.empty ⟨1, doubles, ⟨.text (Text.ofString "aab"), 0, true⟩⟩ a ∧
      a.Stalls Store.empty .many := by
  have hreturns : ∀ a,
      Includes Store.empty ⟨1, doubles, ⟨.text (Text.ofString "aab"), 0, true⟩⟩ a →
      a.Returns Store.empty := by
    rintro ⟨n, g, i⟩ hincludes
    have hparts := parts_of_doubles hincludes
    simp only [List.mem_cons, List.not_mem_nil, or_false] at hparts
    rcases hparts with (rfl | rfl | rfl | rfl) | ⟨c, rfl⟩ <;> trivial
  have hround : Activation.Round Store.empty 1 (.orElse double .absent)
      ⟨.text (Text.ofString "aab"), 0, true⟩ ⟨.text (Text.ofString "aab"), 2, true⟩ :=
    ⟨.str (Text.ofString "a"), rfl, by decide⟩
  have hstalls : Activation.Stalls Store.empty
      ⟨1, doubles, ⟨.text (Text.ofString "aab"), 0, true⟩⟩ .many :=
    .many (.single hround) (v := .absent) rfl rfl
  have hending := (Activation.Raises.stall hstalls).ending
  have hcause := fault_has_cause doubles Store.empty 1 (Text.ofString "aab") true hreturns
  rw [show (doubles.run Store.empty 1 ⟨.text (Text.ofString "aab"), 0, true⟩).ending = _ from
    hending] at hcause
  rcases hcause with hdeep | ⟨hempty, -⟩ | ⟨repetition, hrepetition, hcause⟩
  · cases hdeep
  · cases hempty
  · cases hrepetition
    exact ⟨hreturns, hending, hcause⟩

end Grammar

end Descent
