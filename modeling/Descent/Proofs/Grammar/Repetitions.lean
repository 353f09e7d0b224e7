import Descent.Proofs.Parser.Faults
import Descent.Proofs.Parser.Loop
import Descent.Proofs.Pattern.Scan

/-!
What the repetitions of a grammar do.  All four are one loop behind what they run first, so a list
with separators is the repetition of a separator with an element; only the fault that answers a round
without progress tells them apart.  The results of a repetition are those of the chain of rounds that
leads to the first failure.  Every loop ends, and over a grammar that never fails it ends with a
fault.
-/

set_option autoImplicit false
set_option relaxedAutoImplicit false

namespace Descent

/-- The outcome is no failure. -/
def Outcome.Succeeds : Outcome → Prop
  | .success _ _ => True
  | .failure _ _ => False

namespace Run

variable {α β : Type} {f f' : Fault}

/-- The runs are the same, or they leave the same trace and stop, each with a fault of its own. -/
inductive SameBut (f f' : Fault) : Run α → Run α → Prop where
  | same (r : Run α) : SameBut f f' r r
  | faults (trace : Trace) : SameBut f f' ⟨.error f, trace⟩ ⟨.error f', trace⟩

theorem SameBut.andThen (r : Run α) {next next' : α → Run β}
    (h : ∀ a, SameBut f f' (next a) (next' a)) :
    SameBut f f' (r.andThen next) (r.andThen next') := by
  rcases r with ⟨e | a, trace⟩
  · exact .same _
  · have ha := h a
    simp only [Run.andThen]
    generalize next a = x at ha ⊢
    generalize next' a = y at ha ⊢
    cases ha with
    | same x => exact .same _
    | faults inner => exact .faults (trace ++ inner)

theorem SameBut.append {r s : Run α} (h : SameBut f f' r s) (next : α → Run β) :
    SameBut f f' (r.andThen next) (s.andThen next) := by
  cases h with
  | same r => exact .same _
  | faults trace => exact .faults trace

/-- The run ends as the loop over a parser does, with some values in front of those of the loop, and
the loop makes at most a number of rounds. -/
def EndsAsLoop (r : Run Outcome) (found : List Value) (p : Parser) (stalled : Fault) (i : Input)
    (most : Nat) : Prop :=
  ∃ n e, p.LoopEnds stalled i n e ∧ n ≤ most ∧
    r.ending = e.map fun (vs, last) => .success (.list (found ++ vs)) last

end Run

namespace Parser

variable {p q : Parser} {f f' : Fault} {i j : Input} {v : Value}

/-- The parser succeeds on every input, unless it stops with a fault. -/
def NeverFails (p : Parser) : Prop :=
  ∀ i, (p i).Ensures Outcome.Succeeds

/-! The fault with which a loop answers a round without progress. -/

theorem sameBut_loop (f f' : Fault) (p : Parser) (i : Input) :
    Run.SameBut f f' (loop f p i) (loop f' p i) := by
  induction h : i.left using Nat.strongRecOn generalizing i with
  | ind n ih =>
    rw [loop, loop]
    refine .andThen _ fun o => ?_
    cases o with
    | failure position why => exact .same _
    | success v rest =>
      dsimp only
      split
      · next hlt => exact (ih _ (h ▸ hlt) rest rfl).append _
      · exact .faults []

theorem sameBut_thenLoop (f f' : Fault) (p q : Parser) (i : Input) :
    Run.SameBut f f' (thenLoop p f q i) (thenLoop p f' q i) := by
  refine .andThen _ fun o => ?_
  cases o with
  | failure position why => exact .same _
  | success v rest => exact (sameBut_loop f f' q rest).append _

/-- A separator that reads nothing is none. -/
theorem right_result (v : Value) (p : Parser) : right (result v) p = p := by
  funext i
  simp [right, result, Run.onSuccess]

/-! How repetitions end. -/

theorem ending_many (p : Parser) (i : Input) :
    (many p i).ending =
      (loop (.endlessRepetition .many) p i).ending.map fun (vs, last) =>
        .success (.list vs) last := by
  rw [← rounds_eq_loop]
  exact Run.ending_andThen_done _ _

theorem ending_thenLoop (hv : (p i).ending = .ok (.success v j)) (f : Fault) (q : Parser) :
    (thenLoop p f q i).ending =
      (loop f q j).ending.map fun (vs, last) => .success (.list (v :: vs)) last :=
  (Run.ending_andThen_of_ok hv _).trans (Run.ending_andThen_done _ _)

theorem ensures_thenLoop (hq : q.Forward) (f : Fault) (p : Parser) (i : Input) :
    (thenLoop p f q i).Ensures fun
      | .success _ last => ∃ position why, (q last).ending = .ok (.failure position why)
      | .failure _ _ => True := by
  refine (Run.Ensures.true _).onSuccess (fun _ _ _ => trivial) fun v rest _ => ?_
  have hloop : (loop f q rest).Ensures fun found =>
      ∃ position why, (q found.2).ending = .ok (.failure position why) :=
    fun found hfound => (hq.loop_ending_ok_iff.mp hfound).2
  exact hloop.andThen fun found hfound => .done hfound

theorem ending_many_eq_success_iff (hp : p.Forward) {last : Input} :
    (many p i).ending = .ok (.success v last) ↔ ∃ vs, v = .list vs ∧ p.Chain i vs last ∧
      ∃ position why, (p last).ending = .ok (.failure position why) := by
  rw [ending_many]
  constructor
  · intro h
    cases hloop : (loop (.endlessRepetition .many) p i).ending with
    | error f =>
      rw [hloop] at h
      cases h
    | ok found =>
      rw [hloop] at h
      cases h
      exact ⟨_, rfl, hp.loop_ending_ok_iff.mp hloop⟩
  · rintro ⟨vs, rfl, hlast⟩
    rw [hp.loop_ending_ok_iff.mpr hlast]
    rfl

theorem ending_many_eq_error_iff (hp : p.Forward) :
    (many p i).ending = .error f ↔ ∃ vs j, p.Chain i vs j ∧ ((p j).ending = .error f ∨
      f = .endlessRepetition .many ∧
        ∃ v rest, (p j).ending = .ok (.success v rest) ∧ rest.position = j.position) := by
  rw [← hp.loop_ending_error_iff, ending_many]
  cases (loop (.endlessRepetition .many) p i).ending <;> simp [Except.map]

theorem neverFails_result (v : Value) : (result v).NeverFails :=
  fun _ => .done trivial

theorem neverFails_orElse (p : Parser) (v : Value) : (orElse p v).NeverFails := by
  intro i
  refine (Run.Ensures.true (p i)).andThen fun o _ => ?_
  cases o with
  | success w rest => exact .done trivial
  | failure position why => exact neverFails_result v i

theorem neverFails_many (p : Parser) : (many p).NeverFails :=
  fun i => (Run.Ensures.true (rounds p i)).andThen fun _ _ => .done trivial

theorem neverFails_pattern (source : Text) {shape : Pattern}
    (hmatches : ∀ t, shape.matched? t ≠ none) : (pattern source shape).NeverFails := by
  intro i
  unfold pattern
  split
  · next t _ =>
    split
    · exact neverFails_result _ _
    · next hnone => exact absurd hnone (hmatches t)
  · exact .stop _

theorem NeverFails.cause (hp : p.NeverFails) (why : Text) : (cause p why).NeverFails := by
  intro i
  refine (hp i).andThen fun o ho => ?_
  cases o with
  | success v rest => exact .done trivial
  | failure position _ => exact ho.elim

theorem neverFails_spaces (s : Store) (limit : Nat) : (Grammar.spaces.run s limit).NeverFails := by
  refine (neverFails_pattern _ fun t => ?_).cause _
  rw [(Pattern.Scans.run Code.isSpace).matched?_eq t]
  exact Option.some_ne_none _

/-- The repetition of a parser that never fails stops with a fault. -/
theorem NeverFails.exists_error (hp : p.NeverFails) (hforward : p.Forward) (i : Input) :
    ∃ f, (many p i).ending = .error f := by
  cases hmany : (many p i).ending with
  | error f => exact ⟨f, rfl⟩
  | ok o =>
    cases o with
    | failure position why => exact (neverFails_many p i _ hmany).elim
    | success v last =>
      obtain ⟨vs, -, -, position, why, hlast⟩ := (ending_many_eq_success_iff hforward).mp hmany
      exact (hp last _ hlast).elim

/-! How many rounds a repetition makes. -/

theorem endsAsLoop_many (hp : p.Forward) (i : Input) :
    (many p i).EndsAsLoop [] p (.endlessRepetition .many) i (i.left + 1) := by
  obtain ⟨n, e, hends, hn⟩ := hp.exists_loopEnds (.endlessRepetition .many) i
  refine ⟨n, e, hends, hn, ?_⟩
  rw [ending_many, hends.ending hp]
  rfl

theorem endsAsLoop_thenLoop (hp : p.Forward) (hq : q.Forward) (f : Fault)
    (hv : (p i).ending = .ok (.success v j)) :
    (thenLoop p f q i).EndsAsLoop [v] q f j (i.left + 1) := by
  obtain ⟨n, e, hends, hn⟩ := hq.exists_loopEnds f j
  have hreaches : i.Reaches j := hp i _ hv
  have hleft : j.left ≤ i.left := hreaches.left_le
  refine ⟨n, e, hends, by omega, ?_⟩
  rw [ending_thenLoop hv, hends.ending hq]
  rfl

/-- A loop never fails, so no alternative to it is taken. -/
theorem endsAsLoop_orElse {found : List Value} {most : Nat}
    (h : (p i).EndsAsLoop found q f j most) (w : Value) :
    (orElse p w i).EndsAsLoop found q f j most := by
  obtain ⟨n, e, hends, hn, hending⟩ := h
  refine ⟨n, e, hends, hn, ?_⟩
  cases e with
  | error f' => exact Run.ending_andThen_of_error hending _
  | ok found => exact Run.ending_andThen_of_ok hending _

end Parser

namespace Grammar

variable (g separator : Grammar) (s : Store) (limit : Nat) (i : Input)

/-- A list with separators is the repetition of a separator with an element behind a first element:
it has the same values, leaves the same input and trace, fails in the same way and stops with the same
fault, except that a round without progress is a fault of its own.  What is left is in front of any
separator without an element.  With a separator that reads nothing, it is the repetition of one or
more. -/
theorem sepBy1_sameBut_many (x : Value) :
    Run.SameBut (.endlessRepetition .separated) (.endlessRepetition .many)
      ((sepBy1 g separator).run s limit i)
      ((transform (seq g (many (right separator g))) prepend).run s limit i) ∧
    Run.SameBut (.endlessRepetition .separated) (.endlessRepetition .many)
      ((sepBy1 g (result x)).run s limit i) (g.many1.run s limit i) ∧
    match ((sepBy1 g separator).run s limit i).ending with
    | .ok (.success _ rest) => ∃ position why,
      ((right separator g).run s limit rest).ending = .ok (.failure position why)
    | _ => True := by
  have hsepBy : ∀ h : Grammar, (sepBy1 g h).run s limit = Parser.thenLoop (g.run s limit)
      (.endlessRepetition .separated) ((right h g).run s limit) := fun h =>
    Parser.sepBy1_eq_thenLoop _ _
  have hmany : ∀ h : Grammar, (transform (seq g (many h)) prepend).run s limit =
      Parser.thenLoop (g.run s limit) (.endlessRepetition .many) (h.run s limit) := fun h =>
    Parser.prepend_many_eq_thenLoop _ _
  have hnothing : (right (result x) g).run s limit = g.run s limit := Parser.right_result x _
  refine ⟨?_, ?_, ?_⟩
  · rw [hsepBy, hmany]
    exact Parser.sameBut_thenLoop _ _ _ _ _
  · rw [hsepBy, hnothing, many1, hmany]
    exact Parser.sameBut_thenLoop _ _ _ _ _
  · rw [hsepBy]
    have hright : ((right separator g).run s limit).Forward := forward_run _ s limit
    split
    · next v rest hok => exact Parser.ensures_thenLoop hright _ _ _ _ hok
    · trivial

/-- A repetition succeeds exactly with the values of a chain of rounds behind which the grammar
fails, and leaves what the chain leaves.  It finds that it would repeat without end exactly if a chain
leads to an input where the grammar stays or finds this itself.  It never fails, and the grammar never
succeeds behind its own repetition. -/
theorem many_until_failure :
    (∀ v last, ((many g).run s limit i).ending = .ok (.success v last) ↔
      ∃ vs, v = .list vs ∧ (g.run s limit).Chain i vs last ∧
        ∃ position why, (g.run s limit last).ending = .ok (.failure position why)) ∧
    (∀ r, ((many g).run s limit i).ending = .error (.endlessRepetition r) ↔
      ∃ vs j, (g.run s limit).Chain i vs j ∧
        ((g.run s limit j).ending = .error (.endlessRepetition r) ∨
          r = .many ∧ ∃ v rest, (g.run s limit j).ending = .ok (.success v rest) ∧
            rest.position = j.position)) ∧
    (∀ position why, ((many g).run s limit i).ending ≠ .ok (.failure position why)) ∧
    match ((seq (many g) g).run s limit i).ending with
    | .ok (.success _ _) => False
    | .ok (.failure position why) => ∃ vs last,
      ((many g).run s limit i).ending = .ok (.success (.list vs) last) ∧
        (g.run s limit last).ending = .ok (.failure position why)
    | .error f => ((many g).run s limit i).ending = .error f := by
  have hp : (g.run s limit).Forward := g.forward_run s limit
  refine ⟨fun v last => Parser.ending_many_eq_success_iff hp, fun r => ?_,
    fun position why => Parser.neverFails_many _ i _, ?_⟩
  · refine (Parser.ending_many_eq_error_iff hp).trans ?_
    simp only [Fault.endlessRepetition.injEq]
  · cases hmany : ((many g).run s limit i).ending with
    | error f =>
      have hseq : ((seq (many g) g).run s limit i).ending = .error f :=
        Run.ending_andThen_of_error hmany _
      rw [hseq]
    | ok o =>
      cases o with
      | failure position why => exact (Parser.neverFails_many _ i _ hmany).elim
      | success v last =>
        obtain ⟨vs, rfl, -, position, why, hlast⟩ :=
          (Parser.ending_many_eq_success_iff hp).mp hmany
        have hseq : ((seq (many g) g).run s limit i).ending = .ok (.failure position why) :=
          (Run.ending_andThen_of_ok hmany _).trans (Run.ending_andThen_of_ok hlast _)
        rw [hseq]
        exact ⟨vs, last, rfl, hlast⟩

/-- The loop of every repetition ends, after at most one round more than there is left to read where
the repetition begins.  So the repetition of a grammar that never fails always stops, with a fault of
the grammar or since it would repeat without end. -/
theorem repetition_loops_end (x : Value) :
    ((many g).run s limit i).EndsAsLoop [] (g.run s limit) (.endlessRepetition .many) i
      (i.left + 1) ∧
    (∀ v rest, (g.run s limit i).ending = .ok (.success v rest) →
      (g.many1.run s limit i).EndsAsLoop [v] (g.run s limit) (.endlessRepetition .many) rest
        (i.left + 1) ∧
      ((sepBy1 g separator).run s limit i).EndsAsLoop [v] ((right separator g).run s limit)
        (.endlessRepetition .separated) rest (i.left + 1) ∧
      ((sepBy0 g separator).run s limit i).EndsAsLoop [v] ((right separator g).run s limit)
        (.endlessRepetition .separated) rest (i.left + 1)) ∧
    ((g.run s limit).NeverFails → ∃ f, ((many g).run s limit i).ending = .error f ∧
      ∃ vs j, (g.run s limit).Chain i vs j ∧ ((g.run s limit j).ending = .error f ∨
        f = .endlessRepetition .many ∧ ∃ v rest,
          (g.run s limit j).ending = .ok (.success v rest) ∧ rest.position = j.position)) ∧
    ∀ h ∈ [opt g, many g, sepBy0 g separator, spaces, result x], (h.run s limit).NeverFails := by
  have hp : (g.run s limit).Forward := g.forward_run s limit
  have hright : ((right separator g).run s limit).Forward := forward_run _ s limit
  refine ⟨Parser.endsAsLoop_many hp i, fun v rest hv => ?_, fun hnever => ?_, ?_⟩
  · have hmany1 : g.many1.run s limit = Parser.thenLoop (g.run s limit)
        (.endlessRepetition .many) (g.run s limit) := Parser.prepend_many_eq_thenLoop _ _
    have hsepBy1 : (sepBy1 g separator).run s limit = Parser.thenLoop (g.run s limit)
        (.endlessRepetition .separated) ((right separator g).run s limit) :=
      Parser.sepBy1_eq_thenLoop _ _
    have hlist : ((sepBy1 g separator).run s limit i).EndsAsLoop [v]
        ((right separator g).run s limit) (.endlessRepetition .separated) rest (i.left + 1) := by
      rw [hsepBy1]
      exact Parser.endsAsLoop_thenLoop hp hright _ hv
    rw [hmany1]
    exact ⟨Parser.endsAsLoop_thenLoop hp hp _ hv, hlist,
      Parser.endsAsLoop_orElse hlist (.list [])⟩
  · obtain ⟨f, hf⟩ := hnever.exists_error hp i
    exact ⟨f, hf, (Parser.ending_many_eq_error_iff hp).mp hf⟩
  · intro h hh
    simp only [List.mem_cons, List.not_mem_nil, or_false] at hh
    rcases hh with rfl | rfl | rfl | rfl | rfl
    · exact Parser.neverFails_orElse _ _
    · exact Parser.neverFails_many _
    · exact Parser.neverFails_orElse _ _
    · exact Parser.neverFails_spaces s limit
    · exact Parser.neverFails_result x

/-- An optional letter never fails, so it is not repeated behind the last one there is. -/
theorem loops_end_at_optional_letter :
    let g := opt (lit (.text (Text.ofString "a")))
    let i : Input := ⟨.text (Text.ofString "ab"), 0, false⟩
    (g.run Store.empty 1 i).ending =
        .ok (.success (.str (Text.ofString "a")) ⟨.text (Text.ofString "ab"), 1, false⟩) ∧
      (g.many1.run Store.empty 1 i).EndsAsLoop [.str (Text.ofString "a")] (g.run Store.empty 1)
        (.endlessRepetition .many) ⟨.text (Text.ofString "ab"), 1, false⟩ 3 ∧
      (g.run Store.empty 1).NeverFails ∧
      ((many g).run Store.empty 1 i).ending = .error (.endlessRepetition .many) := by
  intro g i
  have hfirst : (g.run Store.empty 1 i).ending =
      .ok (.success (.str (Text.ofString "a")) ⟨.text (Text.ofString "ab"), 1, false⟩) := rfl
  have hnever : (g.run Store.empty 1).NeverFails := Parser.neverFails_orElse _ _
  have hnoFault : ∀ j, (g.run Store.empty 1 j).StopsOnly fun _ => False := fun j =>
    Parser.stopsOnly_orElse (Parser.stopsOnly_lit _ j) _
  obtain ⟨-, hbehind, hends, -⟩ := repetition_loops_end g g Store.empty 1 i .null
  obtain ⟨f, hf, vs, j, -, hj | ⟨rfl, -⟩⟩ := hends hnever
  · exact (hnoFault j f hj).elim
  · exact ⟨hfirst, (hbehind _ _ hfirst).1, hnever, hf⟩

end Grammar

end Descent
