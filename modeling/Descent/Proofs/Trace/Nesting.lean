import Descent.Proofs.Trace.Lines

/-!
Traces are nested.  An attempt and the event that closes it stand around complete pairs only, and so
do their lines in what is written.  Both are left by one activation of a labelled grammar: their
lines show its label, its position, and what was left to read, cut where a success ends.  A fault
leaves some attempts open, and they can be closed.
-/

set_option autoImplicit false
set_option relaxedAutoImplicit false

namespace Descent

/-- Pairs of events one after the other, with complete pairs between the two events of each, and how
they are written: each event on a line of its own. -/
inductive Trace.Nested (Pair : Event → Trace → Event → Prop) : Trace → Text → Prop where
  | nil : Nested Pair [] []
  | pair {opening closing : Event} {inner later : Trace} {within behind : Text} :
    Pair opening inner closing → Nested Pair inner within → Nested Pair later behind →
    Nested Pair (opening :: (inner ++ closing :: later))
      (opening.line ++ Code.ofChar '\n' :: (within ++ (closing.line ++ Code.ofChar '\n' :: behind)))

/-- The events around a trace are those of one activation of a labelled grammar, which another one
includes: with what is between them they are all that this activation has left. -/
def Activation.Encloses (s : Store) (a : Activation) (opening : Event) (inner : Trace)
    (closing : Event) : Prop :=
  ∃ n g label i o, opening.ClosedBy label i o closing ∧ a.Includes s ⟨n, .labelled g label, i⟩ ∧
    run s ⟨n, .labelled g label, i⟩ = ⟨.ok o, opening :: (inner ++ [closing])⟩

/-- The fault ends an activation of a labelled grammar, which another one includes, between its
attempt and the event that would close it: what the activation has left breaks off inside. -/
def Activation.BreaksOff (s : Store) (a : Activation) (f : Fault) (opening : Event) (inner : Trace)
    (closing : Event) : Prop :=
  ∃ n g label i o left, opening.ClosedBy label i o closing ∧
    a.Includes s ⟨n, .labelled g label, i⟩ ∧
    run s ⟨n, .labelled g label, i⟩ = ⟨.error f, opening :: left⟩ ∧ left <+: inner

namespace Trace.Nested

variable {Pair Pair' : Event → Trace → Event → Prop} {a b : Trace} {x y : Text}

theorem mono (ha : Nested Pair a x)
    (h : ∀ opening inner closing, Pair opening inner closing → Pair' opening inner closing) :
    Nested Pair' a x := by
  induction ha with
  | nil => exact .nil
  | pair hpair _ _ ihinner ihlater => exact .pair (h _ _ _ hpair) ihinner ihlater

theorem append (ha : Nested Pair a x) (hb : Nested Pair b y) : Nested Pair (a ++ b) (x ++ y) := by
  induction ha with
  | nil => exact hb
  | pair hpair hinner _ _ ihlater =>
    simp only [List.cons_append, List.append_assoc]
    exact .pair hpair hinner ihlater

theorem append_text (ha : Nested Pair a a.text) (hb : Nested Pair b b.text) :
    Nested Pair (a ++ b) (text (a ++ b)) := by
  rw [text_append]
  exact ha.append hb

/-- A pair around a nested trace, with nothing behind it. -/
theorem enclose {opening closing : Event} (hpair : Pair opening a closing)
    (ha : Nested Pair a a.text) :
    Nested Pair (opening :: (a ++ [closing])) (text (opening :: (a ++ [closing]))) := by
  rw [text_cons, text_append, text_cons]
  exact .pair hpair ha .nil

end Trace.Nested

/-- A run that returns leaves a nested trace of the pairs of an activation.  One that ends with a
fault leaves the beginning of such a trace, where some pairs break off. -/
structure Run.LeavesNested {α : Type} (s : Store) (a : Activation) (r : Run α) : Prop where
  returned : ∀ x, r.ending = .ok x → r.trace.Nested (a.Encloses s) r.trace.text
  stopped : ∀ f, r.ending = .error f → ∃ rest, Trace.Nested
    (fun opening inner closing => a.Encloses s opening inner closing ∨
      a.BreaksOff s f opening inner closing) (r.trace ++ rest) (Trace.text (r.trace ++ rest))

namespace Activation

variable {s : Store} {a b : Activation}

theorem Encloses.of_calls (hcalls : a.Calls s b) {opening closing : Event} {inner : Trace}
    (h : b.Encloses s opening inner closing) : a.Encloses s opening inner closing := by
  obtain ⟨n, g, label, i, o, hclosed, hincludes, hrun⟩ := h
  exact ⟨n, g, label, i, o, hclosed, .head hcalls hincludes, hrun⟩

theorem BreaksOff.of_calls (hcalls : a.Calls s b) {f : Fault} {opening closing : Event}
    {inner : Trace} (h : b.BreaksOff s f opening inner closing) :
    a.BreaksOff s f opening inner closing := by
  obtain ⟨n, g, label, i, o, left, hclosed, hincludes, hrun⟩ := h
  exact ⟨n, g, label, i, o, left, hclosed, .head hcalls hincludes, hrun⟩

end Activation

namespace Run.LeavesNested

variable {α β : Type} {s : Store} {a b : Activation}

theorem done (x : α) : LeavesNested s a (Run.done x) :=
  ⟨fun _ _ => .nil, nofun⟩

theorem stop (f : Fault) : LeavesNested s a (Run.stop f : Run α) :=
  ⟨nofun, fun _ _ => ⟨[], .nil⟩⟩

theorem of_calls (hcalls : a.Calls s b) {r : Run α} (hr : LeavesNested s b r) :
    LeavesNested s a r := by
  refine ⟨fun x hx => (hr.returned x hx).mono fun _ _ _ => .of_calls hcalls, fun f hf => ?_⟩
  obtain ⟨rest, hrest⟩ := hr.stopped f hf
  exact ⟨rest, hrest.mono fun _ _ _ => Or.imp (.of_calls hcalls) (.of_calls hcalls)⟩

theorem andThen {r : Run α} {next : α → Run β} (hr : LeavesNested s a r)
    (hnext : ∀ x, r.ending = .ok x → LeavesNested s a (next x)) :
    LeavesNested s a (r.andThen next) := by
  rcases r with ⟨f | x, trace⟩
  · refine ⟨nofun, fun _ hf => ?_⟩
    cases hf
    exact hr.stopped f rfl
  · have hx := hnext x rfl
    have htrace : trace.Nested (a.Encloses s) trace.text := hr.returned x rfl
    refine ⟨fun y hy => htrace.append_text (hx.returned y hy), fun f hf => ?_⟩
    obtain ⟨rest, hrest⟩ := hx.stopped f hf
    have hassoc : trace ++ (next x).trace ++ rest = trace ++ ((next x).trace ++ rest) :=
      List.append_assoc _ _ _
    refine ⟨rest, ?_⟩
    show Trace.Nested _ (trace ++ (next x).trace ++ rest) (Trace.text (trace ++ (next x).trace ++ rest))
    rw [hassoc]
    exact (htrace.mono fun _ _ _ => Or.inl).append_text hrest

end Run.LeavesNested

namespace Activation

variable {s : Store} {a : Activation}

/-- What is put together from nested parts is nested. -/
theorem Composed.leavesNested {α : Type} {r : Run α} (hr : Composed s a r)
    (hparts : ∀ b, a.Calls s b → (b.run s).LeavesNested s b) : r.LeavesNested s a := by
  induction hr with
  | done x => exact .done x
  | stop _ => exact .stop _
  | call hcalls _ ih => exact ((hparts _ hcalls).of_calls hcalls).andThen ih

/-- A label puts a pair around the nested trace of what it labels. -/
theorem leavesNested_labelled {n : Nat} {g : Grammar} {label : Text} {i : Input} {t : Text}
    (hdata : i.data = .text t) (hi : 0 ≤ i.position)
    (h : (run s ⟨n, g, i⟩).LeavesNested s ⟨n, g, i⟩) :
    (run s ⟨n, .labelled g label, i⟩).LeavesNested s ⟨n, .labelled g label, i⟩ := by
  have hinner : (run s ⟨n, g, i⟩).LeavesNested s ⟨n, .labelled g label, i⟩ := h.of_calls .labelled
  cases htraced : i.traced with
  | false =>
    have hrun : run s ⟨n, .labelled g label, i⟩ = run s ⟨n, g, i⟩ := by
      show Parser.labelled (g.run s n) label i = _
      rw [Parser.labelled, htraced]
      rfl
    exact hrun ▸ hinner
  | true =>
    obtain ⟨before, after, hrun⟩ := Parser.labelled_eq (g.forward_run s n) label hi htraced
    change run s ⟨n, .labelled g label, i⟩ = ⟨(run s ⟨n, g, i⟩).ending,
      .attempt label i before :: ((run s ⟨n, g, i⟩).trace ++
        closingEvents label i after (run s ⟨n, g, i⟩).ending)⟩ at hrun
    refine ⟨fun o ho => ?_, fun f hf => ?_⟩
    · have hending : (run s ⟨n, g, i⟩).ending = .ok o := by rw [← ho, hrun]
      have hwithin : o.Within i := g.forward_run s n i o hending
      rw [hending, closingEvents] at hrun
      have hclosed : (Event.attempt label i before).ClosedBy label i o (o.event label i after) :=
        hwithin.closedBy hdata hi label before after
      have hencloses : Encloses s ⟨n, .labelled g label, i⟩ (.attempt label i before)
          (run s ⟨n, g, i⟩).trace (o.event label i after) := ⟨n, g, label, i, o, hclosed, .refl, hrun⟩
      rw [hrun]
      exact .enclose hencloses (hinner.returned o hending)
    · have hending : (run s ⟨n, g, i⟩).ending = .error f := by rw [← hf, hrun]
      obtain ⟨rest, hrest⟩ := hinner.stopped f hending
      rw [hending, closingEvents, List.append_nil] at hrun
      -- The attempt stays open.  A failure behind the end of all that is open in it would close it.
      have hwithin : (Outcome.failure i.position []).Within i := Input.Spans.self i
      have hclosed : (Event.attempt label i before).ClosedBy label i _ (.failure label i [] []) :=
        hwithin.closedBy hdata hi label before []
      have hbreaks : BreaksOff s ⟨n, .labelled g label, i⟩ f (.attempt label i before)
          ((run s ⟨n, g, i⟩).trace ++ rest) (.failure label i [] []) :=
        ⟨n, g, label, i, _, _, hclosed, .refl, hrun, List.prefix_append _ _⟩
      refine ⟨rest ++ [.failure label i [] []], ?_⟩
      rw [hrun, List.cons_append, ← List.append_assoc]
      exact .enclose (.inr hbreaks) hrest

theorem leavesNested {t : Text} (hdata : a.input.data = .text t) (ha : 0 ≤ a.input.position) :
    (a.run s).LeavesNested s a := by
  induction a using (wellFounded_calls s).induction with
  | _ a ih =>
    have hparts : ∀ b, a.Calls s b → (b.run s).LeavesNested s b := fun b hb =>
      ih b hb (hb.reaches.data.trans hdata) (hb.start ha)
    obtain ⟨n, g, i⟩ := a
    -- Only a label leaves events of its own; all else is put together from parts.
    by_cases hlabel : ∃ h label, g = .labelled h label
    · obtain ⟨h, label, rfl⟩ := hlabel
      exact leavesNested_labelled hdata ha (hparts ⟨n, h, i⟩ .labelled)
    · exact (composed_run ha fun h label heq => hlabel ⟨h, label, heq⟩).leavesNested hparts

end Activation

/-- A label puts one attempt in front of what it labels, and behind it one event for its outcome, if
it has one.  So the trace of a traced run on a text is nested if the run returns: each attempt and the
event that closes it are left by one activation of a labelled grammar, with only complete pairs
between them, and what is written consists of their lines in the same way.  A run that ends with a
fault leaves the beginning of a nested trace.  Its open attempts are those of the activations that
this fault ends. -/
theorem Grammar.trace_nested (g : Grammar) (s : Store) (limit : Nat) (t : Text) (position : Nat) :
    let a : Activation := ⟨limit, g, ⟨.text t, position, true⟩⟩
    let r := a.run s
    (∀ label, ∃ next after, Activation.run s ⟨limit, .labelled g label, a.input⟩ =
      ⟨r.ending, .attempt label a.input next ::
        (r.trace ++ closingEvents label a.input after r.ending)⟩) ∧
    (∀ o, r.ending = .ok o → r.trace.Nested (a.Encloses s) r.trace.text) ∧
    ∀ f, r.ending = .error f → ∃ rest : Trace, Trace.Nested
      (fun opening inner closing => a.Encloses s opening inner closing ∨
        a.BreaksOff s f opening inner closing) (r.trace ++ rest) (r.trace.text ++ rest.text) := by
  intro a r
  have hposition : 0 ≤ a.input.position := Int.natCast_nonneg position
  have hnested : r.LeavesNested s a := Activation.leavesNested rfl hposition
  refine ⟨fun label => ?_, hnested.returned, fun f hf => ?_⟩
  · exact Parser.labelled_eq (g.forward_run s limit) label hposition rfl
  · obtain ⟨rest, hrest⟩ := hnested.stopped f hf
    rw [Trace.text_append] at hrest
    exact ⟨rest, hrest⟩

example :
    ((Grammar.labelled (.lit (.text (Text.ofString "a"))) (Text.ofString "A")).run Store.empty 0
      ⟨.text (Text.ofString "ab"), 0, true⟩).trace.text = Text.ofString
        ("[attempting: A on \"ab\", next char: 0x61]\n" ++
          "[success: A, consumed: \"a\", remaining: \"b\", next char: 0x62]\n") := by
  decide +kernel

end Descent
