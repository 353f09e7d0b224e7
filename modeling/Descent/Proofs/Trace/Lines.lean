import Descent.Proofs.Grammar.Activations

/-!
What the lines of a trace show.  The line of an attempt has its label and the text that is left to
read.  The line of a success has the same label and that text in two pieces, of which the second one
is what remains, and the line of a failure has the label, the whole text again and the position.
-/

set_option autoImplicit false
set_option relaxedAutoImplicit false

namespace Descent

/-- A line announces an attempt under a label at a place where a text is left to read. -/
def Text.Announces (label shown line : Text) : Prop :=
  ∃ next, line = Text.ofString "[attempting: " ++ label ++ Text.ofString " on \"" ++ shown
    ++ Text.ofString "\", next char: " ++ next ++ Text.ofString "]"

/-- A line reports an outcome under the label of its attempt, which was made at a position where a
text was left to read. -/
inductive Outcome.ReportedBy (label shown : Text) (position : Int) : Outcome → Text → Prop where
  | success {v : Value} {rest : Input} {consumed remaining next : Text} :
    rest.rest = .text remaining → consumed ++ remaining = shown →
    ReportedBy label shown position (.success v rest)
      (Text.ofString "[success: " ++ label ++ Text.ofString ", consumed: \"" ++ consumed
        ++ Text.ofString "\", remaining: \"" ++ remaining ++ Text.ofString "\", next char: " ++ next
        ++ Text.ofString "]")
  | failure {place : Int} {why next : Text} :
    ReportedBy label shown position (.failure place why)
      (Text.ofString "[failure at pos " ++ Text.ofInt position ++ Text.ofString " in rule [" ++ why
        ++ Text.ofString "]: " ++ label ++ Text.ofString ", remaining input: \"" ++ shown
        ++ Text.ofString "\", next char: " ++ next ++ Text.ofString "]")

/-- The second event closes the first one, which is an attempt on an input that had the given
outcome, and so do their lines. -/
structure Event.ClosedBy (opening : Event) (label : Text) (i : Input) (o : Outcome)
    (closing : Event) : Prop where
  attempt : ∃ next, opening = .attempt label i next
  outcome : ∃ next, closing = o.event label i next
  lines : ∃ shown, i.rest = .text shown ∧ Text.Announces label shown opening.line ∧
    o.ReportedBy label shown i.position closing.line

namespace Trace

@[simp] theorem text_cons (e : Event) (trace : Trace) :
    text (e :: trace) = e.line ++ Code.ofChar '\n' :: trace.text := by
  rw [text, text, List.flatMap_cons, List.append_assoc]
  rfl

@[simp] theorem text_append (a b : Trace) : text (a ++ b) = a.text ++ b.text :=
  List.flatMap_append

end Trace

/-- What has been read between two positions and what is left behind the second one is what was left
behind the first. -/
theorem Sequence.between_append_onward {α : Type} (items : List α) {start stop : Int}
    (hstart : 0 ≤ start) (hstop : start ≤ stop) :
    between start stop items ++ onward stop items = onward start items := by
  have hle : start.toNat ≤ stop.toNat := by omega
  rw [between, onward, onward, offset, offset, if_pos hstart, if_pos (Int.le_trans hstart hstop)]
  calc (items.take stop.toNat).drop start.toNat ++ items.drop stop.toNat
    _ = (items.drop start.toNat).take (stop.toNat - start.toNat) ++
        (items.drop start.toNat).drop (stop.toNat - start.toNat) := by
      rw [List.drop_take, List.drop_drop, Nat.add_sub_cancel' hle]
    _ = items.drop start.toNat := List.take_append_drop _ _

variable {i : Input} {t : Text}

theorem Event.announces_attempt (hdata : i.data = .text t) (label next : Text) :
    Text.Announces label (Sequence.onward i.position t) (Event.attempt label i next).line := by
  refine ⟨next, ?_⟩
  rw [line, Input.rest_of_text hdata]
  rfl

/-- The line of the event of an outcome reports that outcome. -/
theorem Outcome.Within.reportedBy {o : Outcome} (h : o.Within i) (hdata : i.data = .text t)
    (hi : 0 ≤ i.position) (label next : Text) :
    o.ReportedBy label (Sequence.onward i.position t) i.position (o.event label i next).line := by
  cases o with
  | success v rest =>
    have hreaches : i.Reaches rest := h
    have hremaining : rest.rest = .text (Sequence.onward rest.position t) :=
      Input.rest_of_text (hreaches.data.trans hdata)
    -- What the event writes as consumed is cut out of the data, not of what was left to read.
    have hline : ((Outcome.success v rest).event label i next).line =
        Text.ofString "[success: " ++ label ++ Text.ofString ", consumed: \""
          ++ Sequence.between i.position rest.position t ++ Text.ofString "\", remaining: \""
          ++ Sequence.onward rest.position t ++ Text.ofString "\", next char: " ++ next
          ++ Text.ofString "]" := by
      rw [event, Event.line, Input.consumed, hremaining, hdata]
      rfl
    have hcut : Sequence.between i.position rest.position t ++ Sequence.onward rest.position t =
        Sequence.onward i.position t :=
      Sequence.between_append_onward t hi hreaches.position.1
    rw [hline]
    exact .success hremaining hcut
  | failure place why =>
    have hline : ((Outcome.failure place why).event label i next).line =
        Text.ofString "[failure at pos " ++ Text.ofInt i.position ++ Text.ofString " in rule ["
          ++ why ++ Text.ofString "]: " ++ label ++ Text.ofString ", remaining input: \""
          ++ Sequence.onward i.position t ++ Text.ofString "\", next char: " ++ next
          ++ Text.ofString "]" := by
      rw [event, Event.line, Input.rest_of_text hdata]
      rfl
    rw [hline]
    exact .failure

/-- The event of an outcome closes the attempt that had this outcome. -/
theorem Outcome.Within.closedBy {o : Outcome} (h : o.Within i) (hdata : i.data = .text t)
    (hi : 0 ≤ i.position) (label next after : Text) :
    (Event.attempt label i next).ClosedBy label i o (o.event label i after) := by
  exact ⟨⟨next, rfl⟩, ⟨after, rfl⟩, _, Input.rest_of_text hdata,
    Event.announces_attempt hdata label next, h.reportedBy hdata hi label after⟩

end Descent
