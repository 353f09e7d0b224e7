import Descent.Parser

/-!
What holds of the result of a run, and of two runs side by side.  Either passes from a run to the
runs that come after it, so a parser made of others inherits it from them.
-/

set_option autoImplicit false
set_option relaxedAutoImplicit false

namespace Descent

namespace Run

variable {α β γ δ : Type}

@[simp] theorem bind_eq_andThen (r : Run α) (next : α → Run β) : r >>= next = r.andThen next := rfl

@[simp] theorem pure_eq_done (a : α) : (pure a : Run α) = done a := rfl

@[simp] theorem ofExcept_ok (a : α) : ofExcept (.ok a) = done a := rfl

theorem ending_andThen_of_error {f : Fault} {r : Run α} (h : r.ending = .error f)
    (next : α → Run β) : (r.andThen next).ending = .error f := by
  simp only [andThen, h]

theorem ending_andThen_of_ok {a : α} {r : Run α} (h : r.ending = .ok a) (next : α → Run β) :
    (r.andThen next).ending = (next a).ending := by
  simp only [andThen, h]

theorem ending_andThen_done (r : Run α) (f : α → β) :
    (r.andThen fun a => done (f a)).ending = r.ending.map f := by
  rcases r with ⟨_ | a, trace⟩ <;> rfl

/-- A result of the run has a property.  Nothing is said of a fault. -/
def Ensures (P : α → Prop) (r : Run α) : Prop :=
  ∀ a, r.ending = .ok a → P a

namespace Ensures

theorem done {P : α → Prop} {a : α} (h : P a) : Ensures P (Run.done a) := by
  intro b hb
  cases hb
  exact h

theorem stop {P : α → Prop} (f : Fault) : Ensures P (Run.stop f) := by
  intro a ha
  cases ha

theorem andThen {P : α → Prop} {Q : β → Prop} {r : Run α} {next : α → Run β}
    (hr : Ensures P r) (hnext : ∀ a, P a → Ensures Q (next a)) : Ensures Q (r.andThen next) := by
  intro b hb
  rcases r with ⟨f | a, trace⟩
  · cases hb
  · exact hnext a (hr a rfl) b hb

theorem mono {P Q : α → Prop} {r : Run α} (hr : Ensures P r) (h : ∀ a, P a → Q a) :
    Ensures Q r :=
  fun a ha => h a (hr a ha)

theorem and {P Q : α → Prop} {r : Run α} (hP : Ensures P r) (hQ : Ensures Q r) :
    Ensures (fun a => P a ∧ Q a) r :=
  fun a ha => ⟨hP a ha, hQ a ha⟩

theorem onSuccess {P Q : Outcome → Prop} {r : Run Outcome} {next : Value → Input → Run Outcome}
    (hr : Ensures P r) (hfailure : ∀ q why, P (.failure q why) → Q (.failure q why))
    (hsuccess : ∀ v rest, P (.success v rest) → Ensures Q (next v rest)) :
    Ensures Q (r.onSuccess next) := by
  refine hr.andThen fun o ho => ?_
  cases o with
  | success v rest => exact hsuccess v rest ho
  | failure q why => exact done (hfailure q why ho)

/-- Continuations that agree on the results a run can have are the same to it. -/
theorem andThen_congr {P : α → Prop} {r : Run α} {next next' : α → Run β} (hr : Ensures P r)
    (h : ∀ a, P a → next a = next' a) : r.andThen next = r.andThen next' := by
  rcases r with ⟨f | a, trace⟩
  · rfl
  · simp only [Run.andThen, h a (hr a rfl)]

theorem true (r : Run α) : Ensures (fun _ => True) r :=
  fun _ _ => trivial

end Ensures

/-- Two ends are alike: related results, or the same fault. -/
inductive SameEnd (R : α → β → Prop) : Except Fault α → Except Fault β → Prop where
  | ok {a : α} {b : β} : R a b → SameEnd R (.ok a) (.ok b)
  | error (f : Fault) : SameEnd R (.error f) (.error f)

theorem SameEnd.eq_error_iff {R : α → β → Prop} {a : Except Fault α} {b : Except Fault β}
    (h : SameEnd R a b) (f : Fault) : a = .error f ↔ b = .error f := by
  cases h with
  | ok _ => exact ⟨nofun, nofun⟩
  | error f' => simp only [Except.error.injEq]

/-- What relates the traces of two runs holds of empty traces and survives when traces are put
together. -/
structure TraceRelation (T : Trace → Trace → Prop) : Prop where
  nil : T [] []
  append {a b c d : Trace} : T a b → T c d → T (a ++ c) (b ++ d)

/-- Two runs are alike: their traces are related and so are their ends. -/
structure Alike (T : Trace → Trace → Prop) (R : α → β → Prop) (r : Run α) (s : Run β) : Prop where
  trace : T r.trace s.trace
  ending : SameEnd R r.ending s.ending

namespace Alike

variable {T : Trace → Trace → Prop}

theorem done (hT : TraceRelation T) {R : α → β → Prop} {a : α} {b : β} (h : R a b) :
    Alike T R (Run.done a) (Run.done b) :=
  ⟨hT.nil, .ok h⟩

theorem stop (hT : TraceRelation T) {R : α → β → Prop} (f : Fault) :
    Alike T R (Run.stop f) (Run.stop f) :=
  ⟨hT.nil, .error f⟩

theorem andThen (hT : TraceRelation T) {R : α → β → Prop} {Q : γ → δ → Prop} {r : Run α}
    {s : Run β} {next : α → Run γ} {next' : β → Run δ} (h : Alike T R r s)
    (hnext : ∀ a b, R a b → Alike T Q (next a) (next' b)) :
    Alike T Q (r.andThen next) (s.andThen next') := by
  rcases r with ⟨re, rt⟩
  rcases s with ⟨se, st⟩
  rcases h with ⟨ht, he⟩
  cases he with
  | ok hab =>
    have hn := hnext _ _ hab
    exact ⟨hT.append ht hn.trace, hn.ending⟩
  | error f => exact ⟨ht, .error f⟩

theorem ofExcept (hT : TraceRelation T) (e : Except Fault α) :
    Alike T Eq (Run.ofExcept e) (Run.ofExcept e) := by
  cases e with
  | ok a => exact ⟨hT.nil, .ok rfl⟩
  | error f => exact ⟨hT.nil, .error f⟩

end Alike

end Run

namespace Parser

/-- Three parsers one after the other, written as nested continuations. -/
theorem between_eq (opening p closing : Parser) (i : Input) :
    between opening p closing i =
      (opening i).onSuccess fun _ afterOpening =>
        (p afterOpening).onSuccess fun v afterBody =>
          (closing afterBody).onSuccess fun _ rest => .done (.success v rest) := by
  simp only [between, collect, Run.onSuccess, Run.andThen_assoc]
  congr 1
  funext o
  cases o with
  | failure q why => simp
  | success w afterOpening =>
    simp only [Run.andThen_assoc]
    congr 1
    funext o
    cases o with
    | failure q why => simp
    | success v afterBody =>
      simp only [Run.andThen_assoc]
      congr 1
      funext o
      cases o <;> simp

/-- Where nothing opens there are two parsers left. -/
theorem between_result (u : Value) (p closing : Parser) (i : Input) :
    between (result u) p closing i =
      (p i).onSuccess fun v mid => (closing mid).onSuccess fun _ rest => .done (.success v rest) := by
  rw [between_eq]
  simp [result, Run.onSuccess]

end Parser

end Descent
