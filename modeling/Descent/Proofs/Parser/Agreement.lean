import Descent.Proofs.Parser.Laws
import Descent.Store

/-!
What is said of a failure decides nothing.  A parser learns of another one that it failed, and hands
on or replaces the position and the explanation, but never looks at them.  So parsers made in the
same way from parts that agree up to what they say of failures agree in the same way.  And a choice
in which all alternatives but one fail ends as that one does, wherever it stands.
-/

set_option autoImplicit false
set_option relaxedAutoImplicit false

namespace Descent

/-- The same success, or two failures whatever they say. -/
inductive Outcome.Agrees : Outcome → Outcome → Prop where
  | success (v : Value) (rest : Input) : Agrees (.success v rest) (.success v rest)
  | failure (position position' : Int) (why why' : Text) :
    Agrees (.failure position why) (.failure position' why')

namespace Run

/-- The run ends in a failure. -/
def Fails (r : Run Outcome) : Prop :=
  ∃ position why, r.ending = .ok (.failure position why)

theorem Fails.onSuccess {r : Run Outcome} (h : r.Fails) (next : Value → Input → Run Outcome) :
    (r.onSuccess next).Fails := by
  obtain ⟨position, why, h⟩ := h
  exact ⟨position, why, by rw [ending_onSuccess, h]⟩

/-- Any two traces go together. -/
theorem TraceRelation.any : TraceRelation fun _ _ => True :=
  ⟨trivial, fun _ _ => trivial⟩

/-- The runs end alike, up to what they say of a failure. -/
def Agrees (r s : Run Outcome) : Prop :=
  Alike (fun _ _ => True) Outcome.Agrees r s

namespace Agrees

variable {r s t : Run Outcome}

theorem done {o o' : Outcome} (h : o.Agrees o') : Agrees (Run.done o) (Run.done o') :=
  Alike.done .any h

theorem of_ending (h : r.ending = s.ending) : Agrees r s := by
  refine ⟨trivial, ?_⟩
  rw [h]
  cases s.ending with
  | error f => exact .error f
  | ok o =>
    cases o with
    | success v rest => exact .ok (.success v rest)
    | failure position why => exact .ok (.failure _ _ _ _)

theorem of_fails (hr : r.Fails) (hs : s.Fails) : Agrees r s := by
  obtain ⟨position, why, hr⟩ := hr
  obtain ⟨position', why', hs⟩ := hs
  refine ⟨trivial, ?_⟩
  rw [hr, hs]
  exact .ok (.failure _ _ _ _)

theorem trans (h : Agrees r s) (h' : Agrees s t) : Agrees r t := by
  obtain ⟨-, h⟩ := h
  obtain ⟨-, h'⟩ := h'
  refine ⟨trivial, ?_⟩
  revert h h'
  generalize r.ending = a
  generalize s.ending = b
  generalize t.ending = c
  intro h h'
  cases h with
  | error f => exact h'
  | ok ho =>
    cases h' with
    | ok ho' =>
      cases ho with
      | success v rest => exact .ok ho'
      | failure _ _ _ _ =>
        cases ho' with
        | failure _ _ _ _ => exact .ok (.failure _ _ _ _)

theorem onSuccess {next next' : Value → Input → Run Outcome} (h : Agrees r s)
    (hnext : ∀ v rest, Agrees (next v rest) (next' v rest)) :
    Agrees (r.onSuccess next) (s.onSuccess next') := by
  refine Alike.andThen .any h fun o o' ho => ?_
  cases ho with
  | success v rest => exact hnext v rest
  | failure _ _ _ _ => exact done (.failure _ _ _ _)

theorem onFailure {next next' : Run Outcome} (h : Agrees r s) (hnext : Agrees next next') :
    Agrees (r.onFailure next) (s.onFailure next') := by
  refine Alike.andThen .any h fun o o' ho => ?_
  cases ho with
  | success v rest => exact done (.success v rest)
  | failure _ _ _ _ => exact hnext

end Agrees

theorem ending_onFailure_of_fails {r : Run Outcome} (h : r.Fails) (next : Run Outcome) :
    (r.onFailure next).ending = next.ending := by
  obtain ⟨position, why, h⟩ := h
  rw [ending_onFailure, h]

theorem ending_onFailure_of_not_fails {r : Run Outcome} (h : ¬r.Fails) (next : Run Outcome) :
    (r.onFailure next).ending = r.ending := by
  rw [ending_onFailure]
  rcases hr : r.ending with f | ⟨v, rest⟩ | ⟨position, why⟩
  · rfl
  · rfl
  · exact absurd ⟨position, why, hr⟩ h

end Run

namespace Parser

/-! The ways to combine parsers. -/

/-- The parsers agree on every input, up to what they say of failures. -/
def Agrees (p q : Parser) : Prop :=
  ∀ i, (p i).Agrees (q i)

namespace Agrees

variable {p p' q q' : Parser}

theorem refl (p : Parser) : p.Agrees p :=
  fun _ => .of_ending rfl

theorem trans {p q r : Parser} (h : p.Agrees q) (h' : q.Agrees r) : p.Agrees r :=
  fun i => (h i).trans (h' i)

theorem bind {next next' : Value → Parser} (hp : p.Agrees p')
    (hnext : ∀ v, (next v).Agrees (next' v)) : (bind p next).Agrees (bind p' next') :=
  fun i => (hp i).onSuccess hnext

theorem seq (hp : p.Agrees p') (hq : q.Agrees q') : (seq p q).Agrees (seq p' q') :=
  hp.bind fun _ => hq.bind fun _ => refl _

theorem right (hp : p.Agrees p') (hq : q.Agrees q') : (right p q).Agrees (right p' q') :=
  hp.bind fun _ => hq

theorem between {opening opening' closing closing' : Parser} (ho : opening.Agrees opening')
    (hp : p.Agrees p') (hc : closing.Agrees closing') :
    (between opening p closing).Agrees (between opening' p' closing') := by
  rw [between_eq_bind, between_eq_bind]
  exact ho.bind fun _ => hp.bind fun _ => hc.bind fun _ => refl _

theorem transform (hp : p.Agrees p') (f : Value → Except Fault Value) :
    (transform p f).Agrees (transform p' f) :=
  hp.bind fun _ => refl _

theorem cause (hp : p.Agrees p') (why : Text) : (cause p why).Agrees (cause p' why) := by
  intro i
  refine Run.Alike.andThen .any (hp i) fun o o' ho => ?_
  cases ho with
  | success v rest => exact Run.Agrees.done (.success v rest)
  | failure _ _ _ _ => exact Run.Agrees.done (.failure _ _ _ _)

theorem orElse (hp : p.Agrees p') (v : Value) : (orElse p v).Agrees (orElse p' v) :=
  fun i => (hp i).onFailure (refl (result v) i)

theorem choice {n : Nat} {branch branch' : Fin n → Parser} (hp : p.Agrees p')
    (hbranch : ∀ k, (branch k).Agrees (branch' k)) :
    (choice p (List.ofFn branch)).Agrees (choice p' (List.ofFn branch')) := by
  intro i
  induction n generalizing p p' with
  | zero =>
    rw [List.ofFn_zero, List.ofFn_zero, choice_nil, choice_nil]
    exact hp i
  | succ n ih =>
    rw [List.ofFn_succ, List.ofFn_succ, choice_cons, choice_cons]
    exact (hp i).onFailure (ih (hbranch 0) fun k => hbranch k.succ)

private theorem rounds (hp : p.Agrees p') (i : Input) :
    Run.Alike (fun _ _ => True) Eq (Parser.rounds p i) (Parser.rounds p' i) := by
  induction hn : i.left using Nat.strongRecOn generalizing i with
  | ind n ih =>
    rw [Parser.rounds, Parser.rounds]
    refine Run.Alike.andThen .any (hp i) fun o o' ho => ?_
    cases ho with
    | failure _ _ _ _ => exact .done .any rfl
    | success v rest =>
      dsimp only
      split
      · next hlt =>
        refine (ih _ (hn ▸ hlt) rest rfl).andThen .any fun found _ heq => ?_
        exact .done .any (by rw [heq])
      · exact .stop .any _

theorem many (hp : p.Agrees p') : (many p).Agrees (many p') := by
  intro i
  refine (rounds hp i).andThen .any fun found _ heq => ?_
  rw [heq]
  exact Run.Agrees.done (.success _ _)

private theorem separatedRounds {separator separator' : Parser} (hp : p.Agrees p')
    (hs : separator.Agrees separator') (i : Input) :
    Run.Alike (fun _ _ => True) Eq (Parser.separatedRounds p separator i)
      (Parser.separatedRounds p' separator' i) := by
  induction hn : i.left using Nat.strongRecOn generalizing i with
  | ind n ih =>
    rw [Parser.separatedRounds, Parser.separatedRounds]
    refine Run.Alike.andThen .any (hs i) fun o o' ho => ?_
    cases ho with
    | failure _ _ _ _ => exact .done .any rfl
    | success _ mid =>
      refine Run.Alike.andThen .any (hp mid) fun o o' ho => ?_
      cases ho with
      | failure _ _ _ _ => exact .done .any rfl
      | success v rest =>
        dsimp only
        split
        · next hlt =>
          refine (ih _ (hn ▸ hlt) rest rfl).andThen .any fun found _ heq => ?_
          exact .done .any (by rw [heq])
        · exact .stop .any _

theorem sepBy1 {separator separator' : Parser} (hp : p.Agrees p')
    (hs : separator.Agrees separator') : (sepBy1 p separator).Agrees (sepBy1 p' separator') := by
  refine hp.bind fun v i => (separatedRounds hp hs i).andThen .any fun found _ heq => ?_
  rw [heq]
  exact Run.Agrees.done (.success _ _)

/-- The explanation of a failure is in the trace, but nothing depends on it. -/
theorem labelled (hp : p.Agrees p') (label : Text) :
    (labelled p label).Agrees (labelled p' label) := by
  have hemit : ∀ (e e' : Event) (o o' : Outcome), o.Agrees o' →
      Run.Agrees (do Run.emit e; return o) (do Run.emit e'; return o') :=
    fun e e' o o' h => ⟨trivial, .ok h⟩
  intro i
  unfold Parser.labelled
  split
  · refine (Run.Alike.ofExcept .any _).andThen .any fun next _ heq => ?_
    obtain rfl := heq
    refine Run.Alike.andThen .any (R := Eq) ⟨trivial, .ok rfl⟩ fun _ _ _ => ?_
    refine Run.Alike.andThen .any (hp i) fun o o' ho => ?_
    cases ho with
    | success v rest =>
      refine (Run.Alike.ofExcept .any _).andThen .any fun after _ heq => ?_
      exact hemit _ _ _ _ (.success v rest)
    | failure _ _ _ _ =>
      refine (Run.Alike.ofExcept .any _).andThen .any fun again _ heq => ?_
      exact hemit _ _ _ _ (.failure _ _ _ _)
  · exact hp i

end Agrees

/-! Choices in which at most one alternative does not fail. -/

variable {p q : Parser} {others others' : List Parser} {i : Input}

theorem fails_choice (h : ∀ r ∈ p :: others, (r i).Fails) : (choice p others i).Fails := by
  induction others generalizing p with
  | nil =>
    rw [choice_nil]
    exact h p List.mem_cons_self
  | cons q others ih =>
    obtain ⟨position, why, hrest⟩ := ih fun r hr => h r (List.mem_cons_of_mem _ hr)
    rw [choice_cons]
    exact ⟨position, why, (Run.ending_onFailure_of_fails (h p List.mem_cons_self) _).trans hrest⟩

/-- A choice ends as the one alternative does that does not fail. -/
theorem ending_choice {r : Parser} (hr : r ∈ p :: others) (hnot : ¬(r i).Fails)
    (halone : ∀ r' ∈ p :: others, r' = r ∨ (r' i).Fails) :
    (choice p others i).ending = (r i).ending := by
  induction others generalizing p with
  | nil =>
    obtain rfl := List.mem_singleton.mp hr
    rw [choice_nil]
  | cons q others ih =>
    rw [choice_cons]
    rcases halone p List.mem_cons_self with rfl | hp
    · exact Run.ending_onFailure_of_not_fails hnot _
    · rw [Run.ending_onFailure_of_fails hp]
      have hne : r ≠ p := fun heq => hnot (heq ▸ hp)
      exact ih ((List.mem_cons.mp hr).resolve_left hne) fun r' hr' =>
        halone r' (List.mem_cons_of_mem _ hr')

/-- Where one alternative at most does not fail, the order of the alternatives decides nothing but
what is said of a failure. -/
theorem choice_agrees (hmem : ∀ r, r ∈ p :: others ↔ r ∈ q :: others')
    (halone : ∀ r ∈ p :: others, ∀ r' ∈ p :: others, r = r' ∨ (r i).Fails ∨ (r' i).Fails) :
    (choice p others i).Agrees (choice q others' i) := by
  by_cases hsome : ∃ r ∈ p :: others, ¬(r i).Fails
  · obtain ⟨r, hr, hnot⟩ := hsome
    have hothers : ∀ r' ∈ p :: others, r' = r ∨ (r' i).Fails := fun r' hr' =>
      (halone r' hr' r hr).imp_right fun h => h.resolve_right hnot
    refine .of_ending ((ending_choice hr hnot hothers).trans ?_)
    exact (ending_choice ((hmem r).mp hr) hnot fun r' hr' => hothers r' ((hmem r').mpr hr')).symm
  · have hall : ∀ r ∈ p :: others, (r i).Fails := fun r hr =>
      Classical.byContradiction fun h => hsome ⟨r, hr, h⟩
    exact .of_fails (fails_choice hall) (fails_choice fun r hr => hall r ((hmem r).mpr hr))

end Parser

namespace Grammar

/-- Grammars read alike over cells that agree. -/
theorem parser_agrees {onEnter onEnter' : CellId → Parser}
    (h : ∀ cell, (onEnter cell).Agrees (onEnter' cell)) (g : Grammar) :
    (g.parser onEnter).Agrees (g.parser onEnter') := by
  induction g with
  | result _ | fail | fault _ | item | sat _ | lit _ | pattern _ _ | eof => exact .refl _
  | bind g next ih ihnext => exact ih.bind ihnext
  | seq g h ihg ihh => exact ihg.seq ihh
  | right g h ihg ihh => exact ihg.right ihh
  | between g h k ihg ihh ihk => exact ihg.between ihh ihk
  | cause g why ih => exact ih.cause why
  | transform g f ih => exact ih.transform f
  | orElse g v ih => exact ih.orElse v
  | choice more branch ih => exact (ih 0).choice fun k => ih k.succ
  | many g ih => exact ih.many
  | sepBy1 g separator ihg ihs => exact ihg.sepBy1 ihs
  | labelled g label ih => exact ih.labelled label
  | enter cell => exact h cell

end Grammar

end Descent
