import Mathlib.Logic.Relation
import Descent.Proofs.Grammar.LeftRecursion
import Descent.Proofs.Parser.Correspondence
import Descent.Proofs.Parser.Forward

/-!
What happens inside a run.  A run of a grammar is made of runs of its parts, each on an input that
the outcomes before it decide, and of what it does itself.  These activations are related here by
which one calls which.  Calls do not go on for ever, and all that an activation does of its own is
to end, to raise a fault for one of seven reasons, or to leave the events of a label.
-/

set_option autoImplicit false
set_option relaxedAutoImplicit false

namespace Descent

/-- A grammar that is run on an input, with the number of entries that may be active inside it. -/
structure Activation where
  limit : Nat
  grammar : Grammar
  input : Input

namespace Activation

/-- The run of an activation over a store. -/
def run (s : Store) (a : Activation) : Run Outcome :=
  a.grammar.run s a.limit a.input

/-- The activation succeeds with a value and leaves an input. -/
def Gives (s : Store) (a : Activation) (v : Value) (rest : Input) : Prop :=
  (a.run s).ending = .ok (.success v rest)

/-- The activation fails. -/
def Fails (s : Store) (a : Activation) : Prop :=
  ∃ position why, (a.run s).ending = .ok (.failure position why)

/-- A round of a repetition, which has to leave the position where it began. -/
def Round (s : Store) (limit : Nat) (g : Grammar) (i j : Input) : Prop :=
  ∃ v, Gives s ⟨limit, g, i⟩ v j ∧ j.position ≠ i.position

/-- A round of a repetition with separators: a separator and what follows it. -/
def SeparatedRound (s : Store) (limit : Nat) (g separator : Grammar) (i j : Input) : Prop :=
  ∃ u mid v, Gives s ⟨limit, separator, i⟩ u mid ∧ Gives s ⟨limit, g, mid⟩ v j ∧
    j.position ≠ i.position

open Relation (ReflTransGen)

/-- The first activation runs the second one as a part of itself. -/
inductive Calls (s : Store) : Activation → Activation → Prop where
  | bind {n : Nat} {g : Grammar} {next : Value → Grammar} {i : Input} :
    Calls s ⟨n, .bind g next, i⟩ ⟨n, g, i⟩
  | bound {n : Nat} {g : Grammar} {next : Value → Grammar} {i rest : Input} {v : Value} :
    Gives s ⟨n, g, i⟩ v rest → Calls s ⟨n, .bind g next, i⟩ ⟨n, next v, rest⟩
  | seqFirst {n : Nat} {g h : Grammar} {i : Input} : Calls s ⟨n, .seq g h, i⟩ ⟨n, g, i⟩
  | seqSecond {n : Nat} {g h : Grammar} {i mid : Input} {v : Value} :
    Gives s ⟨n, g, i⟩ v mid → Calls s ⟨n, .seq g h, i⟩ ⟨n, h, mid⟩
  | rightFirst {n : Nat} {g h : Grammar} {i : Input} : Calls s ⟨n, .right g h, i⟩ ⟨n, g, i⟩
  | rightSecond {n : Nat} {g h : Grammar} {i mid : Input} {v : Value} :
    Gives s ⟨n, g, i⟩ v mid → Calls s ⟨n, .right g h, i⟩ ⟨n, h, mid⟩
  | opening {n : Nat} {g h k : Grammar} {i : Input} : Calls s ⟨n, .between g h k, i⟩ ⟨n, g, i⟩
  | body {n : Nat} {g h k : Grammar} {i j : Input} {u : Value} :
    Gives s ⟨n, g, i⟩ u j → Calls s ⟨n, .between g h k, i⟩ ⟨n, h, j⟩
  | closing {n : Nat} {g h k : Grammar} {i j l : Input} {u v : Value} :
    Gives s ⟨n, g, i⟩ u j → Gives s ⟨n, h, j⟩ v l → Calls s ⟨n, .between g h k, i⟩ ⟨n, k, l⟩
  | cause {n : Nat} {g : Grammar} {why : Text} {i : Input} :
    Calls s ⟨n, .cause g why, i⟩ ⟨n, g, i⟩
  | transform {n : Nat} {g : Grammar} {f : Value → Except Fault Value} {i : Input} :
    Calls s ⟨n, .transform g f, i⟩ ⟨n, g, i⟩
  | orElse {n : Nat} {g : Grammar} {v : Value} {i : Input} :
    Calls s ⟨n, .orElse g v, i⟩ ⟨n, g, i⟩
  | branch {n more : Nat} {branch : Fin (more + 2) → Grammar} {before after : List Grammar}
    {g : Grammar} {i : Input} : List.ofFn branch = before ++ g :: after →
    (∀ h ∈ before, Fails s ⟨n, h, i⟩) → Calls s ⟨n, .choice more branch, i⟩ ⟨n, g, i⟩
  | round {n : Nat} {g : Grammar} {i j : Input} : ReflTransGen (Round s n g) i j →
    Calls s ⟨n, .many g, i⟩ ⟨n, g, j⟩
  | first {n : Nat} {g separator : Grammar} {i : Input} :
    Calls s ⟨n, .sepBy1 g separator, i⟩ ⟨n, g, i⟩
  | separator {n : Nat} {g separator : Grammar} {i j k : Input} {v : Value} :
    Gives s ⟨n, g, i⟩ v j → ReflTransGen (SeparatedRound s n g separator) j k →
    Calls s ⟨n, .sepBy1 g separator, i⟩ ⟨n, separator, k⟩
  | separated {n : Nat} {g separator : Grammar} {i j k mid : Input} {v u : Value} :
    Gives s ⟨n, g, i⟩ v j → ReflTransGen (SeparatedRound s n g separator) j k →
    Gives s ⟨n, separator, k⟩ u mid → Calls s ⟨n, .sepBy1 g separator, i⟩ ⟨n, g, mid⟩
  | labelled {n : Nat} {g : Grammar} {label : Text} {i : Input} :
    Calls s ⟨n, .labelled g label, i⟩ ⟨n, g, i⟩
  | entry {n : Nat} {cell : CellId} {body : Grammar} {i : Input} : s.get? cell = some body →
    Calls s ⟨n + 1, .enter cell, i⟩ ⟨n, body, i⟩

/-- A repeated part of the activation succeeds, after some rounds, without moving the position.
What is repeated is a grammar, or a separator with a grammar behind it. -/
inductive Stalls (s : Store) : Activation → Repetition → Prop where
  | many {n : Nat} {g : Grammar} {i j rest : Input} {v : Value} :
    ReflTransGen (Round s n g) i j → Gives s ⟨n, g, j⟩ v rest → rest.position = j.position →
    Stalls s ⟨n, .many g, i⟩ .many
  | separated {n : Nat} {g separator : Grammar} {i j k mid rest : Input} {v u w : Value} :
    Gives s ⟨n, g, i⟩ v j → ReflTransGen (SeparatedRound s n g separator) j k →
    Gives s ⟨n, separator, k⟩ u mid → Gives s ⟨n, g, mid⟩ w rest → rest.position = k.position →
    Stalls s ⟨n, .sepBy1 g separator, i⟩ .separated

/-- The activation stops with a fault of its own, and not with one of a part. -/
inductive Raises (s : Store) : Activation → Fault → Prop where
  | fault {n : Nat} {i : Input} (f : Fault) : Raises s ⟨n, .fault f, i⟩ f
  | test {n : Nat} {test : Value → Except Fault Bool} {i : Input} {v : Value} {f : Fault} :
    i.atEnd = false → i.next = .ok v → test v = .error f → Raises s ⟨n, .sat test, i⟩ f
  | noText {n : Nat} {source : Text} {p : Pattern} {i : Input} : i.rest.text? = none →
    Raises s ⟨n, .pattern source p, i⟩ .unsupported
  | function {n : Nat} {g : Grammar} {apply : Value → Except Fault Value} {i rest : Input}
    {v : Value} {f : Fault} : Gives s ⟨n, g, i⟩ v rest → apply v = .error f →
    Raises s ⟨n, .transform g apply, i⟩ f
  | stall {a : Activation} {repetition : Repetition} : a.Stalls s repetition →
    Raises s a (.endlessRepetition repetition)
  | tooDeep {cell : CellId} {i : Input} : Raises s ⟨0, .enter cell, i⟩ .tooDeep
  | emptyCell {n : Nat} {cell : CellId} {i : Input} : s.get? cell = none →
    Raises s ⟨n + 1, .enter cell, i⟩ .undefinedCell

/-- The second activation is the first one, or a part of it at any depth. -/
def Includes (s : Store) : Activation → Activation → Prop :=
  ReflTransGen (Calls s)

variable {s : Store} {a b : Activation} {n : Nat} {g h separator : Grammar} {i j k : Input}

/-! No activation leads out of the input of the one that calls it. -/

theorem Gives.reaches {v : Value} {rest : Input} (h : a.Gives s v rest) : a.input.Reaches rest :=
  a.grammar.forward_run s a.limit a.input _ h

theorem Round.reaches (h : Round s n g i j) : i.Reaches j := by
  obtain ⟨v, hv, -⟩ := h
  exact hv.reaches

theorem SeparatedRound.reaches (h : SeparatedRound s n g separator i j) : i.Reaches j := by
  obtain ⟨u, mid, v, hu, hv, -⟩ := h
  exact hu.reaches.trans hv.reaches

/-- What holds of one round holds of several. -/
theorem reaches_of_rounds {R : Input → Input → Prop} (hR : ∀ {i j}, R i j → i.Reaches j)
    (h : ReflTransGen R i j) : i.Reaches j := by
  induction h with
  | refl => exact Input.Reaches.refl i
  | tail _ hround ih => exact ih.trans (hR hround)

theorem Calls.reaches (h : a.Calls s b) : a.input.Reaches b.input := by
  cases h with
  | bound hv | seqSecond hv | rightSecond hv | body hv => exact hv.reaches
  | closing hu hv => exact hu.reaches.trans hv.reaches
  | round hij => exact reaches_of_rounds Round.reaches hij
  | separator hv hjk => exact hv.reaches.trans (reaches_of_rounds SeparatedRound.reaches hjk)
  | separated hv hjk hu =>
    exact (hv.reaches.trans (reaches_of_rounds SeparatedRound.reaches hjk)).trans hu.reaches
  | _ => exact Input.Reaches.refl _

theorem Calls.start (h : a.Calls s b) (ha : 0 ≤ a.input.position) : 0 ≤ b.input.position :=
  Int.le_trans ha h.reaches.position.1

theorem Includes.reaches (h : a.Includes s b) : a.input.Reaches b.input := by
  induction h with
  | refl => exact Input.Reaches.refl _
  | tail _ hcalls ih => exact ih.trans hcalls.reaches

/-! Calls do not go on for ever: parts of a grammar are smaller, and an entry lowers the limit. -/

private theorem acc_of_entries
    (hentries : ∀ cell i, Acc (fun b a => Calls s a b) ⟨n, .enter cell, i⟩) (g : Grammar)
    (i : Input) : Acc (fun b a => Calls s a b) ⟨n, g, i⟩ := by
  induction g generalizing i with
  | result _ | fail | fault _ | item | sat _ | lit _ | pattern _ _ | eof =>
    exact ⟨_, fun b hb => by cases hb⟩
  | bind g next ih ihnext =>
    refine ⟨_, fun b hb => ?_⟩
    cases hb with
    | bind => exact ih _
    | bound _ => exact ihnext _ _
  | seq g h ihg ihh =>
    refine ⟨_, fun b hb => ?_⟩
    cases hb with
    | seqFirst => exact ihg _
    | seqSecond _ => exact ihh _
  | right g h ihg ihh =>
    refine ⟨_, fun b hb => ?_⟩
    cases hb with
    | rightFirst => exact ihg _
    | rightSecond _ => exact ihh _
  | between g h k ihg ihh ihk =>
    refine ⟨_, fun b hb => ?_⟩
    cases hb with
    | opening => exact ihg _
    | body _ => exact ihh _
    | closing _ _ => exact ihk _
  | cause g _ ih | transform g _ ih | orElse g _ ih | labelled g _ ih =>
    refine ⟨_, fun b hb => ?_⟩
    cases hb
    exact ih _
  | choice more branch ih =>
    refine ⟨_, fun b hb => ?_⟩
    cases hb with
    | branch hsplit _ =>
      obtain ⟨k, rfl⟩ := List.mem_ofFn.mp (hsplit ▸ List.mem_append_right _ List.mem_cons_self)
      exact ih k _
  | many g ih =>
    refine ⟨_, fun b hb => ?_⟩
    cases hb
    exact ih _
  | sepBy1 g separator ihg ihs =>
    refine ⟨_, fun b hb => ?_⟩
    cases hb with
    | first => exact ihg _
    | separator _ _ => exact ihs _
    | separated _ _ _ => exact ihg _
  | enter cell => exact hentries cell i

theorem wellFounded_calls (s : Store) : WellFounded fun b a => Calls s a b := by
  refine ⟨fun ⟨n, g, i⟩ => ?_⟩
  induction n generalizing g i with
  | zero => exact acc_of_entries (fun cell i => ⟨_, fun b hb => by cases hb⟩) g i
  | succ n ih =>
    refine acc_of_entries (fun cell i => ⟨_, fun b hb => ?_⟩) g i
    cases hb
    exact ih _ _

/-- A choice tries its first branch as it tries all others. -/
theorem run_choice {more : Nat} {branch : Fin (more + 2) → Grammar} :
    run s ⟨n, .choice more branch, i⟩ =
      Parser.tryEach i (.failure 0 []) ((List.ofFn branch).map fun h => h.run s n) := by
  rw [List.ofFn_succ, List.map_cons, List.map_ofFn]
  rfl

/-! What an activation does is to call others, and to end or raise a fault where they lead. -/

/-- The run is put together from what the activation calls and raises; it leaves no events of its
own. -/
inductive Composed (s : Store) (a : Activation) {α : Type} : Run α → Prop where
  | done (x : α) : Composed s a (.done x)
  | stop {f : Fault} : a.Raises s f → Composed s a (.stop f)
  | call {b : Activation} {next : Outcome → Run α} : a.Calls s b →
    (∀ o, (b.run s).ending = .ok o → Composed s a (next o)) →
    Composed s a ((b.run s).andThen next)

namespace Composed

variable {α β : Type}

theorem andThen {r : Run α} {next : α → Run β} (hr : Composed s a r)
    (hnext : ∀ x, Composed s a (next x)) : Composed s a (r.andThen next) := by
  induction hr with
  | done x =>
    rw [Run.done_andThen]
    exact hnext x
  | stop hf => exact .stop hf
  | call hcalls _ ih =>
    rw [Run.andThen_assoc]
    exact .call hcalls ih

/-- One part with nothing behind it. -/
theorem part (h : a.Calls s b) : Composed s a (b.run s) := by
  rw [← Run.andThen_done (b.run s)]
  exact .call h fun o _ => .done o

theorem onSuccess {next : Value → Input → Run Outcome} (h : a.Calls s b)
    (hnext : ∀ v rest, b.Gives s v rest → Composed s a (next v rest)) :
    Composed s a ((b.run s).onSuccess next) := by
  refine .call h fun o ho => ?_
  cases o with
  | success v rest => exact hnext v rest ho
  | failure position why => exact .done _

private theorem tryEach {more : Nat} {branch : Fin (more + 2) → Grammar}
    {before rest : List Grammar} (hsplit : List.ofFn branch = before ++ rest)
    (hbefore : ∀ h ∈ before, Fails s ⟨n, h, i⟩) (last : Outcome) :
    Composed s ⟨n, .choice more branch, i⟩
      (Parser.tryEach i last (rest.map fun h => h.run s n)) := by
  induction rest generalizing before last with
  | nil => exact .done last
  | cons h rest ih =>
    refine .call (b := ⟨n, h, i⟩) (.branch hsplit hbefore) fun o ho => ?_
    cases o with
    | success v after => exact .done _
    | failure position why =>
      refine @ih (before ++ [h]) (by simpa using hsplit) (fun h' hh' => ?_) _
      rcases List.mem_append.mp hh' with hh' | hh'
      · exact hbefore h' hh'
      · obtain rfl := List.mem_singleton.mp hh'
        exact ⟨position, why, ho⟩

private theorem rounds (hij : ReflTransGen (Round s n g) i j) :
    Composed s ⟨n, .many g, i⟩ (Parser.rounds (g.run s n) j) := by
  -- On what is left to read, which every round but the last makes less.
  induction hleft : j.left using Nat.strongRecOn generalizing j with
  | ind left ih =>
    rw [(g.forward_run s n).rounds_eq j]
    refine .call (b := ⟨n, g, j⟩) (.round hij) fun o ho => ?_
    cases o with
    | failure position why => exact .done _
    | success v rest =>
      dsimp only
      split
      · next hstays => exact .stop (.stall (.many hij ho hstays))
      · next hmoves =>
        have hlt : rest.left < j.left := (Gives.reaches ho).left_lt_iff.mpr hmoves
        exact (ih _ (hleft ▸ hlt) (hij.tail ⟨v, ho, hmoves⟩) rfl).andThen fun _ => .done _

private theorem separatedRounds {v : Value} (hv : Gives s ⟨n, g, i⟩ v j)
    (hjk : ReflTransGen (SeparatedRound s n g separator) j k) :
    Composed s ⟨n, .sepBy1 g separator, i⟩
      (Parser.separatedRounds (g.run s n) (separator.run s n) k) := by
  induction hleft : k.left using Nat.strongRecOn generalizing k with
  | ind left ih =>
    rw [(g.forward_run s n).separatedRounds_eq (separator.forward_run s n) k]
    refine .call (b := ⟨n, separator, k⟩) (.separator hv hjk) fun o ho => ?_
    cases o with
    | failure position why => exact .done _
    | success u mid =>
      refine .call (b := ⟨n, g, mid⟩) (.separated hv hjk ho) fun o' ho' => ?_
      cases o' with
      | failure position why => exact .done _
      | success w rest =>
        dsimp only
        split
        · next hstays => exact .stop (.stall (.separated hv hjk ho ho' hstays))
        · next hmoves =>
          have hreaches := (Gives.reaches ho).trans (Gives.reaches ho')
          have hlt : rest.left < k.left := hreaches.left_lt_iff.mpr hmoves
          have hround := hjk.tail ⟨u, mid, w, ho, ho', hmoves⟩
          exact (ih _ (hleft ▸ hlt) hround rfl).andThen fun _ => .done _

end Composed

/-- From a position that is not before the start, all but a label is put together from parts. -/
theorem composed_run (hi : 0 ≤ i.position) (hlabel : ∀ h label, g ≠ .labelled h label) :
    Composed s ⟨n, g, i⟩ ((⟨n, g, i⟩ : Activation).run s) := by
  have hnext : i.atEnd = false → ∃ v, i.next = .ok v := fun hend =>
    Sequence.exists_get_eq_ok i.data hi (by simpa [Input.atEnd] using hend)
  cases g with
  | result v => exact .done _
  | fail => exact .done _
  | fault f => exact .stop (.fault f)
  | item =>
    show Composed s _ (Parser.item i)
    unfold Parser.item
    split
    · exact .done _
    · next hend =>
      obtain ⟨v, hv⟩ := hnext (by simpa using hend)
      rw [hv]
      exact .done _
  | sat test =>
    show Composed s _ (Parser.sat test i)
    unfold Parser.sat
    split
    · exact .done _
    · next hend =>
      obtain ⟨v, hv⟩ := hnext (by simpa using hend)
      rw [hv, Run.ofExcept_ok, Run.done_andThen]
      cases htest : test v with
      | error f => exact .stop (.test (by simpa using hend) hv htest)
      | ok passed =>
        rw [Run.ofExcept_ok, Run.done_andThen]
        split <;> exact .done _
  | lit t =>
    show Composed s _ (Parser.lit t i)
    unfold Parser.lit
    split <;> exact .done _
  | pattern source p =>
    show Composed s _ (Parser.pattern source p i)
    unfold Parser.pattern
    split
    · split <;> exact .done _
    · next hrest =>
      refine .stop (.noText ?_)
      cases hdata : i.rest with
      | text t => exact absurd hdata (hrest t)
      | _ => rfl
  | eof =>
    show Composed s _ (Parser.eof i)
    unfold Parser.eof
    split <;> exact .done _
  | bind g next => exact .onSuccess (b := ⟨n, g, i⟩) .bind fun v rest hv => .part (.bound hv)
  | seq g h =>
    refine .onSuccess (b := ⟨n, g, i⟩) .seqFirst fun v mid hv => ?_
    exact .onSuccess (b := ⟨n, h, mid⟩) (.seqSecond hv) fun w rest _ => .done _
  | right g h =>
    exact .onSuccess (b := ⟨n, g, i⟩) .rightFirst fun v mid hv => .part (.rightSecond hv)
  | between g h k =>
    show Composed s _ (Parser.between _ _ _ i)
    rw [Parser.between_eq]
    refine .onSuccess (b := ⟨n, g, i⟩) .opening fun u j hu => ?_
    refine .onSuccess (b := ⟨n, h, j⟩) (.body hu) fun v l hv => ?_
    exact .onSuccess (b := ⟨n, k, l⟩) (.closing hu hv) fun _ rest _ => .done _
  | cause g why =>
    refine .call (b := ⟨n, g, i⟩) .cause fun o _ => ?_
    cases o <;> exact .done _
  | transform g f =>
    refine .onSuccess (b := ⟨n, g, i⟩) .transform fun v rest hv => ?_
    cases hf : f v with
    | error e => exact .stop (.function hv hf)
    | ok w => exact .done _
  | orElse g v =>
    refine .call (b := ⟨n, g, i⟩) .orElse fun o _ => ?_
    cases o <;> exact .done _
  | choice more branch =>
    rw [run_choice]
    exact Composed.tryEach (List.nil_append _).symm (by simp) _
  | many g => exact (Composed.rounds .refl).andThen fun _ => .done _
  | sepBy1 g separator =>
    refine .onSuccess (b := ⟨n, g, i⟩) .first fun v rest hv => ?_
    exact (Composed.separatedRounds hv .refl).andThen fun _ => .done _
  | labelled g label => exact absurd rfl (hlabel g label)
  | enter cell =>
    cases n with
    | zero => exact .stop .tooDeep
    | succ n =>
      show Composed s _ (s.enter (n + 1) cell i)
      rw [Store.enter]
      cases hcell : s.get? cell with
      | none => exact .stop (.emptyCell hcell)
      | some body => exact .part (b := ⟨n, body, i⟩) (.entry hcell)

end Activation

/-- The event that closes an attempt with an outcome. -/
def Outcome.event (label : Text) (i : Input) (next : Text) : Outcome → Event
  | .success _ rest => .success label i rest next
  | .failure _ why => .failure label i why next

/-- What closes an attempt: one event for an outcome, and nothing for a fault. -/
def closingEvents (label : Text) (i : Input) (next : Text) : Except Fault Outcome → Trace
  | .ok o => [o.event label i next]
  | .error _ => []

/-- The events of a traced parser with a label stand around those of the parser itself.  If that
stops with a fault, the last one is missing. -/
theorem Parser.labelled_eq {p : Parser} (hp : p.Forward) (label : Text) {i : Input}
    (hi : 0 ≤ i.position) (htraced : i.traced = true) :
    ∃ before after, labelled p label i = ⟨(p i).ending, .attempt label i before ::
      ((p i).trace ++ closingEvents label i after (p i).ending)⟩ := by
  obtain ⟨before, hbefore⟩ := exists_describeNext hi
  have hforward := hp i
  unfold labelled
  rw [if_pos htraced, hbefore]
  generalize p i = r at hforward ⊢
  rcases r with ⟨f | ⟨v, rest⟩ | ⟨position, why⟩, trace⟩
  · exact ⟨before, before, by simp [Run.andThen, Run.emit, Run.done, closingEvents]⟩
  · have hreaches : i.Reaches rest := hforward _ rfl
    obtain ⟨after, hafter⟩ := exists_describeNext (Int.le_trans hi hreaches.position.1)
    refine ⟨before, after, ?_⟩
    simp [Run.andThen, Run.emit, Run.done, hafter, closingEvents, Outcome.event]
  · exact ⟨before, before, by simp [Run.andThen, Run.emit, Run.done, closingEvents, Outcome.event]⟩

namespace Activation

variable {s : Store} {n : Nat} {g : Grammar} {i : Input}

theorem ending_labelled {label : Text} (hi : 0 ≤ i.position) :
    (run s ⟨n, .labelled g label, i⟩).ending = (run s ⟨n, g, i⟩).ending := by
  show (Parser.labelled (g.run s n) label i).ending = (g.run s n i).ending
  cases htraced : i.traced with
  | true =>
    obtain ⟨before, after, heq⟩ := Parser.labelled_eq (g.forward_run s n) label hi htraced
    rw [heq]
  | false =>
    unfold Parser.labelled
    rw [htraced]
    rfl

end Activation

end Descent
