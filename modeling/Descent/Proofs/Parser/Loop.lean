import Descent.Proofs.Parser.Forward

/-!
Repetitions are loops.  A loop runs a parser on an input, then on what this run has left, and so on,
until a run fails, stops with a fault, or leaves the position where it was.  The loop of a repetition
with separators runs a separator and what follows it as one parser.

A loop over a parser that moves forward ends from every position, and makes at most one round more
than there is left to read.
-/

set_option autoImplicit false
set_option relaxedAutoImplicit false

namespace Descent

namespace Parser

/-- Runs a parser as often as it succeeds: the results and what is left.  A round that leaves as much
to read as before is answered with a fault. -/
def loop (stalled : Fault) (p : Parser) (i : Input) : Run (List Value × Input) :=
  (p i).andThen fun
    | .failure _ _ => .done ([], i)
    | .success v rest =>
      if rest.left < i.left then
        (loop stalled p rest).andThen fun (vs, last) => .done (v :: vs, last)
      else .stop stalled
termination_by i.left

/-- Runs a parser once and then another one in a loop, and lists all results. -/
def thenLoop (p : Parser) (stalled : Fault) (q : Parser) : Parser :=
  fun i =>
    (p i).onSuccess fun v rest =>
      (loop stalled q rest).andThen fun (vs, last) => .done (.success (.list (v :: vs)) last)

/-- One round behind the other: each succeeds with the next value and leaves another position. -/
inductive Chain (p : Parser) : Input → List Value → Input → Prop where
  | nil (i : Input) : Chain p i [] i
  | cons {i j k : Input} {v : Value} {vs : List Value} : (p i).ending = .ok (.success v j) →
    j.position ≠ i.position → Chain p j vs k → Chain p i (v :: vs) k

/-- A loop ends after a number of rounds: behind a chain the last round fails, stops with a fault, or
stays where it is. -/
inductive LoopEnds (p : Parser) (stalled : Fault) (i : Input) :
    Nat → Except Fault (List Value × Input) → Prop where
  | failure {vs : List Value} {j : Input} {position : Int} {why : Text} : p.Chain i vs j →
    (p j).ending = .ok (.failure position why) →
    LoopEnds p stalled i (vs.length + 1) (.ok (vs, j))
  | fault {vs : List Value} {j : Input} {f : Fault} : p.Chain i vs j → (p j).ending = .error f →
    LoopEnds p stalled i (vs.length + 1) (.error f)
  | stall {vs : List Value} {j rest : Input} {v : Value} : p.Chain i vs j →
    (p j).ending = .ok (.success v rest) → rest.position = j.position →
    LoopEnds p stalled i (vs.length + 1) (.error stalled)

variable {p q : Parser} {stalled f : Fault} {i j last : Input} {v : Value} {vs : List Value}

/-! The repetitions as loops. -/

theorem rounds_eq_loop (p : Parser) (i : Input) :
    rounds p i = loop (.endlessRepetition .many) p i := by
  induction h : i.left using Nat.strongRecOn generalizing i with
  | ind n ih =>
    rw [rounds, loop]
    congr 1
    funext o
    cases o with
    | failure position why => rfl
    | success v rest =>
      dsimp only
      split
      · next hlt => rw [ih _ (h ▸ hlt) rest rfl]
      · rfl

theorem separatedRounds_eq_loop (p separator : Parser) (i : Input) :
    separatedRounds p separator i =
      loop (.endlessRepetition .separated) (right separator p) i := by
  induction h : i.left using Nat.strongRecOn generalizing i with
  | ind n ih =>
    rw [separatedRounds, loop, right, Run.onSuccess, Run.andThen_assoc]
    congr 1
    funext o
    cases o with
    | failure position why => simp
    | success u mid =>
      dsimp only
      congr 1
      funext o
      cases o with
      | failure position why => rfl
      | success v rest =>
        dsimp only
        split
        · next hlt => rw [ih _ (h ▸ hlt) rest rfl]
        · rfl

theorem sepBy1_eq_thenLoop (p separator : Parser) :
    sepBy1 p separator = thenLoop p (.endlessRepetition .separated) (right separator p) := by
  funext i
  simp only [sepBy1, thenLoop, separatedRounds_eq_loop]

theorem prepend_many_eq_thenLoop (p q : Parser) :
    transform (seq p (many q)) Grammar.prepend =
      thenLoop p (.endlessRepetition .many) q := by
  funext i
  simp only [transform, seq, many, thenLoop, rounds_eq_loop, Run.onSuccess, Run.andThen_assoc]
  congr 1
  funext o
  cases o with
  | failure position why => simp
  | success v rest => exact Run.andThen_assoc _ _ _

/-! Loops over parsers that move forward. -/

/-- A round is answered with the fault exactly if it leaves the position where it was. -/
theorem Forward.loop_eq (hp : p.Forward) (stalled : Fault) (i : Input) :
    loop stalled p i = (p i).andThen fun
      | .failure _ _ => .done ([], i)
      | .success v rest =>
        if rest.position = i.position then .stop stalled
        else (loop stalled p rest).andThen fun (vs, last) => .done (v :: vs, last) := by
  rw [loop]
  refine (hp i).andThen_congr fun o ho => ?_
  cases o with
  | failure position why => rfl
  | success v rest => simp only [Input.Reaches.left_lt_iff ho, ne_eq, ite_not]

/-- A loop ends behind a chain as it ends from where the chain leads to, with the values of the chain
in front. -/
theorem Chain.ending_loop (hp : p.Forward) (h : p.Chain i vs j) :
    (loop stalled p i).ending =
      (loop stalled p j).ending.map fun found => (vs ++ found.1, found.2) := by
  induction h with
  | nil i => cases (loop stalled p i).ending <;> rfl
  | @cons i j k v vs hv hmoves _ ih =>
    rw [hp.loop_eq stalled i]
    refine (Run.ending_andThen_of_ok hv _).trans ?_
    simp only [if_neg hmoves]
    rw [Run.ending_andThen_done, ih]
    cases (loop stalled p k).ending <;> rfl

theorem LoopEnds.ending (hp : p.Forward) {n : Nat} {e : Except Fault (List Value × Input)}
    (h : p.LoopEnds stalled i n e) : (loop stalled p i).ending = e := by
  cases h with
  | @failure vs j position why hchain hj =>
    rw [hchain.ending_loop hp, hp.loop_eq stalled j, Run.ending_andThen_of_ok hj]
    simp [Run.done, Except.map]
  | fault hchain hj =>
    rw [hchain.ending_loop hp, hp.loop_eq, Run.ending_andThen_of_error hj]
    rfl
  | stall hchain hj hstays =>
    rw [hchain.ending_loop hp, hp.loop_eq, Run.ending_andThen_of_ok hj]
    simp only [if_pos hstays]
    rfl

theorem LoopEnds.cons {n : Nat} {e : Except Fault (List Value × Input)}
    (hv : (p i).ending = .ok (.success v j)) (hmoves : j.position ≠ i.position)
    (h : p.LoopEnds stalled j n e) :
    p.LoopEnds stalled i (n + 1) (e.map fun found => (v :: found.1, found.2)) := by
  cases h with
  | failure hchain hj => exact .failure (.cons hv hmoves hchain) hj
  | fault hchain hj => exact .fault (.cons hv hmoves hchain) hj
  | stall hchain hj hstays => exact .stall (.cons hv hmoves hchain) hj hstays

/-- A loop ends, after at most one round more than there is left to read. -/
theorem Forward.exists_loopEnds (hp : p.Forward) (stalled : Fault) (i : Input) :
    ∃ n e, p.LoopEnds stalled i n e ∧ n ≤ i.left + 1 := by
  induction h : i.left using Nat.strongRecOn generalizing i with
  | ind left ih =>
    cases hrun : (p i).ending with
    | error f => exact ⟨1, _, .fault (.nil i) hrun, Nat.le_add_left _ _⟩
    | ok o =>
      cases o with
      | failure position why => exact ⟨1, _, .failure (.nil i) hrun, Nat.le_add_left _ _⟩
      | success v rest =>
        by_cases hstays : rest.position = i.position
        · exact ⟨1, _, .stall (.nil i) hrun hstays, Nat.le_add_left _ _⟩
        · -- A round that moves leaves less, so its place is paid for by what it has read.
          have hreaches : i.Reaches rest := hp i _ hrun
          have hlt : rest.left < i.left := hreaches.left_lt_iff.mpr hstays
          obtain ⟨n, e, hends, hn⟩ := ih _ (h ▸ hlt) rest rfl
          exact ⟨n + 1, _, hends.cons hrun hstays, by omega⟩

/-- A loop gives results exactly if they are those of a chain behind which the parser fails. -/
theorem Forward.loop_ending_ok_iff (hp : p.Forward) :
    (loop stalled p i).ending = .ok (vs, last) ↔
      p.Chain i vs last ∧ ∃ position why, (p last).ending = .ok (.failure position why) := by
  constructor
  · intro h
    obtain ⟨n, e, hends, -⟩ := hp.exists_loopEnds stalled i
    rw [hends.ending hp] at h
    subst h
    cases hends with
    | failure hchain hlast => exact ⟨hchain, _, _, hlast⟩
  · rintro ⟨hchain, position, why, hlast⟩
    exact (LoopEnds.failure hchain hlast).ending hp

/-- A loop stops with a fault exactly if behind a chain the parser stops with it, or stays where it
is and the fault is the answer to that. -/
theorem Forward.loop_ending_error_iff (hp : p.Forward) :
    (loop stalled p i).ending = .error f ↔ ∃ vs j, p.Chain i vs j ∧ ((p j).ending = .error f ∨
      f = stalled ∧ ∃ v rest, (p j).ending = .ok (.success v rest) ∧ rest.position = j.position) := by
  constructor
  · intro h
    obtain ⟨n, e, hends, -⟩ := hp.exists_loopEnds stalled i
    rw [hends.ending hp] at h
    subst h
    cases hends with
    | fault hchain hj => exact ⟨_, _, hchain, Or.inl hj⟩
    | stall hchain hj hstays => exact ⟨_, _, hchain, Or.inr ⟨rfl, _, _, hj, hstays⟩⟩
  · rintro ⟨vs, j, hchain, hj | ⟨rfl, v, rest, hj, hstays⟩⟩
    · exact (LoopEnds.fault hchain hj).ending hp
    · exact (LoopEnds.stall hchain hj hstays).ending hp

end Parser

end Descent
