import Descent.Proofs.Parser.OnText

/-!
How parsers stop on texts.  No parser turns a fault into something else, so a parser made of others
stops with a fault of one of them.  It has a fault of its own only where it applies a function that
refuses, or where a round of a repetition leaves as much to read as before.

The rules come in two kinds: those about all the faults with which a parser can stop at a place, and
those from which it follows that it does stop there.
-/

set_option autoImplicit false
set_option relaxedAutoImplicit false

namespace Descent

namespace Run

variable {α β : Type} {F : Fault → Prop}

/-- A fault of the run is of a kind.  Nothing is said of a result. -/
def StopsOnly (F : Fault → Prop) (r : Run α) : Prop :=
  ∀ f, r.ending = .error f → F f

theorem stopsOnly_done (a : α) : StopsOnly F (done a) := by
  intro f hf
  cases hf

theorem stopsOnly_stop {f : Fault} (h : F f) : StopsOnly F (stop f : Run α) := by
  intro f' hf'
  cases hf'
  exact h

theorem StopsOnly.mono {F' : Fault → Prop} {r : Run α} (hr : StopsOnly F r)
    (h : ∀ f, F f → F' f) : StopsOnly F' r :=
  fun f hf => h f (hr f hf)

theorem StopsOnly.andThen {P : α → Prop} {r : Run α} {next : α → Run β} (hr : StopsOnly F r)
    (hP : Ensures P r) (hnext : ∀ a, P a → StopsOnly F (next a)) : StopsOnly F (r.andThen next) := by
  intro f hf
  rcases r with ⟨f' | a, trace⟩
  · cases hf
    exact hr f rfl
  · exact hnext a (hP a rfl) f hf

end Run

namespace Parser

variable {p q : Parser} {L S : Text → Value → Prop} {whole x y z : Text} {F : Fault → Prop}

/-- What comes after a success stops only so if it does behind everything that the success can have
read. -/
private theorem stopsOnly_onSuccess {r : Run Outcome} {next : Value → Input → Run Outcome}
    (hr : r.StopsOnly F) (hreads : r.Ensures (Reads L whole x))
    (hnext : ∀ w v y, x = w ++ y → L w v → (next v (.before whole y)).StopsOnly F) :
    (r.onSuccess next).StopsOnly F := by
  refine hr.andThen hreads fun o ho => ?_
  cases o with
  | failure position why => exact Run.stopsOnly_done _
  | success v rest =>
    obtain ⟨w, y, hxy, rfl, hw⟩ := ho
    exact hnext w v y hxy hw

theorem stopsOnly_result (v : Value) (i : Input) : (result v i).StopsOnly F :=
  Run.stopsOnly_done _

theorem stopsOnly_fail (why : Text) (i : Input) : (fail why i).StopsOnly F :=
  Run.stopsOnly_done _

/-- A parser that succeeds or fails does not stop. -/
theorem stopsOnly_of_accepts {v : Value} (hx : x <:+ whole) (hp : p.Accepts x v y) :
    (p (.before whole x)).StopsOnly F := by
  rw [hp.run whole hx]
  exact Run.stopsOnly_done _

theorem stopsOnly_of_rejects (hx : x <:+ whole) (hp : p.Rejects x) :
    (p (.before whole x)).StopsOnly F := by
  obtain ⟨position, why, hrun⟩ := hp whole hx
  rw [hrun]
  exact Run.stopsOnly_done _

theorem stopsOnly_lit (s : Sequence) (i : Input) : (lit s i).StopsOnly F := by
  unfold lit
  split
  · exact stopsOnly_result _ _
  · exact stopsOnly_fail _ _

theorem stopsOnly_eof (i : Input) : (eof i).StopsOnly F := by
  unfold eof
  split
  · exact stopsOnly_result _ _
  · exact stopsOnly_fail _ _

theorem stopsOnly_seq (hx : x <:+ whole) (hp : (p (.before whole x)).StopsOnly F)
    (hL : p.ReadsOnly L)
    (hq : ∀ w v y, x = w ++ y → L w v → (q (.before whole y)).StopsOnly F) :
    (seq p q (.before whole x)).StopsOnly F := by
  refine stopsOnly_onSuccess hp (hL whole x hx) fun w v y hxy hw => ?_
  refine (hq w v y hxy hw).andThen (Run.Ensures.true _) fun o _ => ?_
  cases o with
  | failure position why => exact Run.stopsOnly_done _
  | success v' rest => exact Run.stopsOnly_done _

theorem stopsOnly_right (hx : x <:+ whole) (hp : (p (.before whole x)).StopsOnly F)
    (hL : p.ReadsOnly L)
    (hq : ∀ w v y, x = w ++ y → L w v → (q (.before whole y)).StopsOnly F) :
    (right p q (.before whole x)).StopsOnly F :=
  stopsOnly_onSuccess hp (hL whole x hx) hq

theorem stopsOnly_between {opening closing : Parser} {O : Text → Value → Prop} (hx : x <:+ whole)
    (hopening : (opening (.before whole x)).StopsOnly F) (hO : opening.ReadsOnly O)
    (hp : ∀ a o y, x = a ++ y → O a o → (p (.before whole y)).StopsOnly F) (hL : p.ReadsOnly L)
    (hclosing : ∀ y, y <:+ whole → (closing (.before whole y)).StopsOnly F) :
    (between opening p closing (.before whole x)).StopsOnly F := by
  rw [between_eq]
  refine stopsOnly_onSuccess hopening (hO whole x hx) fun a o y hxy ha => ?_
  have hy : y <:+ whole := (List.suffix_append a y).trans (hxy ▸ hx)
  refine stopsOnly_onSuccess (hp a o y hxy ha) (hL whole y hy) fun w v z hyz _ => ?_
  have hz : z <:+ whole := (List.suffix_append w z).trans (hyz ▸ hy)
  refine (hclosing z hz).andThen (Run.Ensures.true _) fun o _ => ?_
  cases o with
  | failure position why => exact Run.stopsOnly_done _
  | success v' rest => exact Run.stopsOnly_done _

theorem stopsOnly_orElse {i : Input} (hp : (p i).StopsOnly F) (v : Value) :
    (orElse p v i).StopsOnly F := by
  refine hp.andThen (Run.Ensures.true _) fun o _ => ?_
  cases o with
  | success w rest => exact Run.stopsOnly_done _
  | failure _ _ => exact stopsOnly_result v i

theorem stopsOnly_transform (hx : x <:+ whole) (hp : (p (.before whole x)).StopsOnly F)
    (hL : p.ReadsOnly L) {f : Value → Except Fault Value}
    (hf : ∀ w v y e, x = w ++ y → L w v → f v = .error e → F e) :
    (transform p f (.before whole x)).StopsOnly F := by
  refine stopsOnly_onSuccess hp (hL whole x hx) fun w v y hxy hw => ?_
  cases hv : f v with
  | error e => exact Run.stopsOnly_stop (hf w v y e hxy hw hv)
  | ok v' => exact Run.stopsOnly_done _

theorem stopsOnly_choice {others : List Parser} {i : Input} (hp : (p i).StopsOnly F)
    (hothers : ∀ q ∈ others, (q i).StopsOnly F) : (choice p others i).StopsOnly F := by
  have heach : ∀ o, (tryEach i o others).StopsOnly F := by
    induction others with
    | nil => exact fun o => Run.stopsOnly_done o
    | cons q others ih =>
      intro o
      refine (hothers q List.mem_cons_self).andThen (Run.Ensures.true _) fun o' _ => ?_
      cases o' with
      | success v after => exact Run.stopsOnly_done _
      | failure position why => exact ih (fun q hq => hothers q (List.mem_cons_of_mem _ hq)) _
  refine hp.andThen (Run.Ensures.true _) fun o _ => ?_
  cases o with
  | success v after => exact Run.stopsOnly_done _
  | failure position why => exact heach _

/-- Texts of one kind, each with a text of another kind behind it. -/
inductive Leading (A B : Text → Prop) : Text → Prop where
  | nil : Leading A B []
  | cons {w m u : Text} : A w → B m → Leading A B u → Leading A B (w ++ (m ++ u))

theorem Leading.snoc {A B : Text → Prop} {u w m : Text} (hu : Leading A B u) (hw : A w) (hm : B m) :
    Leading A B (u ++ (w ++ m)) := by
  induction hu with
  | nil => simpa using Leading.cons hw hm .nil
  | cons hw' hm' _ ih =>
    rw [List.append_assoc, List.append_assoc]
    exact .cons hw' hm' ih

section Separated

variable {separator : Parser} {A B : Text → Prop} (hx : x <:+ whole)
  (hL : p.ReadsOnly fun w _ => A w) (hS : separator.ReadsOnly fun m _ => B m)
  (hnonempty : ∀ m, B m → m ≠ [])
  (hp : ∀ u y, x = u ++ y → Leading A B u → (p (.before whole y)).StopsOnly F)
  (hseparator : ∀ y, y <:+ whole → (separator (.before whole y)).StopsOnly F)

include hx hL hS hnonempty hp hseparator

private theorem stopsOnly_separatedRounds {u w : Text} (hxu : x = u ++ (w ++ y)) (hu : Leading A B u)
    (hw : A w) : (separatedRounds p separator (.before whole y)).StopsOnly F := by
  -- On what is left to read; each round adds a part and its separator to those in front.
  induction hn : y.length using Nat.strongRecOn generalizing u w y with
  | ind n ih =>
    subst hn
    have hy : y <:+ whole := by
      rw [← List.append_assoc] at hxu
      exact (List.suffix_append (u ++ w) y).trans (hxu ▸ hx)
    rw [separatedRounds]
    refine (hseparator y hy).andThen (hS whole y hy) fun o ho => ?_
    cases o with
    | failure position why => exact Run.stopsOnly_done _
    | success c mid =>
      obtain ⟨m, y', rfl, rfl, hm⟩ := ho
      have hy' : y' <:+ whole := (List.suffix_append m y').trans hy
      have hxm : x = (u ++ (w ++ m)) ++ y' := by
        rw [hxu]
        simp only [List.append_assoc]
      have hu' : Leading A B (u ++ (w ++ m)) := hu.snoc hw hm
      refine (hp _ y' hxm hu').andThen (hL whole y' hy') fun o ho => ?_
      cases o with
      | failure position why => exact Run.stopsOnly_done _
      | success v rest =>
        obtain ⟨w', y'', rfl, rfl, hw'⟩ := ho
        have hy'' : y'' <:+ whole := (List.suffix_append w' y'').trans hy'
        have hlt : y''.length < (m ++ (w' ++ y'')).length := by
          have hm' : 0 < m.length := List.length_pos_iff.mpr (hnonempty m hm)
          simp only [List.length_append]
          omega
        dsimp only
        rw [Input.left_before hy'', Input.left_before hy, if_pos hlt]
        refine (ih _ hlt hxm hu' hw' rfl).andThen (Run.Ensures.true _) fun _ _ => ?_
        exact Run.stopsOnly_done _

/-- A repetition with separators stops with a fault of a separator, or of a part behind some parts
with their separators, provided that separators are not empty. -/
theorem stopsOnly_sepBy1 : (sepBy1 p separator (.before whole x)).StopsOnly F := by
  refine stopsOnly_onSuccess (hp [] x rfl .nil) (hL whole x hx) fun w v y hxy hw => ?_
  have hrounds : (separatedRounds p separator (.before whole y)).StopsOnly F :=
    stopsOnly_separatedRounds hx hL hS hnonempty hp hseparator (u := []) hxy .nil hw
  exact hrounds.andThen (Run.Ensures.true _) fun _ _ => Run.stopsOnly_done _

end Separated

/-! Parsers that do stop. -/

/-- At a place of a text the parser stops with a fault. -/
def Stops (p : Parser) (whole x : Text) (f : Fault) : Prop :=
  (p (.before whole x)).ending = .error f

variable {f : Fault} {v w : Value}

theorem Stops.seq_of_accepts (hx : x <:+ whole) (hp : p.Accepts x v y) (hq : q.Stops whole y f) :
    (Parser.seq p q).Stops whole x f := by
  rw [Stops, Parser.seq, hp.run whole hx]
  exact Run.ending_andThen_of_error hq _

theorem Stops.between_of_accepts {opening : Parser} (hx : x <:+ whole) (ho : opening.Accepts x v y)
    (hp : p.Stops whole y f) (closing : Parser) :
    (Parser.between opening p closing).Stops whole x f := by
  rw [Stops, between_eq, ho.run whole hx]
  exact Run.ending_andThen_of_error hp _

theorem Stops.transform (hp : p.Stops whole x f) (g : Value → Except Fault Value) :
    (transform p g).Stops whole x f :=
  Run.ending_andThen_of_error hp _

theorem Stops.orElse (hp : p.Stops whole x f) (v : Value) : (orElse p v).Stops whole x f :=
  Run.ending_andThen_of_error hp _

theorem Stops.choice (hp : p.Stops whole x f) (others : List Parser) :
    (choice p others).Stops whole x f :=
  Run.ending_andThen_of_error hp _

theorem Stops.labelled (hp : p.Stops whole x f) (label : Text) :
    (labelled p label).Stops whole x f :=
  hp

/-- A choice goes on after an alternative that rejects. -/
theorem Stops.choice_of_rejects {others : List Parser} (hx : x <:+ whole) (hp : p.Rejects x)
    (hq : (Parser.choice q others).Stops whole x f) :
    (Parser.choice p (q :: others)).Stops whole x f := by
  obtain ⟨position, why, hrun⟩ := hp whole hx
  rw [Stops, Parser.choice, hrun]
  exact hq

/-- A function that refuses the result of a parser stops it. -/
theorem Stops.transform_of_accepts (hx : x <:+ whole) (hp : p.Accepts x v y)
    {g : Value → Except Fault Value} (hg : g v = .error f) :
    (Parser.transform p g).Stops whole x f := by
  rw [Stops, Parser.transform, hp.run whole hx]
  simp only [Run.onSuccess, Run.done_andThen, hg]
  rfl

/-- A repetition with separators stops behind some parts, each with a separator behind it. -/
inductive StopsList (p separator : Parser) (whole : Text) (f : Fault) : Text → Prop where
  | here {x : Text} : p.Stops whole x f → StopsList p separator whole f x
  | later {x y z : Text} {v c : Value} : p.Accepts x v y → separator.Accepts y c z →
    z.length < y.length → StopsList p separator whole f z → StopsList p separator whole f x

private theorem StopsList.rounds {separator : Parser} {c : Value}
    (h : StopsList p separator whole f z) (hy : y <:+ whole) (hs : separator.Accepts y c z)
    (hlt : z.length < y.length) :
    (separatedRounds p separator (.before whole y)).ending = .error f := by
  induction h generalizing y c with
  | here hp =>
    rw [separatedRounds, hs.run whole hy]
    exact Run.ending_andThen_of_error hp _
  | @later z y' z' v c' hp hs' hlt' _ ih =>
    have hz : z <:+ whole := hs.suffix.trans hy
    have hy' : y' <:+ whole := hp.suffix.trans hz
    have hleft : (Input.before whole y').left < (Input.before whole y).left := by
      rw [Input.left_before hy', Input.left_before hy]
      exact Nat.lt_of_le_of_lt hp.suffix.length_le hlt
    rw [separatedRounds, hs.run whole hy]
    simp only [Run.done_andThen, hp.run whole hz, if_pos hleft]
    exact Run.ending_andThen_of_error (ih hy' hs' hlt') _

theorem StopsList.sepBy1 {separator : Parser} (hx : x <:+ whole)
    (h : StopsList p separator whole f x) :
    (Parser.sepBy1 p separator).Stops whole x f := by
  cases h with
  | here hp => exact Run.ending_andThen_of_error hp _
  | @later _ y z v c hp hs hlt hlist =>
    have hy : y <:+ whole := hp.suffix.trans hx
    rw [Stops, Parser.sepBy1, hp.run whole hx]
    exact Run.ending_andThen_of_error (hlist.rounds hy hs hlt) _

end Parser

end Descent
