import Descent.Proofs.Parser.Rules
import Descent.Proofs.Pattern.Progress

/-!
Parsers on texts.  An input is given by the whole text and what is left of it, and three things are
said of a parser: what it can read at all, that it accepts a certain text and what it leaves of it,
and that it rejects a text.  Each passes from the parts of a parser to the whole.
-/

set_option autoImplicit false
set_option relaxedAutoImplicit false

namespace Descent

/-- The input at the place of a text where a certain end of it is left. -/
def Input.before (whole u : Text) : Input :=
  ⟨.text whole, whole.length - u.length, false⟩

namespace Input

variable {whole u : Text}

private theorem offset_before (h : u <:+ whole) :
    Sequence.offset whole (before whole u).position = whole.length - u.length := by
  have hle := h.length_le
  have hpos : 0 ≤ (before whole u).position := by
    simp only [before]
    omega
  rw [Sequence.offset, if_pos hpos]
  simp only [before]
  omega

/-- Nothing of the text has been read. -/
theorem before_self (t : Text) : before t t = ⟨.text t, 0, false⟩ := by
  simp only [before, Int.sub_self]

theorem rest_before (h : u <:+ whole) : (before whole u).rest = .text u := by
  have hdrop : whole.drop (whole.length - u.length) = u := (List.suffix_iff_eq_drop.mp h).symm
  show Sequence.text (Sequence.onward _ whole) = .text u
  rw [Sequence.onward, offset_before h, hdrop]

theorem left_before (h : u <:+ whole) : (before whole u).left = u.length := by
  have hle := h.length_le
  simp only [left, before, Sequence.length]
  omega

theorem atEnd_before (h : u <:+ whole) : (before whole u).atEnd = u.isEmpty := by
  have hle := h.length_le
  rw [Bool.eq_iff_iff, List.isEmpty_iff, ← List.length_eq_zero_iff, atEnd, decide_eq_true_eq]
  simp only [before, Sequence.length]
  omega

theorem window_before (h : u <:+ whole) (n : Nat) :
    (before whole u).window n = .text (u.take n) := by
  have hle := h.length_le
  have hdrop : whole.drop (whole.length - u.length) = u := (List.suffix_iff_eq_drop.mp h).symm
  have hpos : 0 ≤ (before whole u).position + n := by
    simp only [before]
    omega
  have hstop : Sequence.offset whole ((before whole u).position + n) = whole.length - u.length + n := by
    rw [Sequence.offset, if_pos hpos]
    simp only [before]
    omega
  show Sequence.text (Sequence.between _ _ whole) = .text (u.take n)
  rw [Sequence.between, offset_before h, hstop, List.drop_take, hdrop]
  simp

theorem advance_before (whole w u : Text) :
    (before whole (w ++ u)).advance w.length = before whole u := by
  simp only [before, advance, List.length_append]
  congr 1
  omega

/-- What is left determines the input, and is determined by it. -/
theorem before_inj {v : Text} (hu : u <:+ whole) (hv : v <:+ whole)
    (h : before whole u = before whole v) : u = v := by
  have hposition := congrArg position h
  have hlength : u.length = v.length := by
    simp only [before] at hposition
    omega
  exact (List.suffix_of_suffix_length_le hu hv (Nat.le_of_eq hlength)).eq_of_length hlength

end Input

namespace Parser

variable {p q : Parser} {L M N : Text → Value → Prop}

/-- A success has read a text of a language that gives the result its meaning. -/
def Reads (L : Text → Value → Prop) (whole x : Text) : Outcome → Prop
  | .success v rest => ∃ w y, x = w ++ y ∧ rest = .before whole y ∧ L w v
  | .failure _ _ => True

/-- What a parser reads of a text is of a language, and its result is what that means. -/
def ReadsOnly (p : Parser) (L : Text → Value → Prop) : Prop :=
  ∀ whole x, x <:+ whole → (p (.before whole x)).Ensures (Reads L whole x)

/-- Texts of one language with texts of another one between them, and the list of what the former
mean. -/
inductive Separated (L S : Text → Value → Prop) : Text → List Value → Prop where
  | one {w : Text} {v : Value} : L w v → Separated L S w [v]
  | more {w m u : Text} {v c : Value} {vs : List Value} : L w v → S m c → Separated L S u vs →
    Separated L S (w ++ (m ++ u)) (v :: vs)

namespace ReadsOnly

theorem mono (hp : p.ReadsOnly L) (h : ∀ w v, L w v → M w v) : p.ReadsOnly M := by
  intro whole x hx
  refine (hp whole x hx).mono fun o ho => ?_
  cases o with
  | failure q why => trivial
  | success v rest =>
    obtain ⟨w, y, hxy, hrest, hw⟩ := ho
    exact ⟨w, y, hxy, hrest, h w v hw⟩

/-- What comes after a success reads what the success has left. -/
theorem onSuccess {whole x : Text} (hx : x <:+ whole) {r : Run Outcome}
    (hr : r.Ensures (Reads L whole x)) {next : Value → Parser}
    (hnext : ∀ w v, L w v → (next v).ReadsOnly fun w' v' => M (w ++ w') v') :
    (r.onSuccess next).Ensures (Reads M whole x) := by
  refine hr.onSuccess (fun _ _ _ => trivial) fun v rest ho => ?_
  obtain ⟨w, y, rfl, rfl, hw⟩ := ho
  have hy : y <:+ whole := (List.suffix_append w y).trans hx
  refine (hnext w v hw whole y hy).mono fun o ho => ?_
  cases o with
  | failure q why => trivial
  | success v' rest =>
    obtain ⟨w', y', rfl, hrest, hw'⟩ := ho
    exact ⟨w ++ w', y', by rw [List.append_assoc], hrest, hw'⟩

theorem result (v : Value) (h : L [] v) : (result v).ReadsOnly L :=
  fun _ x _ => .done ⟨[], x, rfl, rfl, h⟩

theorem fault (f : Fault) : (fault f).ReadsOnly L :=
  fun _ _ _ => .stop f

theorem lit {s : Text} (h : L s (.str s)) : (lit (.text s)).ReadsOnly L := by
  intro whole x hx
  unfold Parser.lit
  split
  · next hagrees =>
    rw [show (Sequence.text s).length = s.length from rfl, Input.window_before hx] at hagrees
    have htake : x.take s.length = s := eq_of_beq hagrees
    have hcut : x = s ++ x.drop s.length := by
      conv => lhs; rw [← List.take_append_drop s.length x, htake]
    have hrest : (Input.before whole x).advance s.length = .before whole (x.drop s.length) := by
      conv => lhs; rw [hcut]
      exact Input.advance_before whole s (x.drop s.length)
    exact .done ⟨s, x.drop s.length, hcut, hrest, h⟩
  · exact .done trivial

theorem pattern {source : Text} {shape : Pattern}
    (h : ∀ t w, shape.matched? t = some w → L w (.str w)) : (pattern source shape).ReadsOnly L := by
  intro whole x hx
  unfold Parser.pattern
  rw [Input.rest_before hx]
  dsimp only
  cases hmatch : shape.matched? x with
  | none => exact .done trivial
  | some w =>
    obtain ⟨y, rfl⟩ := Pattern.eq_append_of_matched? hmatch
    exact .done ⟨w, y, rfl, Input.advance_before whole w y, h _ _ hmatch⟩

theorem seq (hp : p.ReadsOnly L) (hq : q.ReadsOnly M)
    (h : ∀ w v w' v', L w v → M w' v' → N (w ++ w') (Value.pair v v')) : (seq p q).ReadsOnly N := by
  intro whole x hx
  refine onSuccess hx (hp whole x hx) fun w v hw whole x hx => ?_
  refine onSuccess hx (hq whole x hx) fun w' v' hw' => ?_
  exact ReadsOnly.result _ (by simpa using h w v w' v' hw hw')

theorem right (hp : p.ReadsOnly L) (hq : q.ReadsOnly M)
    (h : ∀ w v w' v', L w v → M w' v' → N (w ++ w') v') : (right p q).ReadsOnly N := by
  intro whole x hx
  refine onSuccess hx (hp whole x hx) fun w v hw => ?_
  exact hq.mono fun w' v' hw' => h w v w' v' hw hw'

theorem between {opening closing : Parser} {O C : Text → Value → Prop} (ho : opening.ReadsOnly O)
    (hp : p.ReadsOnly L) (hc : closing.ReadsOnly C)
    (h : ∀ a o w v b c, O a o → L w v → C b c → N (a ++ (w ++ b)) v) :
    (between opening p closing).ReadsOnly N := by
  intro whole x hx
  rw [between_eq]
  refine onSuccess hx (ho whole x hx) fun a o ha whole x hx => ?_
  refine onSuccess hx (hp whole x hx) fun w v hw whole x hx => ?_
  refine onSuccess hx (hc whole x hx) fun b c hb => ?_
  exact ReadsOnly.result _ (by simpa using h a o w v b c ha hw hb)

theorem cause (hp : p.ReadsOnly L) (why : Text) : (cause p why).ReadsOnly L := by
  intro whole x hx
  refine (hp whole x hx).andThen fun o ho => ?_
  cases o with
  | success v rest => exact .done ho
  | failure _ _ => exact .done trivial

theorem transform (hp : p.ReadsOnly L) {f : Value → Except Fault Value}
    (h : ∀ w v v', L w v → f v = .ok v' → M w v') : (transform p f).ReadsOnly M := by
  intro whole x hx
  refine onSuccess hx (hp whole x hx) fun w v hw whole x hx => ?_
  cases hf : f v with
  | error e => exact .stop e
  | ok v' =>
    refine .done ⟨[], x, rfl, rfl, ?_⟩
    simpa using h w v v' hw hf

theorem orElse (hp : p.ReadsOnly L) {v : Value} (h : L [] v) : (orElse p v).ReadsOnly L := by
  intro whole x hx
  refine (hp whole x hx).andThen fun o ho => ?_
  cases o with
  | success w rest => exact .done ho
  | failure _ _ => exact ReadsOnly.result v h whole x hx

theorem choice {others : List Parser} (hp : p.ReadsOnly L)
    (hothers : ∀ q ∈ others, q.ReadsOnly L) : (choice p others).ReadsOnly L := by
  intro whole x hx
  have heach : ∀ o, Reads L whole x o →
      (tryEach (.before whole x) o others).Ensures (Reads L whole x) := by
    induction others with
    | nil => exact fun o ho => .done ho
    | cons q others ih =>
      intro o _
      refine (hothers q List.mem_cons_self whole x hx).andThen fun o' ho' => ?_
      cases o' with
      | success v rest => exact .done ho'
      | failure position why =>
        exact ih (fun q hq => hothers q (List.mem_cons_of_mem _ hq)) _ trivial
  refine (hp whole x hx).andThen fun o ho => ?_
  cases o with
  | success v rest => exact .done ho
  | failure position why => exact heach _ trivial

theorem labelled (hp : p.ReadsOnly L) (label : Text) : (labelled p label).ReadsOnly L := by
  intro whole x hx
  exact hp whole x hx

/-- The rounds behind a text of the language continue it to a separated list. -/
private theorem ensures_separatedRounds {separator : Parser} {S : Text → Value → Prop}
    (hp : p.ReadsOnly L) (hs : separator.ReadsOnly S) {whole x : Text} (hx : x <:+ whole) :
    (separatedRounds p separator (.before whole x)).Ensures fun found =>
      ∃ w y, x = w ++ y ∧ found.2 = .before whole y ∧
        ∀ u v, L u v → Separated L S (u ++ w) (v :: found.1) := by
  have hnone : ∀ x, ∃ w y, x = w ++ y ∧ Input.before whole x = .before whole y ∧
      ∀ u v, L u v → Separated L S (u ++ w) (v :: []) :=
    fun x => ⟨[], x, rfl, rfl, fun u v hu => by simpa using .one hu⟩
  induction hn : x.length using Nat.strongRecOn generalizing x with
  | ind n ih =>
    subst hn
    rw [separatedRounds]
    refine (hs whole x hx).andThen fun o ho => ?_
    cases o with
    | failure position why => exact .done (hnone _)
    | success c mid =>
      obtain ⟨m, x', rfl, rfl, hm⟩ := ho
      have hx' : x' <:+ whole := (List.suffix_append m x').trans hx
      refine (hp whole x' hx').andThen fun o ho => ?_
      cases o with
      | failure position why => exact .done (hnone _)
      | success v' rest =>
        obtain ⟨w', x'', rfl, rfl, hw'⟩ := ho
        have hx'' : x'' <:+ whole := (List.suffix_append w' x'').trans hx'
        dsimp only
        rw [Input.left_before hx'', Input.left_before hx]
        split
        · next hlt =>
          refine (ih _ hlt hx'' rfl).andThen fun found hfound => ?_
          obtain ⟨w, y, rfl, hlast, hrounds⟩ := hfound
          refine .done ⟨m ++ (w' ++ w), y, by simp, hlast, fun u v hu => ?_⟩
          exact .more hu hm (hrounds w' v' hw')
        · exact .stop _

theorem sepBy1 {separator : Parser} {S : Text → Value → Prop} (hp : p.ReadsOnly L)
    (hs : separator.ReadsOnly S) (h : ∀ w vs, Separated L S w vs → M w (.list vs)) :
    (sepBy1 p separator).ReadsOnly M := by
  intro whole x hx
  refine (hp whole x hx).onSuccess (fun _ _ _ => trivial) fun v rest ho => ?_
  obtain ⟨w, x', rfl, rfl, hw⟩ := ho
  have hx' : x' <:+ whole := (List.suffix_append w x').trans hx
  refine (ensures_separatedRounds hp hs hx').andThen fun found hfound => ?_
  obtain ⟨w', y, rfl, hlast, hrounds⟩ := hfound
  exact .done ⟨w ++ w', y, by simp, hlast, h _ _ (hrounds w v hw)⟩

end ReadsOnly

/-- A parser succeeds on a text with a result and leaves an end of it. -/
structure Accepts (p : Parser) (x : Text) (v : Value) (y : Text) : Prop where
  suffix : y <:+ x
  run : ∀ whole, x <:+ whole → p (.before whole x) = .done (.success v (.before whole y))

/-- A parser fails on a text. -/
def Rejects (p : Parser) (x : Text) : Prop :=
  ∀ whole, x <:+ whole → ∃ position why, p (.before whole x) = .done (.failure position why)

/-- The rounds of a repetition with separators succeed on a text with a list of results and leave an
end of it. -/
structure AcceptsRounds (p separator : Parser) (x : Text) (vs : List Value) (y : Text) : Prop where
  suffix : y <:+ x
  run : ∀ whole, x <:+ whole →
    separatedRounds p separator (.before whole x) = .done (vs, .before whole y)

variable {x y z u : Text} {v v' w : Value}

namespace Accepts

theorem result (v : Value) (x : Text) : (result v).Accepts x v x :=
  ⟨List.suffix_rfl, fun _ _ => rfl⟩

theorem lit (s u : Text) : (lit (.text s)).Accepts (s ++ u) (.str s) u := by
  refine ⟨List.suffix_append s u, fun whole hx => ?_⟩
  have hwindow : (Input.before whole (s ++ u)).window (Sequence.text s).length = .text s := by
    rw [Input.window_before hx]
    simp [Sequence.length]
  have hagrees : (Sequence.text s).agrees (.text s) = true := beq_self_eq_true s
  rw [Parser.lit, hwindow, if_pos hagrees]
  exact congrArg (Parser.result (.str s)) (Input.advance_before whole s u)

theorem pattern {source : Text} {shape : Pattern} {s u : Text}
    (h : shape.matched? (s ++ u) = some s) : (pattern source shape).Accepts (s ++ u) (.str s) u := by
  refine ⟨List.suffix_append s u, fun whole hx => ?_⟩
  rw [Parser.pattern, Input.rest_before hx]
  simp only [h]
  exact congrArg (Parser.result (.str s)) (Input.advance_before whole s u)

theorem eof : eof.Accepts [] (.bool true) [] := by
  refine ⟨List.suffix_rfl, fun whole hx => ?_⟩
  rw [Parser.eof, Input.atEnd_before hx]
  rfl

theorem seq (hp : p.Accepts x v y) (hq : q.Accepts y w z) :
    (seq p q).Accepts x (Value.pair v w) z := by
  refine ⟨hq.suffix.trans hp.suffix, fun whole hx => ?_⟩
  simp [Parser.seq, Run.onSuccess, hp.run whole hx, hq.run whole (hp.suffix.trans hx)]

theorem right (hp : p.Accepts x v y) (hq : q.Accepts y w z) : (right p q).Accepts x w z := by
  refine ⟨hq.suffix.trans hp.suffix, fun whole hx => ?_⟩
  simp [Parser.right, Run.onSuccess, hp.run whole hx, hq.run whole (hp.suffix.trans hx)]

theorem between {opening closing : Parser} (ho : opening.Accepts x v y) (hp : p.Accepts y w z)
    (hc : closing.Accepts z v' u) : (between opening p closing).Accepts x w u := by
  have hz := hp.suffix.trans ho.suffix
  refine ⟨hc.suffix.trans hz, fun whole hx => ?_⟩
  rw [between_eq]
  simp [Run.onSuccess, ho.run whole hx, hp.run whole (ho.suffix.trans hx), hc.run whole (hz.trans hx)]

theorem cause (hp : p.Accepts x v y) (why : Text) : (cause p why).Accepts x v y := by
  refine ⟨hp.suffix, fun whole hx => ?_⟩
  simp [Parser.cause, hp.run whole hx]

theorem transform (hp : p.Accepts x v y) {f : Value → Except Fault Value} (hf : f v = .ok w) :
    (transform p f).Accepts x w y := by
  refine ⟨hp.suffix, fun whole hx => ?_⟩
  simp [Parser.transform, Run.onSuccess, hp.run whole hx, hf]

theorem orElse (hp : p.Accepts x v y) (w : Value) : (orElse p w).Accepts x v y := by
  refine ⟨hp.suffix, fun whole hx => ?_⟩
  simp [Parser.orElse, hp.run whole hx]

theorem choice (hp : p.Accepts x v y) (others : List Parser) : (choice p others).Accepts x v y := by
  refine ⟨hp.suffix, fun whole hx => ?_⟩
  simp [Parser.choice, hp.run whole hx]

theorem labelled (hp : p.Accepts x v y) (label : Text) : (labelled p label).Accepts x v y :=
  ⟨hp.suffix, hp.run⟩

end Accepts

namespace Rejects

theorem lit {s x : Text} (h : ¬s <+: x) : (lit (.text s)).Rejects x := by
  intro whole hx
  have hagrees : ¬((Input.before whole x).window (Sequence.text s).length).agrees (.text s) = true := by
    rw [Input.window_before hx]
    intro hagrees
    exact h (List.prefix_iff_eq_take.mpr (eq_of_beq hagrees).symm)
  rw [Parser.lit, if_neg hagrees]
  exact ⟨_, _, rfl⟩

theorem pattern {source : Text} {shape : Pattern} {x : Text} (h : shape.matched? x = none) :
    (pattern source shape).Rejects x := by
  intro whole hx
  rw [Parser.pattern, Input.rest_before hx]
  simp only [h]
  exact ⟨_, _, rfl⟩

theorem seq (hp : p.Rejects x) (q : Parser) : (seq p q).Rejects x := by
  intro whole hx
  obtain ⟨position, why, hrun⟩ := hp whole hx
  exact ⟨position, why, by simp [Parser.seq, Run.onSuccess, hrun]⟩

theorem right (hp : p.Rejects x) (q : Parser) : (right p q).Rejects x := by
  intro whole hx
  obtain ⟨position, why, hrun⟩ := hp whole hx
  exact ⟨position, why, by simp [Parser.right, Run.onSuccess, hrun]⟩

theorem right_of_accepts (hp : p.Accepts x v y) (hq : q.Rejects y) :
    (Parser.right p q).Rejects x := by
  intro whole hx
  obtain ⟨position, why, hrun⟩ := hq whole (hp.suffix.trans hx)
  exact ⟨position, why, by simp [Parser.right, Run.onSuccess, hp.run whole hx, hrun]⟩

theorem between {opening : Parser} (ho : opening.Rejects x) (p closing : Parser) :
    (between opening p closing).Rejects x := by
  intro whole hx
  obtain ⟨position, why, hrun⟩ := ho whole hx
  exact ⟨position, why, by rw [between_eq]; simp [Run.onSuccess, hrun]⟩

theorem between_of_accepts {opening : Parser} (ho : opening.Accepts x v y) (hp : p.Rejects y)
    (closing : Parser) : (Parser.between opening p closing).Rejects x := by
  intro whole hx
  obtain ⟨position, why, hrun⟩ := hp whole (ho.suffix.trans hx)
  exact ⟨position, why, by rw [between_eq]; simp [Run.onSuccess, ho.run whole hx, hrun]⟩

theorem cause (hp : p.Rejects x) (why : Text) : (cause p why).Rejects x := by
  intro whole hx
  obtain ⟨position, _, hrun⟩ := hp whole hx
  exact ⟨position, why, by simp [Parser.cause, hrun]⟩

theorem transform (hp : p.Rejects x) (f : Value → Except Fault Value) :
    (transform p f).Rejects x := by
  intro whole hx
  obtain ⟨position, why, hrun⟩ := hp whole hx
  exact ⟨position, why, by simp [Parser.transform, Run.onSuccess, hrun]⟩

theorem sepBy1 (hp : p.Rejects x) (separator : Parser) : (sepBy1 p separator).Rejects x := by
  intro whole hx
  obtain ⟨position, why, hrun⟩ := hp whole hx
  exact ⟨position, why, by simp [Parser.sepBy1, Run.onSuccess, hrun]⟩

theorem choice_nil (hp : p.Rejects x) : (choice p []).Rejects x := by
  intro whole hx
  obtain ⟨position, why, hrun⟩ := hp whole hx
  exact ⟨position, why, by simp [Parser.choice, Parser.tryEach, hrun]⟩

theorem choice_cons {others : List Parser} (hp : p.Rejects x) (hq : (choice q others).Rejects x) :
    (choice p (q :: others)).Rejects x := by
  intro whole hx
  obtain ⟨_, _, hrun⟩ := hp whole hx
  obtain ⟨position, why, hrest⟩ := hq whole hx
  refine ⟨position, why, ?_⟩
  rw [← hrest]
  simp [Parser.choice, Parser.tryEach, hrun]

theorem labelled (hp : p.Rejects x) (label : Text) : (labelled p label).Rejects x :=
  hp

end Rejects

/-- A choice goes on after an alternative that rejects. -/
theorem Accepts.choice_of_rejects {others : List Parser} (hp : p.Rejects x)
    (hq : (Parser.choice q others).Accepts x v y) : (Parser.choice p (q :: others)).Accepts x v y := by
  refine ⟨hq.suffix, fun whole hx => ?_⟩
  obtain ⟨_, _, hrun⟩ := hp whole hx
  rw [← hq.run whole hx]
  simp [Parser.choice, Parser.tryEach, hrun]

theorem Accepts.orElse_of_rejects (hp : p.Rejects x) (v : Value) : (Parser.orElse p v).Accepts x v x := by
  refine ⟨List.suffix_rfl, fun whole hx => ?_⟩
  obtain ⟨_, _, hrun⟩ := hp whole hx
  simp [Parser.orElse, Parser.result, hrun]

theorem AcceptsRounds.nil {separator : Parser} (hs : separator.Rejects x) :
    AcceptsRounds p separator x [] x := by
  refine ⟨List.suffix_rfl, fun whole hx => ?_⟩
  obtain ⟨_, _, hrun⟩ := hs whole hx
  rw [separatedRounds]
  simp [hrun]

theorem AcceptsRounds.cons {separator : Parser} {vs : List Value} (hs : separator.Accepts x w y)
    (hlt : y.length < x.length) (hp : p.Accepts y v z) (hrounds : AcceptsRounds p separator z vs u) :
    AcceptsRounds p separator x (v :: vs) u := by
  have hz := hp.suffix.trans hs.suffix
  refine ⟨hrounds.suffix.trans hz, fun whole hx => ?_⟩
  have hle : z.length ≤ y.length := hp.suffix.length_le
  have hleft : (Input.before whole z).left < (Input.before whole x).left := by
    rw [Input.left_before hx, Input.left_before (hz.trans hx)]
    omega
  rw [separatedRounds]
  simp [hs.run whole hx, hp.run whole (hs.suffix.trans hx), hleft, hrounds.run whole (hz.trans hx)]

/-- A repetition with separators succeeds on a text with a list of results, of which there is at
least one, and leaves an end of it. -/
def AcceptsList (p separator : Parser) (x : Text) (vs : List Value) (z : Text) : Prop :=
  ∃ v rest y, vs = v :: rest ∧ p.Accepts x v y ∧ AcceptsRounds p separator y rest z

theorem AcceptsList.one {separator : Parser} (hp : p.Accepts x v y) (hs : separator.Rejects y) :
    AcceptsList p separator x [v] y :=
  ⟨v, [], y, rfl, hp, .nil hs⟩

theorem AcceptsList.cons {separator : Parser} {vs : List Value} (hp : p.Accepts x v y)
    (hs : separator.Accepts y w z) (hlt : z.length < y.length)
    (hlist : AcceptsList p separator z vs u) : AcceptsList p separator x (v :: vs) u := by
  obtain ⟨v', rest, y', rfl, hp', hrounds⟩ := hlist
  exact ⟨v, v' :: rest, y, rfl, hp, .cons hs hlt hp' hrounds⟩

theorem AcceptsList.sepBy1 {separator : Parser} {vs : List Value}
    (h : AcceptsList p separator x vs z) : (Parser.sepBy1 p separator).Accepts x (.list vs) z := by
  obtain ⟨v, rest, y, rfl, hp, hrounds⟩ := h
  refine ⟨hrounds.suffix.trans hp.suffix, fun whole hx => ?_⟩
  simp [Parser.sepBy1, Run.onSuccess, hp.run whole hx, hrounds.run whole (hp.suffix.trans hx)]

end Parser

end Descent
