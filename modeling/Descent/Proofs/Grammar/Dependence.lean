import Descent.Proofs.Grammar.Erasure
import Descent.Proofs.Sequence.Append

/-!
What a run does not depend on.  A run on a sequence behind another one, traced or not, corresponds to
the run of the grammar without labels on the sequence alone.  So neither tracing nor what lies before
the position of an input changes how a run ends.
-/

set_option autoImplicit false
set_option relaxedAutoImplicit false

namespace Descent

/-- What an outcome says, with its position counted from an origin. -/
def Outcome.seenFrom (origin : Int) : Outcome → (Value × Int) ⊕ (Int × Text)
  | .success v rest => .inl (v, rest.position - origin)
  | .failure position why => .inr (position - origin, why)

/-- The first input is at the same place of the data as the second, but there is something in front
of its data.  The second is not traced and not before the start. -/
structure Input.Behind (pre data whole : Sequence) (traced : Bool) (i j : Input) : Prop where
  wholeData : i.data = whole
  data : j.data = data
  start : 0 ≤ j.position
  position : i.position = j.position + pre.length
  traced : i.traced = traced
  untraced : j.traced = false

namespace Input.Behind

variable {pre data whole : Sequence} {traced : Bool} {i j : Input}

theorem atEnd_eq (h : pre.append? data = some whole) (hij : Behind pre data whole traced i j) :
    i.atEnd = j.atEnd := by
  have hlength := Sequence.length_of_append? h
  simp only [atEnd, hij.wholeData, hij.data, hij.position]
  exact decide_eq_decide.mpr (by omega)

theorem left_eq (h : pre.append? data = some whole) (hij : Behind pre data whole traced i j) :
    i.left = j.left := by
  have hlength := Sequence.length_of_append? h
  simp only [left, hij.wholeData, hij.data, hij.position]
  omega

theorem next_eq (h : pre.append? data = some whole) (hij : Behind pre data whole traced i j) :
    i.next = j.next := by
  simp only [next, hij.wholeData, hij.data, hij.position]
  exact Sequence.get_of_append? h hij.start

theorem exists_next (hij : Behind pre data whole traced i j) (hend : j.atEnd = false) :
    ∃ v, j.next = .ok v := by
  simp only [atEnd, decide_eq_false_iff_not] at hend
  exact Sequence.exists_get_eq_ok j.data hij.start (by omega)

theorem window_eq (h : pre.append? data = some whole) (hij : Behind pre data whole traced i j)
    (n : Nat) : i.window n = j.window n := by
  have hstart := hij.start
  have hstop : j.position + pre.length + (n : Int) = (j.position + n) + pre.length := by omega
  simp only [window, hij.wholeData, hij.data, hij.position, hstop]
  exact Sequence.slice_of_append? h hstart (by omega)

theorem rest_eq (h : pre.append? data = some whole) (hij : Behind pre data whole traced i j) :
    i.rest = j.rest := by
  simp only [rest, hij.wholeData, hij.data, hij.position]
  exact Sequence.sliceFrom_of_append? h hij.start

theorem advance (hij : Behind pre data whole traced i j) (n : Nat) :
    Behind pre data whole traced (i.advance n) (j.advance n) := by
  have hstart := hij.start
  have hposition := hij.position
  exact ⟨hij.wholeData, hij.data, by simp only [Input.advance]; omega,
    by simp only [Input.advance]; omega, hij.traced, hij.untraced⟩

end Input.Behind

namespace Correspondence

variable {pre data whole : Sequence}

/-- The correspondence between a sequence with something in front of it and the sequence alone. -/
def behind (h : pre.append? data = some whole) (traced : Bool) : Correspondence where
  Related := Input.Behind pre data whole traced
  shift := pre.length
  Traces a b := b = [] ∧ (traced = false → a = [])
  traces := by
    refine ⟨by simp, ?_⟩
    rintro a b c d ⟨rfl, ha⟩ ⟨rfl, hc⟩
    exact ⟨rfl, fun hf => by simp [ha hf, hc hf]⟩
  event hij hi e := by simp [← hij.traced, hi]
  position hij := hij.position
  atEnd hij := hij.atEnd_eq h
  left hij := hij.left_eq h
  next hij hend := by
    obtain ⟨v, hv⟩ := hij.exists_next (hij.atEnd_eq h ▸ hend)
    exact ⟨v, (hij.next_eq h).trans hv, hv⟩
  window hij s := by rw [hij.window_eq h]
  rest hij := by rw [hij.rest_eq h]
  advance hij n := hij.advance n

/-- Runs that correspond say the same, counted from where the data begin. -/
theorem seenFrom_eq {c : Correspondence} {r s : Run Outcome} (h : c.Runs r s) :
    r.ending.map (Outcome.seenFrom c.shift) = s.ending.map (Outcome.seenFrom 0) := by
  obtain ⟨-, hending⟩ := h
  revert hending
  generalize r.ending = a
  generalize s.ending = b
  intro hending
  cases hending with
  | error f => rfl
  | ok ho =>
    cases ho with
    | success hij => simp [Except.map, Outcome.seenFrom, c.position hij]
    | failure position why => simp [Except.map, Outcome.seenFrom]

end Correspondence

namespace Grammar

variable (g : Grammar) (s : Store) (limit : Nat)

/-- A run behind something else corresponds to the run without labels on the data alone. -/
private theorem run_behind {pre data whole : Sequence} (h : pre.append? data = some whole)
    (k : Nat) (traced : Bool) :
    (Correspondence.behind h traced).Runs (g.run s limit ⟨whole, pre.length + k, traced⟩)
      (g.erase.run s.erase limit ⟨data, k, false⟩) :=
  (Correspondence.behind h traced).run_erase g s limit _ _
    ⟨rfl, rfl, by simp, Int.add_comm _ _, rfl, rfl⟩

private theorem run_alone (data : Sequence) (k : Nat) (traced : Bool) :
    (Correspondence.behind data.append?_emptied traced).Runs (g.run s limit ⟨data, k, traced⟩)
      (g.erase.run s.erase limit ⟨data, k, false⟩) := by
  simpa using g.run_behind s limit data.append?_emptied k traced

private theorem seenFrom_alone (data : Sequence) (k : Nat) (traced : Bool) :
    (g.run s limit ⟨data, k, traced⟩).ending.map (Outcome.seenFrom 0) =
      (g.erase.run s.erase limit ⟨data, k, false⟩).ending.map (Outcome.seenFrom 0) := by
  have hshift : (Correspondence.behind data.append?_emptied traced).shift = 0 := by
    simp [Correspondence.behind]
  have halone := Correspondence.seenFrom_eq (g.run_alone s limit data k traced)
  rwa [hshift] at halone

/-- A run says the same whether it is traced or not. -/
theorem seenFrom_untraced (data : Sequence) (k : Nat) (traced : Bool) :
    (g.run s limit ⟨data, k, traced⟩).ending.map (Outcome.seenFrom 0) =
      (g.run s limit ⟨data, k, false⟩).ending.map (Outcome.seenFrom 0) :=
  (g.seenFrom_alone s limit data k traced).trans (g.seenFrom_alone s limit data k false).symm

/-- An untraced run is the run without labels, and leaves no trace. -/
theorem run_eq_run_erase (data : Sequence) (k : Nat) :
    g.run s limit ⟨data, k, false⟩ = g.erase.run s.erase limit ⟨data, k, false⟩ ∧
      (g.run s limit ⟨data, k, false⟩).trace = [] := by
  have hruns := g.run_alone s limit data k false
  revert hruns
  generalize g.run s limit ⟨data, k, false⟩ = r
  generalize g.erase.run s.erase limit ⟨data, k, false⟩ = r'
  rcases r with ⟨ending, trace⟩
  rcases r' with ⟨ending', trace'⟩
  rintro ⟨⟨rfl, hsilent⟩, hending⟩
  obtain rfl := hsilent rfl
  refine ⟨?_, rfl⟩
  cases hending with
  | error f => rfl
  | ok ho =>
    cases ho with
    | success hij =>
      rename_i v i j
      -- With nothing in front of the data and no tracing, related inputs are one and the same.
      have hposition := hij.position
      have heq : i = j := by
        rcases i with ⟨idata, iposition, itraced⟩
        rcases j with ⟨jdata, jposition, jtraced⟩
        obtain ⟨rfl, rfl, -, -, rfl, rfl⟩ := hij
        simpa using hposition
      rw [heq]
    | failure position why => simp [Correspondence.behind]

/-- Tracing changes nothing: with it and without it a parse ends alike, and the latter is the parse
of the grammar from which all labels are taken.  Neither of the last two leaves a trace. -/
theorem tracing_changes_nothing (t : Text) :
    let traced := g.run s limit ⟨.text t, 0, true⟩
    let plain := g.run s limit ⟨.text t, 0, false⟩
    let unlabelled := g.erase.run s.erase limit ⟨.text t, 0, false⟩
    traced.ending.map (Outcome.seenFrom 0) = plain.ending.map (Outcome.seenFrom 0) ∧
      plain.ending = unlabelled.ending ∧ plain.trace = [] ∧ unlabelled.trace = [] := by
  intro traced plain unlabelled
  obtain ⟨heq, htrace⟩ := g.run_eq_run_erase s limit (.text t) 0
  exact ⟨g.seenFrom_untraced s limit (.text t) 0 true, congrArg Run.ending heq, htrace,
    (congrArg Run.trace heq).symm.trans htrace⟩

/-- How a run ends depends only on what is left to read: something in front of the data moves the
positions by its length and changes nothing else, whether the run is traced or not. -/
theorem ending_depends_on_rest {pre data whole : Sequence} (h : pre.append? data = some whole)
    (k : Nat) (traced : Bool) :
    (g.run s limit ⟨whole, pre.length + k, traced⟩).ending.map (Outcome.seenFrom pre.length) =
      (g.run s limit ⟨data, k, traced⟩).ending.map (Outcome.seenFrom 0) := by
  have hwhole := Correspondence.seenFrom_eq (g.run_behind s limit h k traced)
  exact hwhole.trans (g.seenFrom_alone s limit data k traced).symm

/-- A failure behind two code points is the failure at the start, two positions further. -/
theorem ending_behind_two :
    (Sequence.text (Text.ofString "ab")).append? (.text (Text.ofString "cd")) =
        some (.text (Text.ofString "abcd")) ∧
      ((Grammar.seq .item (.lit (.text (Text.ofString "x")))).run Store.empty 1
        ⟨.text (Text.ofString "abcd"), 2, true⟩).ending.map (Outcome.seenFrom 2) =
          .ok (.inr (1, Text.ofString "plit('x')")) := by
  have h : (Sequence.text (Text.ofString "ab")).append? (.text (Text.ofString "cd")) =
      some (.text (Text.ofString "abcd")) := rfl
  exact ⟨h, (ending_depends_on_rest _ Store.empty 1 h 0 true).trans rfl⟩

end Grammar

end Descent
