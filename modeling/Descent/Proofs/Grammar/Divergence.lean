import Mathlib.Data.Int.Interval
import Mathlib.Data.List.Duplicate
import Mathlib.Data.Set.Card
import Descent.Proofs.Grammar.Limits

/-!
Which runs go on for ever.  If a cell is entered while the same cell is active at the same position,
what has led from the one entry to the other leads further to a third, under every limit.  A sequence
has finitely many positions, so a run that can enter finitely many cells only and is too deep under a
limit of more entries than there are cells and positions together has such a repetition.
-/

set_option autoImplicit false
set_option relaxedAutoImplicit false

namespace Descent

/-- A run from an input can enter a cell, if the limit is large enough. -/
def Store.CanEnter (s : Store) (g : Grammar) (i : Input) (cell : CellId) : Prop :=
  ∃ limit entries position, s.Nested limit g i entries ∧ (cell, position) ∈ entries

/-- Under no limit does a run end with anything but that it is too deep. -/
def Grammar.Diverges (g : Grammar) (s : Store) (i : Input) : Prop :=
  ∀ limit, (g.run s limit i).ending = .error .tooDeep

/-- A fault with which a dialogue ends is that of a cell that it enters, or is the same however the
fault of the cells is replaced. -/
theorem Dialogue.exists_fault_or {α : Type} {onEnter : CellId → Parser} {i : Input} {P : α → Prop}
    {f : Fault} {d : Dialogue α} (hcells : ∀ c, (onEnter c).Forward) (hconfined : d.Confined i P)
    (h : (d.run onEnter).ending = .error f) :
    (∃ cell j, i.Reaches j ∧ d.Enters onEnter cell j.position ∧
      (onEnter cell j).ending = .error f) ∨
    ∀ onEnter', (∀ c j, (onEnter c j).ending = .error f ∨ onEnter' c j = onEnter c j) →
      d.run onEnter' = d.run onEnter := by
  induction d with
  | done a => exact Or.inr fun _ _ => rfl
  | stop f => exact Or.inr fun _ _ => rfl
  | emit e d ih =>
    refine (ih hconfined h).imp_right fun hsame onEnter' hagree => ?_
    simp only [run, hsame onEnter' hagree]
  | enter c j d ih =>
    obtain ⟨hreaches, hlater⟩ := hconfined
    cases hout : (onEnter c j).ending with
    | error f' =>
      rw [run, Run.ending_andThen_of_error hout] at h
      obtain rfl := Except.error.inj h
      exact Or.inl ⟨c, j, hreaches, Or.inl ⟨rfl, rfl⟩, hout⟩
    | ok o =>
      rw [run, Run.ending_andThen_of_ok hout] at h
      rcases ih o (hlater o (hcells c j o hout)) h with ⟨cell, k, hk, hd, hfault⟩ | hsame
      · exact Or.inl ⟨cell, k, hk, Or.inr ⟨o, hout, hd⟩, hfault⟩
      · refine Or.inr fun onEnter' hagree => ?_
        have hcell : onEnter' c j = onEnter c j :=
          (hagree c j).resolve_left fun hfault => by rw [hout] at hfault; cases hfault
        simp only [run, hcell, Run.andThen, hout, hsame onEnter' hagree]

namespace Grammar

variable {g body : Grammar} {s : Store} {i : Input} {cell : CellId} {position : Int} {m n : Nat}

/-- What a cell holds is run inside a run that enters the cell, under a limit that is one less. -/
theorem Enters.inner (h : g.Enters (s.enter m) i cell position) (hbody : s.get? cell = some body)
    (hrun : (g.run s n i).ending ≠ .error .tooDeep) :
    ∃ inner, n = inner + 1 ∧
      (body.run s inner { i with position := position }).ending ≠ .error .tooDeep := by
  have hentered := (h.of_limit hrun).ending (s.forward_enter n)
  have hne := fun hdeep => hrun (hentered.2 .tooDeep hdeep)
  cases n with
  | zero => exact (hne rfl).elim
  | succ n =>
    rw [Store.enter, hbody] at hne
    exact ⟨n, rfl, hne⟩

theorem Enters.diverges (h : g.Enters (s.enter m) i cell position)
    (hbody : s.get? cell = some body) (hinner : body.Diverges s { i with position := position }) :
    g.Diverges s i := by
  intro limit
  refine Classical.byContradiction fun hrun => ?_
  obtain ⟨inner, -, hne⟩ := h.inner hbody hrun
  exact hne (hinner inner)

/-- A run that is too deep has as many entries active as the limit allows, or is too deep under all
limits. -/
theorem exists_nested_or_diverges {limit : Nat} (h : (g.run s limit i).ending = .error .tooDeep) :
    (∃ entries, s.Nested limit g i entries ∧ entries.length = limit) ∨ g.Diverges s i := by
  induction limit generalizing g i with
  | zero => exact Or.inl ⟨[], .nil, rfl⟩
  | succ limit ih =>
    obtain ⟨d, hd, hconfined⟩ := g.exists_dialogue i
    rw [run, hd] at h
    rcases Dialogue.exists_fault_or (s.forward_enter _) hconfined h with
      ⟨cell, j, hreaches, henters, hfault⟩ | hsame
    · rw [← enters_iff hd] at henters
      rw [Store.enter] at hfault
      cases hbody : s.get? cell with
      | none =>
        rw [hbody] at hfault
        cases hfault
      | some body =>
        rw [hbody] at hfault
        have hinner := ih hfault
        rw [hreaches.eq_move] at hinner
        rcases hinner with ⟨entries, hnested, hlength⟩ | hdiverges
        · exact Or.inl ⟨_, .cons henters hbody hnested, congrArg (· + 1) hlength⟩
        · exact Or.inr (henters.diverges hbody hdiverges)
    -- The fault is one of the grammar itself, so it comes under every limit.
    · refine Or.inr fun n => ?_
      rcases Nat.le_total n (limit + 1) with hle | hle
      · refine Classical.byContradiction fun hne => ?_
        rw [← run_eq_of_le hle hne, run, hd] at hne
        exact hne h
      · rw [run, hd, hsame _ (s.enter_eq_of_le hle)]
        exact h

end Grammar

namespace Store.Nested

variable {g body : Grammar} {s : Store} {i : Input} {cell : CellId} {position : Int}
  {limit n : Nat} {entries : List (CellId × Int)}

theorem spans (h : s.Nested limit g i entries) : ∀ e ∈ entries, i.Spans e.2 := by
  induction h with
  | nil => exact fun e he => (List.not_mem_nil he).elim
  | cons henters _ _ ih =>
    have hspans := (henters.ending (s.forward_enter _)).1
    intro e he
    rcases List.mem_cons.mp he with rfl | he
    · exact hspans
    · exact (Input.reaches_move hspans).spans (ih e he)

theorem exists_body (h : s.Nested limit g i entries) :
    ∀ e ∈ entries, ∃ body, s.get? e.1 = some body := by
  induction h with
  | nil => exact fun e he => (List.not_mem_nil he).elim
  | cons _ hbody _ ih => exact List.forall_mem_cons.mpr ⟨⟨_, hbody⟩, ih⟩

/-- What an entry runs does not end too deep in a run that does not, and is under a smaller limit. -/
theorem inner_of_mem (h : s.Nested limit g i entries) (hmem : (cell, position) ∈ entries)
    (hbody : s.get? cell = some body) (hrun : (g.run s n i).ending ≠ .error .tooDeep) :
    ∃ inner < n, (body.run s inner { i with position := position }).ending ≠ .error .tooDeep := by
  induction h generalizing n with
  | nil => exact (List.not_mem_nil hmem).elim
  | cons henters hbody' _ ih =>
    obtain ⟨inner, rfl, hne⟩ := henters.inner hbody' hrun
    rcases List.mem_cons.mp hmem with heq | hmem
    · cases heq
      obtain rfl := Option.some.inj (hbody.symm.trans hbody')
      exact ⟨inner, Nat.lt_succ_self inner, hne⟩
    · obtain ⟨inner', hlt, hne'⟩ := ih hmem hne
      exact ⟨inner', Nat.lt_succ_of_lt hlt, hne'⟩

theorem diverges_of_mem (hbody : s.get? cell = some body)
    (h : s.Nested limit body { i with position := position } entries)
    (hmem : (cell, position) ∈ entries) : body.Diverges s { i with position := position } := by
  -- A run that does not end too deep would have the same run inside it, under a smaller limit.
  intro n
  induction n using Nat.strongRecOn with
  | ind n ih =>
    refine Classical.byContradiction fun hrun => ?_
    obtain ⟨inner, hlt, hne⟩ := h.inner_of_mem hmem hbody hrun
    exact hne (ih inner hlt)

theorem diverges_of_duplicate {e : CellId × Int} (h : s.Nested limit g i entries)
    (he : List.Duplicate e entries) : g.Diverges s i := by
  induction h with
  | nil => exact (List.not_duplicate_nil e he).elim
  | cons henters hbody hinner ih =>
    refine henters.diverges hbody ?_
    rcases List.duplicate_cons_iff.mp he with ⟨rfl, hmem⟩ | he
    · exact diverges_of_mem hbody hinner hmem
    · exact ih he

end Store.Nested

/-- Active entries of a run on a sequence from its start that are all different are not more than the
cells that the run can enter, for each position. -/
theorem Store.Nested.length_le {s : Store} {g : Grammar} {data : Sequence} {traced : Bool}
    {limit k : Nat} {entries : List (CellId × Int)}
    (h : s.Nested limit g ⟨data, 0, traced⟩ entries)
    (hk : {cell | s.CanEnter g ⟨data, 0, traced⟩ cell}.encard ≤ k) (hnodup : entries.Nodup) :
    entries.length ≤ k * (data.length + 1) := by
  have hfinite := Set.finite_of_encard_le_coe hk
  have hcells : hfinite.toFinset.card ≤ k := by
    rwa [hfinite.encard_eq_coe_toFinset_card, Nat.cast_le] at hk
  have hsubset : entries.toFinset ⊆ hfinite.toFinset ×ˢ Finset.Icc 0 (data.length : Int) := by
    intro e he
    have hmem := List.mem_toFinset.mp he
    obtain ⟨hlow, hhigh⟩ := h.spans e hmem
    refine Finset.mem_product.mpr ⟨?_, Finset.mem_Icc.mpr ⟨hlow, by simpa using hhigh⟩⟩
    exact hfinite.mem_toFinset.mpr ⟨_, _, _, h, hmem⟩
  have hpositions : (Finset.Icc 0 (data.length : Int)).card = data.length + 1 := by simp
  calc entries.length
      = entries.toFinset.card := (List.toFinset_card_of_nodup hnodup).symm
    _ ≤ (hfinite.toFinset ×ˢ Finset.Icc 0 (data.length : Int)).card := Finset.card_le_card hsubset
    _ = hfinite.toFinset.card * (data.length + 1) := by rw [Finset.card_product, hpositions]
    _ ≤ k * (data.length + 1) := Nat.mul_le_mul_right _ hcells

/-- A run on a sequence from its start that can enter at most a number of cells, and is too deep under
a limit of that many entries for each position and one, is too deep under all limits. -/
theorem Grammar.diverges_of_limit (g : Grammar) (s : Store) (data : Sequence) (traced : Bool)
    (k : Nat) (hk : {cell | s.CanEnter g ⟨data, 0, traced⟩ cell}.encard ≤ k)
    (h : (g.run s (k * (data.length + 1) + 1) ⟨data, 0, traced⟩).ending = .error .tooDeep) :
    ∀ limit, (g.run s limit ⟨data, 0, traced⟩).ending = .error .tooDeep := by
  rcases exists_nested_or_diverges h with ⟨entries, hnested, hlength⟩ | hdiverges
  · have hrepeated : ¬entries.Nodup := fun hnodup => by
      have hle := hnested.length_le hk hnodup
      omega
    obtain ⟨e, he⟩ := List.exists_duplicate_iff_not_nodup.mpr hrepeated
    exact hnested.diverges_of_duplicate he
  · exact hdiverges

/-- Two cells that enter each other, the first one behind a bracket that need not be there. -/
def Store.ofDetour : Store :=
  ((Store.empty.allocate (some
    (.right (.orElse (.lit (.text (Text.ofString "("))) .absent) (.enter 1)))).2.allocate
      (some (.orElse (.enter 0) .absent))).2

/-- Two cells and three positions: a run that is too deep under a limit of seven never ends, although
it reads brackets and each entry is optional. -/
theorem Grammar.diverges_of_seven_entries :
    {cell | Store.ofDetour.CanEnter (.enter 0) ⟨.text (Text.ofString "(("), 0, false⟩ cell}.encard
        ≤ (2 : Nat) ∧
      ((enter 0).run Store.ofDetour 7 ⟨.text (Text.ofString "(("), 0, false⟩).ending =
        .error .tooDeep ∧
      ∀ limit, ((enter 0).run Store.ofDetour limit ⟨.text (Text.ofString "(("), 0, false⟩).ending =
        .error .tooDeep := by
  have hcells : {cell | Store.ofDetour.CanEnter (.enter 0)
      ⟨.text (Text.ofString "(("), 0, false⟩ cell} ⊆ {0, 1} := by
    rintro cell ⟨limit, entries, position, hnested, hmem⟩
    obtain ⟨body, hbody⟩ := hnested.exists_body _ hmem
    match cell, hbody with
    | 0, _ => exact Or.inl rfl
    | 1, _ => exact Or.inr rfl
    | _ + 2, hbody => cases hbody
  have hk := (Set.encard_le_encard hcells).trans (Set.encard_insert_le _ _)
  rw [Set.encard_singleton] at hk
  have h : ((enter 0).run Store.ofDetour 7 ⟨.text (Text.ofString "(("), 0, false⟩).ending =
      .error .tooDeep := rfl
  exact ⟨hk, h, diverges_of_limit (enter 0) Store.ofDetour _ false 2 hk h⟩

end Descent
