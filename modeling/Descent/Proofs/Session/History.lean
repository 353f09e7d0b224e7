import Descent.Proofs.Session.Building
import Descent.Session

/-!
Histories of sessions.  Whatever is done to a session, in whatever order, a cell that holds a grammar
keeps it, and an empty one gets the grammar of its first definition.  So a run that met no empty cell
is the same at every later time.
-/

set_option autoImplicit false
set_option relaxedAutoImplicit false

namespace Descent

namespace Session

/-- Something that is done to a session: a step, or what a step does, with a grammar that need not
come from an expression. -/
inductive Operation where
  | step (step : Step)
  | name (name : Text) (g : Grammar)
  /-- A new cell with or without content and a grammar that enters it. -/
  | cell (name : Text) (content : Option Grammar)
  | define (cell : Text) (g : Grammar)
  | run (g : Grammar) (i : Input)

/-- Does an operation. -/
def perform (s : Session) : Operation → Run Answer × Session
  | .step step => s.take step
  | .name name g => (.done .done, { s with grammars := (name, g) :: s.grammars })
  | .cell name content => (.done .done, s.addCell name content)
  | .define name g =>
    match find s.cells name >>= fun cell => s.store.define cell g with
    | .ok store => (.done .done, { s with store := store })
    | .error f => (.stop f, s)
  | .run g i => s.runPrepared (.ok (g, i, s)) none none

/-- The session after operations in order. -/
def performAll (s : Session) (ops : List Operation) : Session :=
  ops.foldl (fun s op => (s.perform op).2) s

/-- The cell and the grammar of an operation that is a definition.  The cell may be filled. -/
def definition? (s : Session) : Operation → Option (CellId × Grammar)
  | .define name g =>
    match find s.cells name with
    | .ok cell => some (cell, g)
    | .error _ => none
  | .step (.change (.define name e)) =>
    match find s.cells name, s.build e with
    | .ok cell, .ok (g, _) => some (cell, g)
    | _, _ => none
  | _ => none

/-- The grammar as which an operation defines a cell. -/
def definitionOf? (s : Session) (cell : CellId) (op : Operation) : Option Grammar :=
  match s.definition? op with
  | some (c, g) => if c = cell then some g else none
  | none => none

/-- The grammar as which the first definition of a cell among operations defines it. -/
def firstDefinition? (s : Session) (cell : CellId) : List Operation → Option Grammar
  | [] => none
  | op :: rest =>
    (s.definitionOf? cell op).or ((s.perform op).2.firstDefinition? cell rest)

/-- Nothing is in a cell that has not been made, and only cells that have been made have names. -/
structure Sound (s : Session) : Prop where
  fresh : s.store.Fresh
  made : ∀ e ∈ s.cells, e.2 < s.store.size

theorem sound_empty : empty.Sound :=
  ⟨Store.fresh_empty, fun _ he => (List.not_mem_nil he).elim⟩

theorem Sound.lt_size {s : Session} (hs : s.Sound) {name : Text} {cell : CellId}
    (h : find s.cells name = .ok cell) : cell < s.store.size := by
  unfold find at h
  cases hlookup : s.cells.lookup name with
  | none =>
    rw [hlookup] at h
    cases h
  | some c =>
    rw [hlookup] at h
    obtain rfl := Except.ok.inj h
    obtain ⟨front, back, heq, -⟩ := List.lookup_eq_some_iff.mp hlookup
    have hmem : (name, c) ∈ s.cells := by
      rw [heq]
      exact List.mem_append_right front List.mem_cons_self
    exact hs.made (name, c) hmem

/-- A session has come from another by adding cells, some of them with names. -/
structure Adds (s after : Session) : Prop where
  store : s.store.Extends after.store
  cells : ∀ e ∈ after.cells, e ∈ s.cells ∨ e.2 < after.store.size

section Steps

variable {s after : Session}

theorem Adds.of_same (hstore : after.store = s.store) (hcells : after.cells = s.cells) :
    s.Adds after :=
  ⟨hstore ▸ .refl, fun _ he => Or.inl (hcells ▸ he)⟩

theorem Adds.sound (h : s.Adds after) (hs : s.Sound) : after.Sound := by
  refine ⟨h.store.fresh hs.fresh, fun e he => ?_⟩
  rcases h.cells e he with hold | hnew
  · exact Nat.lt_of_lt_of_le (hs.made e hold) h.store.size_le
  · exact hnew

private theorem exists_of_bind_eq_ok {α β : Type} {first : Except Fault α}
    {next : α → Except Fault β} {b : β} (h : first >>= next = .ok b) :
    ∃ a, first = .ok a ∧ next a = .ok b := by
  cases first with
  | error f => cases h
  | ok a => exact ⟨a, rfl, h⟩

/-- Building changes the store only, and only adds cells to it. -/
theorem exists_of_build {e : Expr} {g : Grammar} (h : s.build e = .ok (g, after)) :
    ∃ store, s.store.Extends store ∧ after = { s with store := store } := by
  unfold build at h
  cases hbuilt : e.build s.grammars s.store with
  | error f =>
    rw [hbuilt] at h
    cases h
  | ok built =>
    rw [hbuilt] at h
    cases h
    exact ⟨built.2, Expr.onlyAdds_build s.grammars e _ _ _ hbuilt, rfl⟩

theorem adds_of_build {e : Expr} {g : Grammar} (h : s.build e = .ok (g, after)) :
    s.Adds after := by
  obtain ⟨store, hextends, rfl⟩ := exists_of_build h
  exact ⟨hextends, fun _ he => Or.inl he⟩

theorem Adds.addCell (h : s.Adds after) (name : Text) (content : Option Grammar) :
    s.Adds (after.addCell name content) := by
  refine ⟨.allocate content h.store, fun e he => ?_⟩
  rcases List.mem_cons.mp he with rfl | he
  · exact Or.inr (Nat.lt_succ_self _)
  · exact (h.cells e he).imp_right Nat.lt_succ_of_lt

@[simp] theorem store_keep (s : Session) (o : Outcome) (keepAs saveRest : Option Text) :
    (s.keep o keepAs saveRest).store = s.store := by
  unfold keep
  cases keepAs <;> cases saveRest <;> cases o <;> rfl

@[simp] theorem cells_keep (s : Session) (o : Outcome) (keepAs saveRest : Option Text) :
    (s.keep o keepAs saveRest).cells = s.cells := by
  unfold keep
  cases keepAs <;> cases saveRest <;> cases o <;> rfl

theorem adds_runPrepared {prepared : Except Fault (Grammar × Input × Session)}
    (h : ∀ g i after, prepared = .ok (g, i, after) → s.Adds after) (keepAs saveRest : Option Text) :
    s.Adds (s.runPrepared prepared keepAs saveRest).2 := by
  unfold runPrepared
  cases prepared with
  | error f => exact .of_same rfl rfl
  | ok p =>
    obtain ⟨g, i, after⟩ := p
    have hafter := h g i after rfl
    dsimp only
    split
    · exact hafter
    · refine ⟨?_, ?_⟩
      · rw [store_keep]
        exact hafter.store
      · rw [store_keep, cells_keep]
        exact hafter.cells

theorem adds_of_prepareParse {e : Expr} {target : Target} {g : Grammar} {i : Input}
    (h : s.prepareParse e target = .ok (g, i, after)) : s.Adds after := by
  obtain ⟨⟨g', after'⟩, hbuilt, h⟩ := exists_of_bind_eq_ok h
  obtain ⟨i', -, h⟩ := exists_of_bind_eq_ok h
  cases h
  exact adds_of_build hbuilt

theorem adds_of_prepareEntry {cell input : Text} {g : Grammar} {i : Input}
    (h : s.prepareEntry cell input = .ok (g, i, after)) : s.Adds after := by
  obtain ⟨c, -, h⟩ := exists_of_bind_eq_ok h
  obtain ⟨i', -, h⟩ := exists_of_bind_eq_ok h
  cases h
  exact .of_same rfl rfl

/-- A change other than a definition only adds cells. -/
theorem adds_of_change {c : Change} {a : Answer} (h : s.change c = .ok (a, after))
    (hc : ∀ name e, c ≠ .define name e) : s.Adds after := by
  cases c with
  | name name e =>
    obtain ⟨⟨g, built⟩, hbuilt, h⟩ := exists_of_bind_eq_ok h
    cases h
    exact ⟨(adds_of_build hbuilt).store, (adds_of_build hbuilt).cells⟩
  | declare name =>
    cases h
    exact Adds.addCell (.of_same rfl rfl) name none
  | cell name content =>
    cases content with
    | none =>
      cases h
      exact Adds.addCell (.of_same rfl rfl) name none
    | some e =>
      obtain ⟨⟨g, built⟩, hbuilt, h⟩ := exists_of_bind_eq_ok h
      cases h
      exact (adds_of_build hbuilt).addCell name (some g)
  | define name e => exact (hc name e rfl).elim
  | isDefined _ | copy _ _ | input _ _ | advance _ _ _ | inspect _ =>
    obtain ⟨_, -, h⟩ := exists_of_bind_eq_ok h
    cases h
    exact .of_same rfl rfl
  | sameOutcome _ _ | sameInput _ _ =>
    obtain ⟨_, -, h⟩ := exists_of_bind_eq_ok h
    obtain ⟨_, -, h⟩ := exists_of_bind_eq_ok h
    cases h
    exact .of_same rfl rfl
  | absence =>
    cases h
    exact .of_same rfl rfl

variable {cell other : CellId} {g body : Grammar} {op : Operation}

theorem adds_of_definition?_eq_none (hop : s.definition? op = none) : s.Adds (s.perform op).2 := by
  cases op with
  | name name g => exact .of_same rfl rfl
  | cell name content => exact Adds.addCell (.of_same rfl rfl) name content
  | run g i =>
    refine adds_runPrepared (fun g i after h => ?_) none none
    cases h
    exact .of_same rfl rfl
  | define name g =>
    rw [perform]
    cases hfind : find s.cells name with
    | error f => exact .of_same rfl rfl
    | ok cell => simp [definition?, hfind] at hop
  | step step =>
    cases step with
    | parse e target keepAs saveRest =>
      exact adds_runPrepared (fun g i after h => adds_of_prepareParse h) keepAs saveRest
    | enterCell cell input =>
      exact adds_runPrepared (fun g i after h => adds_of_prepareEntry h) none none
    | change c =>
      rw [perform, take]
      cases hc : s.change c with
      | error f => exact .of_same rfl rfl
      | ok p =>
        -- A definition that succeeds has built its grammar and found its cell, so it is one.
        refine adds_of_change hc fun name e heq => ?_
        subst heq
        obtain ⟨⟨g, built⟩, hbuilt, hc⟩ := exists_of_bind_eq_ok hc
        obtain ⟨cell, hfind, -⟩ := exists_of_bind_eq_ok hc
        obtain ⟨store, -, rfl⟩ := exists_of_build hbuilt
        have hfind' : find s.cells name = .ok cell := hfind
        simp [definition?, hfind', hbuilt] at hop

/-- A definition is made in a store that has the cells of its grammar too. -/
theorem exists_perform_eq (hop : s.definition? op = some (cell, g)) :
    (∃ name, find s.cells name = .ok cell) ∧ ∃ store, s.store.Extends store ∧
      s.perform op = match store.define cell g with
        | .ok filled => (.done .done, { s with store := filled })
        | .error f => (.stop f, s) := by
  unfold definition? at hop
  split at hop
  · next name h =>
    split at hop
    · next c hfind =>
      cases hop
      refine ⟨⟨name, hfind⟩, s.store, .refl, ?_⟩
      rw [perform, hfind]
      rfl
    · cases hop
  · next name e =>
    split at hop
    · next c h after hfind hbuilt =>
      cases hop
      obtain ⟨store, hextends, rfl⟩ := exists_of_build hbuilt
      refine ⟨⟨name, hfind⟩, store, hextends, ?_⟩
      simp only [perform, take, change, hbuilt, bind, Except.bind, hfind]
      cases store.define cell g <;> rfl
    · cases hop
  · cases hop

/-- The definition of a cell that is filled stops, and changes nothing. -/
theorem perform_of_filled (hs : s.Sound) (hop : s.definition? op = some (cell, g))
    (hcell : s.store.get? cell = some body) : s.perform op = (.stop .filledCell, s) := by
  obtain ⟨⟨name, hfind⟩, store, hextends, hperform⟩ := exists_perform_eq hop
  have hget := (hextends.get?_eq (hs.lt_size hfind)).trans hcell
  rw [hperform, Store.define, hget]

/-- All that an operation can do to the cells: it adds some, or it is the definition of an empty one,
which it fills. -/
theorem perform_cases (hs : s.Sound) (op : Operation) :
    (s.Adds (s.perform op).2 ∧
        ∀ cell g, s.definition? op = some (cell, g) → s.store.get? cell ≠ none) ∨
      ∃ cell g store, s.definition? op = some (cell, g) ∧ cell < s.store.size ∧
        s.store.get? cell = none ∧ s.store.Extends store ∧
        (s.perform op).2 = { s with store := store.set cell (some g) } := by
  cases hop : s.definition? op with
  | none => exact Or.inl ⟨adds_of_definition?_eq_none hop, nofun⟩
  | some p =>
    obtain ⟨cell, g⟩ := p
    cases hcell : s.store.get? cell with
    | none =>
      obtain ⟨⟨name, hfind⟩, store, hextends, hperform⟩ := exists_perform_eq hop
      have hget := (hextends.get?_eq (hs.lt_size hfind)).trans hcell
      refine Or.inr ⟨cell, g, store, rfl, hs.lt_size hfind, hcell, hextends, ?_⟩
      rw [hperform, Store.define, hget]
    | some body =>
      rw [perform_of_filled hs hop hcell]
      refine Or.inl ⟨.of_same rfl rfl, fun c h heq hnone => ?_⟩
      cases heq
      rw [hcell] at hnone
      cases hnone

theorem Sound.perform (hs : s.Sound) (op : Operation) : (s.perform op).2.Sound := by
  rcases perform_cases hs op with ⟨hadds, -⟩ | ⟨cell, g, store, -, hlt, -, hextends, hperform⟩
  · exact hadds.sound hs
  · rw [hperform]
    have hlt' := Nat.lt_of_lt_of_le hlt hextends.size_le
    exact ⟨(hextends.fresh hs.fresh).set hlt' _,
      fun e he => Nat.lt_of_lt_of_le (hs.made e he) hextends.size_le⟩

theorem size_le_perform (hs : s.Sound) (op : Operation) :
    s.store.size ≤ (s.perform op).2.store.size := by
  rcases perform_cases hs op with ⟨hadds, -⟩ | ⟨cell, g, store, -, -, -, hextends, hperform⟩
  · exact hadds.store.size_le
  · rw [hperform]
    exact hextends.size_le

theorem definitionOf?_eq (hop : s.definition? op = some (other, g)) :
    s.definitionOf? cell op = if other = cell then some g else none := by
  rw [definitionOf?, hop]

theorem definition?_of_definitionOf? (h : s.definitionOf? cell op = some g) :
    s.definition? op = some (cell, g) := by
  cases hop : s.definition? op with
  | none => simp [definitionOf?, hop] at h
  | some p =>
    rw [definitionOf?_eq hop] at h
    split at h
    · next heq => rw [← heq, ← Option.some.inj h]
    · cases h

/-- An operation leaves what is in a cell, or fills the cell if it is empty. -/
theorem get?_perform (hs : s.Sound) (hcell : cell < s.store.size) (op : Operation) :
    (s.perform op).2.store.get? cell = (s.store.get? cell).or (s.definitionOf? cell op) := by
  rcases perform_cases hs op with
    ⟨hadds, hfilled⟩ | ⟨c, g, store, hop, -, hempty, hextends, hperform⟩
  · rw [hadds.store.get?_eq hcell]
    cases hget : s.store.get? cell with
    | some body => rfl
    | none =>
      -- A definition of this cell would have filled it.
      cases hdefinition : s.definitionOf? cell op with
      | none => rfl
      | some g => exact (hfilled cell g (definition?_of_definitionOf? hdefinition) hget).elim
  · rw [hperform, definitionOf?_eq hop]
    by_cases heq : c = cell
    · subst heq
      rw [Store.get?_set_self, hempty, Option.none_or, if_pos rfl]
    · rw [Store.get?_set_of_ne store (Ne.symm heq), hextends.get?_eq hcell, if_neg heq,
        Option.or_none]

end Steps

section Histories

variable {s : Session} {cell : CellId}

theorem Sound.performAll (hs : s.Sound) (ops : List Operation) : (s.performAll ops).Sound := by
  induction ops generalizing s with
  | nil => exact hs
  | cons op rest ih => exact ih (hs.perform op)

theorem get?_performAll (hs : s.Sound) (hcell : cell < s.store.size) (ops : List Operation) :
    (s.performAll ops).store.get? cell =
      (s.store.get? cell).or (s.firstDefinition? cell ops) := by
  induction ops generalizing s with
  | nil => exact Option.or_none.symm
  | cons op rest ih =>
    have hlater := ih (hs.perform op) (Nat.lt_of_lt_of_le hcell (size_le_perform hs op))
    calc (s.performAll (op :: rest)).store.get? cell
        = ((s.perform op).2.performAll rest).store.get? cell := rfl
      _ = ((s.perform op).2.store.get? cell).or ((s.perform op).2.firstDefinition? cell rest) :=
          hlater
      _ = (s.store.get? cell).or (s.firstDefinition? cell (op :: rest)) := by
          rw [get?_perform hs hcell, Option.or_assoc, firstDefinition?]

theorem keeps_performAll (hs : s.Sound) (ops : List Operation) :
    s.store.Keeps (s.performAll ops).store := by
  intro cell g hget
  rw [get?_performAll hs (hs.fresh.lt_size hget), hget]
  rfl

end Histories

/-- Whatever has been done, and whatever is done after it: a cell holds what it holds now, or, if it
is empty now, the grammar of its first definition.  The definition of a filled cell stops and changes
nothing.  A copy is the same grammar, and the run of a grammar that has not ended at an empty cell
stays the same. -/
theorem filled_once (before : List Operation) :
    let s := empty.performAll before
    (∀ later, ∀ cell < s.store.size, (s.performAll later).store.get? cell =
      (s.store.get? cell).or (s.firstDefinition? cell later)) ∧
    (∀ op cell g, s.definition? op = some (cell, g) → s.store.isDefined cell = true →
      s.perform op = (.stop .filledCell, s)) ∧
    (∀ name source g, find s.grammars source = .ok g →
      find (s.perform (.step (.change (.copy name source)))).2.grammars name = .ok g) ∧
    ∀ later (g : Grammar) limit i, (g.run s.store limit i).ending ≠ .error .undefinedCell →
      g.run (s.performAll later).store limit i = g.run s.store limit i := by
  intro s
  have hs : s.Sound := sound_empty.performAll before
  refine ⟨fun later cell hcell => get?_performAll hs hcell later, ?_, ?_,
    fun later g limit i => Grammar.run_eq_of_keeps (keeps_performAll hs later)⟩
  · intro op cell g hop hdefined
    obtain ⟨body, hcell⟩ := Option.isSome_iff_exists.mp hdefined
    exact perform_of_filled hs hop hcell
  · intro name source g hfind
    simp only [perform, take, change, hfind, bind, Except.bind]
    simp [find, pure, Except.pure]

/-- An empty cell with a name. -/
def ofEmptyCell : Session :=
  empty.performAll [.cell (Text.ofString "p") none]

/-- A cell that is defined twice holds the first grammar, and the second definition does not change
what a run gives. -/
theorem filled_once_by_first :
    (ofEmptyCell.performAll [.define (Text.ofString "p") .item,
        .define (Text.ofString "p") .eof]).store.get? 0 = some .item ∧
      (ofEmptyCell.performAll [.define (Text.ofString "p") .item]).perform
          (.define (Text.ofString "p") .eof) =
        (.stop .filledCell, ofEmptyCell.performAll [.define (Text.ofString "p") .item]) ∧
      (Grammar.enter 0).run (ofEmptyCell.performAll [.define (Text.ofString "p") .item,
          .define (Text.ofString "p") .eof]).store 1 ⟨.text (Text.ofString "ab"), 1, false⟩ =
        (Grammar.enter 0).run (ofEmptyCell.performAll [.define (Text.ofString "p") .item]).store 1
          ⟨.text (Text.ofString "ab"), 1, false⟩ := by
  obtain ⟨hcells, -, -, -⟩ := filled_once [.cell (Text.ofString "p") none]
  obtain ⟨-, hfilled, -, hruns⟩ :=
    filled_once [.cell (Text.ofString "p") none, .define (Text.ofString "p") .item]
  exact ⟨hcells _ 0 (by decide), hfilled (.define (Text.ofString "p") .eof) 0 .eof rfl rfl,
    hruns [.define (Text.ofString "p") .eof] (.enter 0) 1 _ nofun⟩

end Session

end Descent
