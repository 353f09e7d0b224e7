import Descent.Expr

/-!
Sessions: grammars, cells, inputs and outcomes by name, and the steps that make and use them.  A step
that stops with a fault changes nothing, and the session goes on.
-/

set_option autoImplicit false
set_option relaxedAutoImplicit false

namespace Descent

/-- The store of a session and its four tables of names, the latest first. -/
structure Session where
  store : Store
  grammars : List (Text × Grammar)
  cells : List (Text × CellId)
  inputs : List (Text × Input)
  outcomes : List (Text × Outcome)

/-- What a step reads: a value from its start, or an input. -/
inductive Target where
  | fresh (data : Value) (traced : Bool)
  | input (i : Except Fault Input)
  | named (name : Text)

/-- A step that runs no parser. -/
inductive Change where
  | name (name : Text) (e : Expr)
  /-- A new empty cell and a grammar that enters it. -/
  | declare (name : Text)
  /-- A new cell with or without content and a grammar that enters it. -/
  | cell (name : Text) (content : Option Expr)
  | define (cell : Text) (e : Expr)
  | isDefined (cell : Text)
  | copy (name source : Text)
  | input (name : Text) (i : Except Fault Input)
  | advance (name source : Text) (n : Int)
  | inspect (input : Text)
  | sameOutcome (a b : Text)
  | sameInput (a b : Text)
  | absence

/-- A step of a session.  An outcome and what it leaves can be kept under names. -/
inductive Step where
  | change (c : Change)
  | parse (e : Expr) (target : Target) (keepAs saveRest : Option Text)
  | enterCell (cell input : Text)

/-- What a step answers. -/
inductive Answer where
  | done
  | defined (b : Bool)
  | outcome (o : Outcome)
  | input (i : Input)
  | same (b : Bool)
  | absence

/-- The input of a value, which must be a sequence. -/
def Input.ofValue (data : Value) (position : Int) (traced : Bool) : Except Fault Input :=
  match Sequence.ofValue? data with
  | some s => .ok ⟨s, position, traced⟩
  | none => .error .unsupported

namespace Session

/-- The session in which nothing has been made. -/
def empty : Session :=
  ⟨Store.empty, [], [], [], []⟩

/-- What a name stands for in a table. -/
def find {α : Type} (table : List (Text × α)) (name : Text) : Except Fault α :=
  match table.lookup name with
  | some a => .ok a
  | none => .error (.noKey (.str name))

/-- The input that a target means. -/
def resolve (s : Session) : Target → Except Fault Input
  | .fresh data traced => Input.ofValue data 0 traced
  | .input i => i
  | .named name => find s.inputs name

/-- Names a new cell and the grammar that enters it. -/
def addCell (s : Session) (name : Text) (content : Option Grammar) : Session :=
  let (cell, store) := s.store.allocate content
  { s with
    store := store
    grammars := (name, .enter cell) :: s.grammars
    cells := (name, cell) :: s.cells }

/-- Builds a grammar with the names of a session. -/
def build (s : Session) (e : Expr) : Except Fault (Grammar × Session) :=
  (e.build s.grammars s.store).map fun (g, store) => (g, { s with store := store })

/-- Takes a step that runs no parser. -/
def change (s : Session) : Change → Except Fault (Answer × Session)
  | .name name e => do
    let (g, s) ← s.build e
    return (.done, { s with grammars := (name, g) :: s.grammars })
  | .declare name => .ok (.done, s.addCell name none)
  | .cell name none => .ok (.done, s.addCell name none)
  | .cell name (some e) => do
    let (g, s) ← s.build e
    return (.done, s.addCell name (some g))
  | .define name e => do
    let (g, s) ← s.build e
    let cell ← find s.cells name
    let store ← s.store.define cell g
    return (.done, { s with store := store })
  | .isDefined name => do
    let cell ← find s.cells name
    return (.defined (s.store.isDefined cell), s)
  | .copy name source => do
    let g ← find s.grammars source
    return (.done, { s with grammars := (name, g) :: s.grammars })
  | .input name i => do
    let i ← i
    return (.input i, { s with inputs := (name, i) :: s.inputs })
  | .advance name source n => do
    let i ← find s.inputs source
    let j := i.advance n
    return (.input j, { s with inputs := (name, j) :: s.inputs })
  | .inspect name => do
    let i ← find s.inputs name
    return (.input i, s)
  | .sameOutcome a b => do
    let o ← find s.outcomes a
    let p ← find s.outcomes b
    return (.same (o.same p), s)
  | .sameInput a b => do
    let i ← find s.inputs a
    let j ← find s.inputs b
    return (.same (i.same j), s)
  | .absence => .ok (.absence, s)

/-- Keeps an outcome and what it left under names, if names are given. -/
def keep (s : Session) (o : Outcome) (keepAs saveRest : Option Text) : Session :=
  let s :=
    match keepAs with
    | some name => { s with outcomes := (name, o) :: s.outcomes }
    | none => s
  match saveRest, o with
  | some name, .success _ rest => { s with inputs := (name, rest) :: s.inputs }
  | _, _ => s

/-- The grammar and the input of a parse, and the session after building it. -/
def prepareParse (s : Session) (e : Expr) (target : Target) :
    Except Fault (Grammar × Input × Session) := do
  let (g, s) ← s.build e
  let i ← s.resolve target
  return (g, i, s)

/-- The grammar and the input of entering a cell. -/
def prepareEntry (s : Session) (cell input : Text) : Except Fault (Grammar × Input × Session) := do
  let cell ← find s.cells cell
  let i ← find s.inputs input
  return (.enter cell, i, s)

/-- Runs a prepared grammar. -/
def runPrepared (s : Session) (prepared : Except Fault (Grammar × Input × Session))
    (keepAs saveRest : Option Text) : Run Answer × Session :=
  match prepared with
  | .error f => (.stop f, s)
  | .ok (g, i, after) =>
    let r := g.run after.store entryLimit i
    match r.ending with
    | .error f => (⟨.error f, r.trace⟩, after)
    | .ok o => (⟨.ok (.outcome o), r.trace⟩, after.keep o keepAs saveRest)

/-- Takes a step. -/
def take (s : Session) : Step → Run Answer × Session
  | .parse e target keepAs saveRest => s.runPrepared (s.prepareParse e target) keepAs saveRest
  | .enterCell cell input => s.runPrepared (s.prepareEntry cell input) none none
  | .change c =>
    match s.change c with
    | .ok (a, after) => (.done a, after)
    | .error f => (.stop f, s)

/-- Takes steps in order. -/
def takeAll (s : Session) : List Step → List (Run Answer)
  | [] => []
  | step :: rest =>
    let (r, after) := s.take step
    r :: after.takeAll rest

/-- The session with new cells for all names, which are then defined in order. -/
def withRules (rules : List (Text × Expr)) : Except Fault Session :=
  let declared := rules.foldl (fun s (name, _) => s.addCell name none) empty
  rules.foldlM (fun s (name, e) => (s.change (.define name e)).map Prod.snd) declared

/-- Runs a grammar whose references are rules that may refer to each other. -/
def parseOnce (rules : List (Text × Expr)) (e : Expr) (target : Target) : Run Answer :=
  match withRules rules with
  | .error f => .stop f
  | .ok s => (s.take (.parse e target none none)).1

end Session

end Descent
