import Descent.Json.Grammar

/-!
Reading JSON documents.
-/

set_option autoImplicit false
set_option relaxedAutoImplicit false

namespace Descent.Json

/-- Why a text is not read. -/
inductive Refusal where
  /-- The text is no document, or nests too deep. -/
  | malformed (position : Int) (explanation : Text)
  | fault (f : Fault)

/-- What a refusal of a malformed text says. -/
def malformedMessage (position : Int) (explanation : Text) : Text :=
  Text.ofString "invalid JSON at position " ++ Text.ofInt position ++ Text.ofString ": "
    ++ explanation

/-- A reading: a value or a refusal, with its trace. -/
structure Reading where
  ending : Except Refusal Value
  trace : Trace

/-- The store whose only cell is that of the values. -/
def documentStore : Store :=
  (document Store.empty).2

/-- The grammar of documents over that store. -/
def documentGrammar : Grammar :=
  (document Store.empty).1

/-- How a run of the document grammar is taken. -/
def Reading.ofRun (r : Run Outcome) : Reading :=
  let ending : Except Refusal Value :=
    match r.ending with
    | .ok (.success v _) => .ok v
    | .ok (.failure p why) => .error (.malformed p why)
    | .error .tooDeep => .error (.malformed 0 (Text.ofString "nesting too deep"))
    | .error f => .error (.fault f)
  ⟨ending, r.trace⟩

/-- Reads a document, with at most the given number of values inside each other. -/
def readWithin (limit : Nat) (t : Text) (traced : Bool) : Reading :=
  Reading.ofRun (documentGrammar.run documentStore limit ⟨.text t, 0, traced⟩)

/-- Reads a document. -/
def read (t : Text) (traced : Bool) : Reading :=
  readWithin entryLimit t traced

end Descent.Json
