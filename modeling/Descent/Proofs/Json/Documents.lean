import Descent.Proofs.Grammar.Dependence
import Descent.Proofs.Json.Completeness

/-!
Which texts are read as documents, and as which values.
-/

set_option autoImplicit false
set_option relaxedAutoImplicit false

namespace Descent.Json

/-- How a run is taken depends only on what it says. -/
theorem ending_ofRun_congr {r s : Run Outcome}
    (h : r.ending.map (Outcome.seenFrom 0) = s.ending.map (Outcome.seenFrom 0)) :
    (Reading.ofRun r).ending = (Reading.ofRun s).ending := by
  rcases r with ⟨f | ⟨v, rest⟩ | ⟨position, why⟩, trace⟩ <;>
    rcases s with ⟨f' | ⟨v', rest'⟩ | ⟨position', why'⟩, trace'⟩ <;>
    simp [Except.map, Outcome.seenFrom] at h <;> simp [Reading.ofRun, h]

/-- A reading ends alike whether it is traced or not. -/
theorem readWithin_untraced (limit : Nat) (t : Text) (traced : Bool) :
    (readWithin limit t traced).ending = (readWithin limit t false).ending :=
  ending_ofRun_congr (documentGrammar.seenFrom_untraced documentStore limit (.text t) 0 traced)

/-- Whatever the bound on the entries, what is read is a document. -/
theorem isDocument_of_readWithin {limit : Nat} {t : Text} {traced : Bool} {v : Value}
    (h : (readWithin limit t traced).ending = .ok v) : IsDocument FitsLimit t v := by
  rw [readWithin_untraced, readWithin] at h
  rcases hending : (documentGrammar.run documentStore limit ⟨.text t, 0, false⟩).ending with
    f | ⟨w, rest⟩ | ⟨position, why⟩
  · cases f <;> simp [Reading.ofRun, hending] at h
  · have hdocument := ensures_isDocument limit t _ hending
    simp only [Reading.ofRun, hending, Except.ok.injEq] at h
    exact h ▸ hdocument
  · simp [Reading.ofRun, hending] at h

/-- A document is read, if more entries are allowed than brackets and braces open in it. -/
theorem readWithin_of_isDocument {limit : Nat} {t : Text} {v : Value} (hlimit : openings t < limit)
    (traced : Bool) (h : IsDocument FitsLimit t v) : (readWithin limit t traced).ending = .ok v := by
  have hrun := (accepts_document hlimit h).run t List.suffix_rfl
  rw [Input.before_self] at hrun
  rw [readWithin_untraced, readWithin, hrun]
  rfl

/-- A document denotes one value only, although it may be derived in several ways. -/
theorem isDocument_unique {t : Text} {v w : Value} (hv : IsDocument FitsLimit t v)
    (hw : IsDocument FitsLimit t w) : v = w := by
  -- White space around a mark may belong to either side, so derivations are not compared: both
  -- values are what is read under one limit.
  have hreadv := readWithin_of_isDocument (Nat.lt_succ_self (openings t)) false hv
  have hreadw := readWithin_of_isDocument (Nat.lt_succ_self (openings t)) false hw
  exact Except.ok.inj (hreadv.symm.trans hreadw)

theorem isSpaces_nil : IsSpaces [] :=
  fun c hc => by cases hc

theorem isMark_alone (mark : Char) : IsMark mark [Code.ofChar mark] :=
  ⟨[], [], isSpaces_nil, isSpaces_nil, rfl⟩

theorem derives_whole {w : Text} (hw : IsWhole w) (hfits : FitsLimit w) :
    Derives FitsLimit .value w (.int (digitsValue w)) := by
  simpa [integerValue] using
    Derives.value isSpaces_nil (.integer (Or.inl rfl) hw hfits) isSpaces_nil

end Descent.Json
