import Descent.Proofs.Json.Places

/-!
Which texts are too deep for a limit.  It depends on the start of a text only: on a place up to which
everything can be read and where as many values are open inside each other as entries are allowed.
-/

set_option autoImplicit false
set_option relaxedAutoImplicit false

namespace Descent.Json

open Descent.Parser

/-- In a text as many values as given are open inside each other, with nothing but what can be read
in front of the innermost one. -/
inductive Descends : Nat → Text → Prop where
  | here (t : Text) : Descends 0 t
  | inside {n : Nat} {u t : Text} : LeadsIn u → Descends n t → Descends (n + 1) (u ++ t)

theorem Descends.append {n : Nat} {t : Text} (h : Descends n t) (u : Text) :
    Descends n (t ++ u) := by
  induction h with
  | here t => exact .here _
  | inside hu _ ih =>
    rw [List.append_assoc]
    exact .inside hu ih

variable {limit : Nat} {whole x : Text}

/-- An entry is too deep only where its text descends to the limit. -/
theorem stopsOnly_descends (hx : x <:+ whole) :
    (documentStore.enter limit 0 (.before whole x)).StopsOnly fun f =>
      f = .tooDeep → Descends limit x := by
  induction limit generalizing x with
  | zero => exact Run.stopsOnly_stop fun _ => .here x
  | succ limit ih =>
    refine stopsOnly_valueRule (readsOnly_enter limit) hx (fun _ _ _ _ _ _ hf => by cases hf) ?_
    intro u y hxy hu
    have hy : y <:+ whole := (List.suffix_append u y).trans (hxy ▸ hx)
    refine (ih hy).mono fun f hf hdeep => ?_
    rw [hxy]
    exact .inside hu (hf hdeep)

/-- An entry is too deep where its text descends to the limit. -/
theorem stops_of_descends {t : Text} (h : Descends limit t) (hx : x <:+ whole)
    (htrim : trim x = trim t) : (documentStore.enter limit 0).Stops whole x .tooDeep := by
  induction h generalizing x with
  | here t => rfl
  | inside hu _ ih =>
    exact stops_of_leadsIn hu (Or.inr rfl) hx htrim fun x' hx' htrim' => ih hx' htrim'

theorem stops_tooDeep_iff (hx : x <:+ whole) :
    (documentStore.enter limit 0).Stops whole x .tooDeep ↔ Descends limit x :=
  ⟨fun h => stopsOnly_descends hx _ h rfl, fun h => stops_of_descends h hx rfl⟩

end Descent.Json
