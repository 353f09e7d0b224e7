import Descent.Trace

/-!
Runs: a result or a fault, with the trace that was left on the way.  Runs one after the other form a
lawful monad, so how they are bracketed makes no difference.
-/

set_option autoImplicit false
set_option relaxedAutoImplicit false

namespace Descent

/-- The end of a computation and its trace. -/
structure Run (α : Type) where
  ending : Except Fault α
  trace : Trace

namespace Run

variable {α β : Type}

/-- A run that ends at once with a result. -/
def done (a : α) : Run α :=
  ⟨.ok a, []⟩

/-- A run that stops at once with a fault. -/
def stop (f : Fault) : Run α :=
  ⟨.error f, []⟩

/-- A run that leaves no trace. -/
def ofExcept (e : Except Fault α) : Run α :=
  ⟨e, []⟩

/-- A run that leaves one event. -/
def emit (e : Event) : Run Unit :=
  ⟨.ok (), [e]⟩

/-- One run after the other; a fault ends both. -/
def andThen (r : Run α) (next : α → Run β) : Run β :=
  match r.ending with
  | .ok a =>
    let s := next a
    ⟨s.ending, r.trace ++ s.trace⟩
  | .error f => ⟨.error f, r.trace⟩

instance : Monad Run where
  pure := done
  bind := andThen

@[simp] theorem done_andThen (a : α) (next : α → Run β) : (done a).andThen next = next a := by
  simp [done, andThen]

@[simp] theorem stop_andThen (f : Fault) (next : α → Run β) : (stop f).andThen next = stop f := rfl

@[simp] theorem andThen_done (r : Run α) : r.andThen done = r := by
  rcases r with ⟨ending, trace⟩
  cases ending <;> simp [done, andThen]

theorem andThen_assoc {γ : Type} (r : Run α) (f : α → Run β) (g : β → Run γ) :
    (r.andThen f).andThen g = r.andThen fun a => (f a).andThen g := by
  rcases r with ⟨_ | a, trace⟩
  · rfl
  · cases h : (f a).ending <;> simp [andThen, h]

instance : LawfulMonad Run :=
  LawfulMonad.mk' Run andThen_done done_andThen andThen_assoc

end Run

end Descent
