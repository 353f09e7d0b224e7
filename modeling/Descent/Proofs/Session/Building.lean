import Descent.Expr
import Descent.Proofs.Store.Growth

/-!
What building a grammar does to a store: cells are added, each with its grammar, and those that were
there stay as they are.
-/

set_option autoImplicit false
set_option relaxedAutoImplicit false

namespace Descent

namespace Expr

namespace Builder

variable {α β : Type}

/-- A step of building adds cells, and does nothing else to a store. -/
def OnlyAdds (b : Builder α) : Prop :=
  ∀ s a t, b s = .ok (a, t) → s.Extends t

theorem onlyAdds_give (a : α) : OnlyAdds (give a) := by
  intro s b t h
  cases h
  exact .refl

theorem onlyAdds_ofExcept (e : Except Fault α) : OnlyAdds (ofExcept e) := by
  intro s b t h
  cases e with
  | error f => cases h
  | ok a =>
    cases h
    exact .refl

theorem OnlyAdds.bind {b : Builder α} {next : α → Builder β} (hb : OnlyAdds b)
    (hnext : ∀ a, OnlyAdds (next a)) : OnlyAdds (b >>= next) := by
  intro s c u h
  change andThen b next s = _ at h
  unfold andThen at h
  cases hs : b s with
  | error f =>
    rw [hs] at h
    cases h
  | ok built =>
    rw [hs] at h
    exact (hb s built.1 built.2 hs).trans (hnext _ _ c u h)

theorem OnlyAdds.map {b : Builder α} (hb : OnlyAdds b) (f : α → β) :
    OnlyAdds (b >>= fun a => pure (f a)) :=
  hb.bind fun a => onlyAdds_give (f a)

end Builder

open Builder

theorem onlyAdds_jsonRule (rule : JsonRule) : OnlyAdds (jsonRule rule) := by
  cases rule with
  | null | bool | number | string => exact onlyAdds_give _
  | value | document =>
    intro s g t h
    cases h
    exact .allocate _ .refl

mutual

theorem onlyAdds_build (names : Names) : ∀ e, OnlyAdds (build names e)
  | fail | item | spaces | eof | result _ | sat _ => by
    rw [build]
    exact onlyAdds_give _
  | json rule => by
    rw [build]
    exact onlyAdds_jsonRule rule
  | lit _ | spacedLit _ | pattern _ _ => by
    rw [build]
    exact onlyAdds_ofExcept _
  | many e | many1 e | opt e | skip e | cause e _ | labelled e _ | replace e _ | transform e _
  | thenLit e | thenRepeat e _ | thenTake e | thenResult e _ => by
    rw [build]
    exact (onlyAdds_build names e).map _
  | shared e => by
    rw [build]
    refine (onlyAdds_build names e).bind fun g s h t hs => ?_
    cases hs
    exact .allocate _ .refl
  | seq e f | left e f | right e f | sepBy1 e f | sepBy0 e f | thenPair e f => by
    rw [build]
    exact (onlyAdds_build names e).bind fun _ => (onlyAdds_build names f).map _
  | between e f g => by
    rw [build]
    exact (onlyAdds_build names e).bind fun _ => (onlyAdds_build names f).bind fun _ =>
      (onlyAdds_build names g).map _
  | choice e f more => by
    rw [build]
    exact (onlyAdds_build names e).bind fun _ => (onlyAdds_build names f).bind fun _ =>
      (onlyAdds_buildAll names more).map _
  | thenSwitch e cases otherwise => by
    rw [build]
    exact (onlyAdds_build names e).bind fun _ => (onlyAdds_buildCases names cases).bind fun _ =>
      (onlyAdds_build names otherwise).map _
  | ref name => by
    rw [build]
    split
    · exact onlyAdds_give _
    · exact onlyAdds_ofExcept _

theorem onlyAdds_buildAll (names : Names) : ∀ es, OnlyAdds (buildAll names es)
  | [] => by
    rw [buildAll]
    exact onlyAdds_give _
  | e :: rest => by
    rw [buildAll]
    exact (onlyAdds_build names e).bind fun _ => (onlyAdds_buildAll names rest).map _

theorem onlyAdds_buildCases (names : Names) : ∀ cases, OnlyAdds (buildCases names cases)
  | [] => by
    rw [buildCases]
    exact onlyAdds_give _
  | (_, e) :: rest => by
    rw [buildCases]
    exact (onlyAdds_build names e).bind fun _ => (onlyAdds_buildCases names rest).map _

end

end Expr

end Descent
