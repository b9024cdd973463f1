import Mathlib.Computability.StateTransition
import Mathlib.Tactic

/-!
# Loops

A loop is a function `round : σ → Option σ` on the values of its variables: `none` when the
condition does not hold, and otherwise the values after the body.  `StateTransition.eval round s` is
the state that the loop ends in when it starts from `s`; without such a state it does not end.

`ends_of_variant` is the rule of total correctness: an invariant, and a variant that every round
makes smaller.
-/

namespace Loop

open StateTransition

variable {σ : Type} {round : σ → Option σ} {s s' : σ}

lemma eval_of_none (h : round s = none) : s ∈ eval round s :=
  mem_eval.mpr ⟨Relation.ReflTransGen.refl, h⟩

lemma eval_of_some (h : round s = some s') : eval round s = eval round s' :=
  reaches_eval (Relation.ReflTransGen.single h)

/-- **The rule of total correctness.**  The loop ends, in a state with the invariant. -/
theorem ends_of_variant {inv : σ → Prop} (variant : σ → ℕ)
    (hround : ∀ s s', inv s → round s = some s' → inv s' ∧ variant s' < variant s) (hs : inv s) :
    ∃ last ∈ eval round s, inv last ∧ round last = none := by
  induction hn : variant s using Nat.strong_induction_on generalizing s with
  | h n ih =>
      cases hr : round s with
      | none => exact ⟨s, eval_of_none hr, hs, hr⟩
      | some s' =>
          obtain ⟨hs', hlt⟩ := hround s s' hs hr
          rw [hn] at hlt
          rw [eval_of_some hr]
          exact ih (variant s') hlt hs' rfl

end Loop
