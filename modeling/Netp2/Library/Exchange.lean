import Mathlib.Tactic

/-!
# Who takes whatever it may take the most

Two ways of choosing among the same items, one item after the other, and `S` and `G` count what they
have chosen.  Suppose that `G` leaves out an item only if some stretch up to it is exhausted, so
that whoever has less in that stretch must have had more before it.  Then `S` is never ahead of `G`:
the first item that puts it ahead could be exchanged for one that it has left out before.
-/

namespace Exchange

/-- From `i` to `k`, less has been chosen by `S` than by `G`. -/
def Behind (S G : ℕ → ℕ) (i k : ℕ) : Prop :=
  S k + G i < G k + S i

variable {S G : ℕ → ℕ} {n : ℕ}

/-- **The exchange argument.**  If `S` gains on `G` only at the end of a stretch in which it is
behind, it never overtakes. -/
theorem le_of_behind (hzero : S 0 ≤ G 0)
    (hstep : ∀ k < n, S (k + 1) + G k ≤ S k + G (k + 1) ∨
      (S (k + 1) ≤ S k + 1 ∧ G k ≤ G (k + 1) ∧ ∃ i ≤ k, Behind S G i k)) :
    ∀ k ≤ n, S k ≤ G k := by
  intro k
  induction k using Nat.strong_induction_on with
  | _ k ih =>
      intro hk
      cases k with
      | zero => exact hzero
      | succ k =>
          have hprev : S k ≤ G k := ih k (Nat.lt_succ_self k) (Nat.le_of_succ_le hk)
          rcases hstep k hk with hkept | ⟨hone, hmono, i, hi, hbehind⟩
          · omega
          · -- before the stretch `S` was not ahead either
            have hstart : S i ≤ G i := ih i (Nat.lt_succ_of_le hi) (by omega)
            rw [Behind] at hbehind
            omega

end Exchange
