import Mathlib.Algebra.BigOperators.Intervals
import Mathlib.Algebra.Order.BigOperators.Group.Finset
import Mathlib.Tactic

/-!
# Sums that are read while they grow

A number of cells is summed up by reading one after the other, without a lock, while others go on
counting in them.  The result need not be the sum at any moment.  But if the cells only grow, it is
between the sum when the reading began and the sum when it ended.

`Between` says this of the part that has been read.  It holds of nothing, and is kept by reading one
more cell and by every growth of the cells.
-/

namespace RacySum

open Finset

/-- The first `n` cells have been read and add up to `total`, from the cells as they were to the
cells as they are. -/
structure Between (begun now : ℕ → ℕ) (n total : ℕ) : Prop where
  lower : ∑ i ∈ range n, begun i ≤ total
  upper : total ≤ ∑ i ∈ range n, now i
  grown : ∀ i, begun i ≤ now i

variable {begun now later : ℕ → ℕ} {n total : ℕ}

lemma between_nothing (cells : ℕ → ℕ) : Between cells cells 0 0 where
  lower := le_rfl
  upper := le_rfl
  grown _ := le_rfl

lemma Between.read (h : Between begun now n total) : Between begun now (n + 1) (total + now n) where
  lower := by
    rw [sum_range_succ]
    exact Nat.add_le_add h.lower (h.grown n)
  upper := by
    rw [sum_range_succ]
    exact Nat.add_le_add_right h.upper (now n)
  grown := h.grown

lemma Between.grow (h : Between begun now n total) (hgrow : ∀ i, now i ≤ later i) :
    Between begun later n total where
  lower := h.lower
  upper := h.upper.trans (sum_le_sum fun i _ => hgrow i)
  grown i := (h.grown i).trans (hgrow i)

end RacySum
