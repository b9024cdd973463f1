import Mathlib.Algebra.Order.Group.Defs
import Mathlib.Algebra.Order.Group.MinMax
import Mathlib.Order.Bounds.Basic
import Mathlib.Tactic

/-!
# A running balance with a cap

A balance starts at `cap` and changes by `d k` at step `k`, but never rises above `cap`: what would
exceed it is lost.  A token bucket is the standard example, with refills and withdrawals in `d`.

Because of the cap the balance has no simple sum form.  It has a minimum form: the balance is the
smallest of the *window values*, where the window that starts at `i` takes the full `cap` at `i` and
adds every change since.  `isLeast_windows` is this closed form, over any linearly ordered group.

What is gained may be credited in parts (`min_add_min`).
-/

namespace CappedBalance

variable {K : Type} [AddCommGroup K] [LinearOrder K] [IsOrderedAddMonoid K]

/-- `b` is the balance with changes `d` under the cap, for the first `n` steps. -/
structure IsBalance (cap : K) (d b : ℕ → K) (n : ℕ) : Prop where
  zero : 0 < n → b 0 = cap
  succ : ∀ k, k + 1 < n → b (k + 1) = min (b k + d k) cap

/-- `w i k` is the value at `k` of the window that starts at `i`, for the first `n` steps. -/
structure IsWindow (cap : K) (d : ℕ → K) (w : ℕ → ℕ → K) (n : ℕ) : Prop where
  self : ∀ i, w i i = cap
  succ : ∀ i k, i ≤ k → k + 1 < n → w i (k + 1) = w i k + d k

variable {cap : K} {d b : ℕ → K} {w : ℕ → ℕ → K} {n : ℕ}

/-- A gain may be credited in two parts: the cap in between takes nothing that the cap at the end
leaves. -/
lemma min_add_min (x y : K) {z cap : K} (hz : 0 ≤ z) :
    min (min (x + y) cap + z) cap = min (x + (y + z)) cap := by
  rw [min_add, min_assoc, min_eq_right (le_add_of_nonneg_right hz), add_assoc]

/-- **The closed form.**  The balance is the smallest value of the windows up to now. -/
theorem isLeast_windows (hb : IsBalance cap d b n) (hw : IsWindow cap d w n) :
    ∀ k, k < n → IsLeast {x | ∃ i ≤ k, w i k = x} (b k) := by
  intro k
  induction k with
  | zero =>
      intro hn
      rw [hb.zero hn]
      refine ⟨⟨0, le_rfl, hw.self 0⟩, ?_⟩
      rintro x ⟨i, hi, rfl⟩
      rw [Nat.le_zero.mp hi, hw.self 0]
  | succ k ih =>
      intro hn
      obtain ⟨⟨i₀, hi₀, heq⟩, hleast⟩ := ih (by omega)
      rw [hb.succ k hn]
      constructor
      · -- the minimum is attained by the old best window or by the one that starts now
        rcases min_choice (b k + d k) cap with h | h
        · exact ⟨i₀, by omega, by rw [h, hw.succ i₀ k hi₀ hn, heq]⟩
        · exact ⟨k + 1, le_rfl, by rw [h, hw.self]⟩
      · rintro x ⟨i, hi, rfl⟩
        rcases Nat.lt_or_ge k i with hki | hik
        · rw [show i = k + 1 by omega, hw.self]
          exact min_le_right _ _
        · rw [hw.succ i k hik hn]
          refine (min_le_left _ _).trans ?_
          exact add_le_add_left (hleast ⟨i, hik, rfl⟩) (d k)

/-- The balance is below a bound exactly when some window is. -/
lemma lt_iff_exists_window (hb : IsBalance cap d b n) (hw : IsWindow cap d w n) {k : ℕ}
    (hk : k < n) (x : K) : b k < x ↔ ∃ i ≤ k, w i k < x := by
  obtain ⟨⟨i₀, hi₀, heq⟩, hleast⟩ := isLeast_windows hb hw k hk
  constructor
  · intro h
    exact ⟨i₀, hi₀, heq.trans_lt h⟩
  · rintro ⟨i, hi, h⟩
    exact (hleast ⟨i, hi, rfl⟩).trans_lt h

end CappedBalance
