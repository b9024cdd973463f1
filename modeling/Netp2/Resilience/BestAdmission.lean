import Netp2.Library.Exchange
import Netp2.Resilience.RateLimiter

/-!
# No policy within the limits admits more

The configuration grants every window of time a burst and the rate.  There are many ways to admit
calls and keep within all grants, also such as know the calls that are still to come and hold back
for them.

The limiter knows nothing of the future and refuses a call only if it must.  `decisions_best` says
that this is the best one can do, and not only in the end: up to every call it has admitted as many
as anything that keeps within the grants.

Tokens are exact rationals in this file.  Rounded ones may fall short of a whole token that the
grants allow, as in the example of `DoubleTokens.lean`.
-/

namespace Netp2.Resilience

open StepRun

namespace RateLimiter

/-- No window of the calls exceeds its grant under these decisions. -/
def KeepsWithin (config : RateLimitConfig) (calls : List Call) (ds : List RateLimitDecision) :
    Prop :=
  ∀ j < calls.length, ∀ i ≤ j,
    (allowed ds i (j + 1) : ℚ) ≤ grant config (clock calls j - clock calls i)

/-! ## Counting decisions -/

lemma allowed_split (ds : List RateLimitDecision) {i k : ℕ} (hik : i ≤ k) :
    allowed ds 0 k = allowed ds 0 i + allowed ds i k := by
  have hparts := List.take_append_drop i (ds.take k)
  rw [List.take_take, min_eq_left hik] at hparts
  simp only [allowed, List.drop_zero]
  rw [← List.count_append, hparts]

lemma allowed_le_succ (ds : List RateLimitDecision) (k : ℕ) :
    allowed ds 0 k ≤ allowed ds 0 (k + 1) := by
  rw [allowed_split ds (Nat.le_add_right k 1)]
  exact Nat.le_add_right _ _

lemma allowed_succ_le (ds : List RateLimitDecision) (k : ℕ) :
    allowed ds 0 (k + 1) ≤ allowed ds 0 k + 1 := by
  have hone := allowed_le ds k (k + 1)
  rw [allowed_split ds (Nat.le_add_right k 1)]
  omega

/-! ## The exchange -/

section Run

variable {config : RateLimitConfig} {now₀ : ℤ} {calls : List Call} {ds : List RateLimitDecision}

/-- Where the limiter refuses a call that the others admit, they are behind since the beginning of
the window that is used up. -/
lemma behind_of_reject (h : Monotone now₀ calls) (hds : KeepsWithin config calls ds) {k : ℕ}
    (hk : k < calls.length) (hreject : (decisions config now₀ calls)[k]? = some .kReject)
    (hadmits : allowed ds 0 (k + 1) = allowed ds 0 k + 1) :
    ∃ i ≤ k, Exchange.Behind (allowed ds 0) (allowed (decisions config now₀ calls) 0) i k := by
  obtain ⟨i, hik, hused⟩ := (reject_iff_window h hk).mp hreject
  refine ⟨i, hik, ?_⟩
  have hwithin := hds k hk i hik
  have hlt : allowed ds i (k + 1) < allowed (decisions config now₀ calls) i k + 1 := by
    exact_mod_cast hwithin.trans_lt hused
  have hself := allowed_split (decisions config now₀ calls) hik
  have hik' : i ≤ k + 1 := Nat.le_succ_of_le hik
  have hother := allowed_split ds hik'
  rw [Exchange.Behind]
  omega

lemma allowed_le_decisions (h : Monotone now₀ calls) (hds : KeepsWithin config calls ds) :
    ∀ k ≤ calls.length, allowed ds 0 k ≤ allowed (decisions config now₀ calls) 0 k := by
  refine Exchange.le_of_behind (by simp [allowed]) ?_
  intro k hk
  have hd := decisions_eq config now₀ hk
  have hgain := allowed_succ_le ds k
  have hmono := allowed_le_succ ds k
  cases hcase : ((stateAt config now₀ calls k).step calls[k]).1 with
  | kAllow =>
      rw [hcase] at hd
      have hcount : allowed (decisions config now₀ calls) 0 (k + 1)
          = allowed (decisions config now₀ calls) 0 k + 1 := by
        have hsucc := allowed_succ (Nat.zero_le k) hd
        rw [cost] at hsucc
        exact_mod_cast hsucc
      left
      omega
  | kReject =>
      rw [hcase] at hd
      by_cases hadmits : allowed ds 0 (k + 1) = allowed ds 0 k + 1
      · exact .inr ⟨hgain, allowed_le_succ _ k, behind_of_reject h hds hk hd hadmits⟩
      · have hcount := allowed_le_succ (decisions config now₀ calls) k
        left
        omega

lemma keepsWithin_decisions (config : RateLimitConfig) (h : Monotone now₀ calls) :
    KeepsWithin config calls (decisions config now₀ calls) :=
  fun _ hj _ hij => allowed_le_grant h hij hj

end Run

/-- **The limiter is the best policy within the grants.**  With exact tokens, and among all
decisions on the calls of a run that keep every window within its grant, also those made with
knowledge of later calls, the limiter admits the most; and this holds up to each call of the run. -/
theorem decisions_best (config : RateLimitConfig) (now₀ : ℤ) (calls : List Call)
    (h : Monotone now₀ calls) : ∀ k ≤ calls.length,
    IsGreatest {n | ∃ ds, KeepsWithin config calls ds ∧ allowed ds 0 k = n}
      (allowed (decisions config now₀ calls) 0 k) := by
  intro k hk
  refine ⟨⟨_, keepsWithin_decisions config h, rfl⟩, ?_⟩
  rintro n ⟨ds, hds, rfl⟩
  exact allowed_le_decisions h hds k hk

/-- To refuse the first of two calls does not help. -/
theorem decisions_best_twoCalls :
    IsGreatest {n | ∃ ds, KeepsWithin ⟨1, 1⟩ [⟨[], 5⟩, ⟨[], 5⟩] ds ∧ allowed ds 0 2 = n} 1 := by
  have hmono : Monotone 0 [⟨[], 5⟩, ⟨[], 5⟩] := by simp [Monotone]
  have hone : allowed (decisions ⟨1, 1⟩ 0 [⟨[], 5⟩, ⟨[], 5⟩]) 0 2 = 1 := by decide +kernel
  rw [← hone]
  exact decisions_best ⟨1, 1⟩ 0 [⟨[], 5⟩, ⟨[], 5⟩] hmono 2 le_rfl

end RateLimiter

end Netp2.Resilience
