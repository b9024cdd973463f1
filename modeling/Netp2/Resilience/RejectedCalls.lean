import Netp2.Resilience.RouteIsolation

/-!
# What a rejected call costs

A rejected call takes no token, but it is not without effect: it refills the bucket, caps it and
moves `last_refill_time_`.  None of this is noticed by the calls after it, since a refill over a
time is one refill after the other over its parts (`level_split`).

`SameLevel` relates a limiter to one that has made fewer of the calls and agrees with it on how
much the bucket holds.  A call that both make keeps the relation, and so does a rejected call that
only the first makes; the rule for calls that leave no trace does the rest.
-/

namespace Netp2.Resilience

open StepRun

namespace RateLimiter

/-- The two limiters hold the same at the time of the first, which was called last. -/
structure SameLevel (l p : RateLimiter) : Prop where
  config : p.config = l.config
  lastRefillTime : p.lastRefillTime ≤ l.lastRefillTime
  tokens : l.tokens = p.level l.lastRefillTime

section Thin

variable {config : RateLimitConfig} {now₀ : ℤ} {calls : List Call} {l p : RateLimiter} {c : Call}

/-- They hold the same at all later times. -/
lemma SameLevel.level_eq (h : SameLevel l p) {now : ℤ} (hnow : l.lastRefillTime ≤ now) :
    l.level now = p.level now := by
  rw [level_split p hnow, ← h.tokens, h.config]
  rfl

lemma SameLevel.decision_eq (h : SameLevel l p) (hnow : l.lastRefillTime ≤ c.now) :
    (l.step c).1 = (p.step c).1 := by
  simp only [step, checkAllow, h.level_eq hnow]
  split_ifs <;> rfl

/-- A call that both make leaves the same tokens. -/
lemma SameLevel.tokens_eq (h : SameLevel l p) (hnow : l.lastRefillTime ≤ c.now) :
    (l.step c).2.tokens = (p.step c).2.tokens := by
  rw [step_tokens, step_tokens, h.level_eq hnow, h.decision_eq hnow]

lemma SameLevel.both (h : SameLevel l p) (hnow : l.lastRefillTime ≤ c.now) :
    SameLevel (l.step c).2 (p.step c).2 where
  config := by rw [step_config, step_config, h.config]
  lastRefillTime := by rw [step_lastRefillTime, step_lastRefillTime]
  tokens := by
    have hlast : (l.step c).2.lastRefillTime = (p.step c).2.lastRefillTime := by
      rw [step_lastRefillTime, step_lastRefillTime]
    have hlevel : p.level c.now ≤ p.config.burstSize.toNat := min_le_right _ _
    have hcost := cost_nonneg (p.step c).1
    rw [hlast, level_self, h.tokens_eq hnow]
    rw [step_tokens, step_config]
    linarith

/-- A rejected call takes nothing, so it may be left out. -/
lemma SameLevel.reject (h : SameLevel l p) (hnow : l.lastRefillTime ≤ c.now)
    (hreject : (l.step c).1 = .kReject) : SameLevel (l.step c).2 p where
  config := by rw [step_config, h.config]
  lastRefillTime := by
    rw [step_lastRefillTime]
    exact h.lastRefillTime.trans hnow
  tokens := by
    rw [step_lastRefillTime, step_tokens, hreject, h.level_eq hnow, cost, sub_zero]

lemma Monotone.take (h : Monotone now₀ calls) (k : ℕ) : Monotone now₀ (calls.take k) :=
  List.Pairwise.sublist (((List.take_sublist k calls).map Call.now).cons_cons now₀) h

lemma Monotone.lastRefillTime_le_getElem (h : Monotone now₀ calls) {k : ℕ}
    (hk : k < calls.length) :
    (final step (new config now₀) (calls.take k)).lastRefillTime ≤ calls[k].now := by
  have htake := h.take (k + 1)
  rw [List.take_succ_eq_append_getElem hk] at htake
  exact htake.lastRefillTime_le step_lastRefillTime

/-- **The simulation.**  Without some of the rejected calls, the others are answered in the same
way, and the limiter holds the same in the end. -/
theorem sameLevel_thin (config : RateLimitConfig) (h : Monotone now₀ calls) {keep : ℕ → Bool}
    (hreject : ∀ k < calls.length, keep k = false →
      (decisions config now₀ calls)[k]? = some .kReject) :
    decisions config now₀ (thin keep calls) = thin keep (decisions config now₀ calls) ∧
      SameLevel (final step (new config now₀) calls)
        (final step (new config now₀) (thin keep calls)) := by
  have hboth : ∀ (l p : RateLimiter) (c : Call), SameLevel l p → l.lastRefillTime ≤ c.now →
      (l.step c).1 = (p.step c).1 ∧ SameLevel (l.step c).2 (p.step c).2 := by
    intro l p c hsame hnow
    exact ⟨hsame.decision_eq hnow, hsame.both hnow⟩
  have hskip : ∀ (l p : RateLimiter) (c : Call), SameLevel l p → l.lastRefillTime ≤ c.now →
      (l.step c).1 = .kReject → SameLevel (l.step c).2 p := by
    intro l p c hsame hnow hrejected
    exact hsame.reject hnow hrejected
  have hstart : SameLevel (new config now₀) (new config now₀) :=
    ⟨rfl, le_rfl, (level_self le_rfl).symm⟩
  refine outputs_thin hboth hskip keep calls _ _ hstart ?_
  intro k hk
  refine ⟨h.lastRefillTime_le_getElem hk, ?_⟩
  intro hkeep
  have hdecision := hreject k hk hkeep
  rwa [decisions_eq config now₀ hk, Option.some.injEq] at hdecision

end Thin

/-- **Rejected calls cost nothing.**  Along a run with a clock that does not go back, leaving out
any of the rejected calls changes the answer to none of the others; and if the last call is not left
out, it leaves the same tokens. -/
theorem rejected_calls_free (config : RateLimitConfig) (now₀ : ℤ) (calls : List Call)
    (keep : ℕ → Bool) (h : Monotone now₀ calls)
    (hreject : ∀ k < calls.length, keep k = false →
      (decisions config now₀ calls)[k]? = some .kReject) :
    decisions config now₀ (thin keep calls) = thin keep (decisions config now₀ calls) ∧
      (keep (calls.length - 1) = true →
        (final step (new config now₀) (thin keep calls)).tokens
          = (final step (new config now₀) calls).tokens) := by
  refine ⟨(sameLevel_thin config h hreject).1, ?_⟩
  intro hlast
  cases calls using List.reverseRecOn with
  | nil => rfl
  | append_singleton calls c =>
      have hkeep : keep calls.length = true := by simpa using hlast
      have hbefore : ∀ k < calls.length, keep k = false →
          (decisions config now₀ calls)[k]? = some .kReject := by
        intro k hk hdropped
        have hdecision := hreject k (by simp; omega) hdropped
        rwa [decisions_concat, List.getElem?_append_left (by rwa [decisions_length])] at hdecision
      have hsame := (sameLevel_thin config h.of_concat hbefore).2
      rw [thin_concat, hkeep, if_pos rfl, final_concat, final_concat]
      exact (hsame.tokens_eq (h.lastRefillTime_le step_lastRefillTime)).symm

/-- Of two calls at once the second is rejected; a second later there is a token again, with or
without it. -/
theorem rejected_calls_free_twoCalls :
    decisions ⟨1, 1⟩ 0 [⟨[], 5⟩, ⟨[], 1000000005⟩] = [.kAllow, .kAllow] := by
  have hmono : Monotone 0 [⟨[], 5⟩, ⟨[], 5⟩, ⟨[], 1000000005⟩] := by simp [Monotone]
  have hdecisions : decisions ⟨1, 1⟩ 0 [⟨[], 5⟩, ⟨[], 5⟩, ⟨[], 1000000005⟩]
      = [.kAllow, .kReject, .kAllow] := by
    decide +kernel
  have hfree := (rejected_calls_free ⟨1, 1⟩ 0 [⟨[], 5⟩, ⟨[], 5⟩, ⟨[], 1000000005⟩] (fun k => k ≠ 1)
    hmono ?_).1
  · rw [hdecisions] at hfree
    exact hfree
  · intro k hk hdropped
    have hone : k = 1 := by simpa using hdropped
    rw [hone, hdecisions]
    rfl

end RateLimiter

end Netp2.Resilience
