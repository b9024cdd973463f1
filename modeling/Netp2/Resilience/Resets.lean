import Netp2.Resilience.CircuitBreaker
import Netp2.Resilience.RateLimiter

/-!
# What a reset forgets

`reset` of the breaker sets three of its four fields; the time at which it last opened stays.  This
time is read only while the breaker is open, and then it has been set again.  So nobody can tell a
breaker that was reset from a new one (`reset_forgets`).

`reset` of the limiter fills the bucket.  A window of calls may then get more than it is granted:
another full burst for each reset in it, but no more than that (`allowed_with_resets`).  This is
about exact tokens; where they are rounded up, a call more can slip through.
-/

namespace Netp2.Resilience

open StepRun

namespace CircuitBreaker

/-! ## The breaker -/

/-- The breakers differ at most in an opening time that is out of force. -/
def Alike (b b' : CircuitBreaker) : Prop :=
  ∃ t, b' = { b with openStartTime := t } ∧ (b.state = .kOpen → t = b.openStartTime)

lemma alike_refl (b : CircuitBreaker) : Alike b b :=
  ⟨b.openStartTime, rfl, fun _ => rfl⟩

lemma alike_reset (b : CircuitBreaker) : Alike b.reset (new b.config) :=
  ⟨0, rfl, nofun⟩

/-- **The step lemma.** -/
lemma Alike.step {b b' : CircuitBreaker} (h : Alike b b') (c : Call) :
    (b.step c).1 = (b'.step c).1 ∧ Alike (b.step c).2 (b'.step c).2 := by
  obtain ⟨t, rfl, hopen⟩ := h
  by_cases hs : b.state = .kOpen
  · rw [hopen hs]
    exact ⟨rfl, alike_refl _⟩
  -- a breaker that is not open does not look at the time, and sets it when it opens
  have hkept : ∀ b₁ : CircuitBreaker, b₁.state ≠ .kOpen → Alike b₁ { b₁ with openStartTime := t } :=
    fun b₁ hb₁ => ⟨t, rfl, fun h => absurd h hb₁⟩
  obtain ⟨op, now⟩ := c
  cases op with
  | allowRequest =>
      simp only [CircuitBreaker.step, allowRequest, hs, if_false]
      split_ifs <;> exact ⟨rfl, hkept b hs⟩
  | recordSuccess =>
      simp only [CircuitBreaker.step, recordSuccess]
      split_ifs
      · exact ⟨trivial, hkept _ hs⟩
      · exact ⟨trivial, hkept _ (by simp [transitionToClosed])⟩
      · exact ⟨trivial, hkept _ hs⟩
      · exact ⟨trivial, hkept b hs⟩
  | recordFailure =>
      simp only [CircuitBreaker.step, recordFailure, hs, if_false]
      split_ifs
      · exact ⟨trivial, alike_refl _⟩
      · exact ⟨trivial, hkept _ hs⟩
      · exact ⟨trivial, alike_refl _⟩
  | reset => exact ⟨rfl, hkept _ (by simp [CircuitBreaker.step, reset])⟩

/-- **A breaker that was reset is as good as new.**  Whatever happened before the reset, all later
calls are answered as by a new breaker with the same configuration, and they leave the same state
and the same counters. -/
theorem reset_forgets (config : CircuitBreakerConfig) (before after : List Call) :
    outputs step (reached config before).reset after = outputs step (new config) after ∧
      Alike (final step (reached config before).reset after) (reached config after) := by
  have hconfig : (reached config before).config = config := (invariant_run config before).config_eq
  have hreset := alike_reset (reached config before)
  rw [hconfig] at hreset
  exact outputs_related (fun _ _ c h => h.step c) hreset after

end CircuitBreaker

namespace RateLimiter

/-! ## The limiter -/

inductive LimiterOp where
  | checkAllow (routeKey : ByteString) (now : ℤ)
  | reset (now : ℤ)

namespace LimiterOp

def now : LimiterOp → ℤ
  | checkAllow _ now => now
  | reset now => now

def isReset : LimiterOp → Bool
  | checkAllow _ _ => false
  | reset _ => true

end LimiterOp

def operate (l : RateLimiter) : LimiterOp → Option RateLimitDecision × RateLimiter
  | .checkAllow routeKey now =>
      (some (l.step ⟨routeKey, now⟩).1, (l.step ⟨routeKey, now⟩).2)
  | .reset now => (none, l.reset now)

def spent : Option RateLimitDecision → ℚ
  | some d => cost d
  | none => 0

/-- Resets are counted in bursts. -/
def refilled (config : RateLimitConfig) (ops : List LimiterOp) : ℚ :=
  config.burstSize.toNat * ops.countP LimiterOp.isReset

/-- What an operation can do with the bucket. -/
structure Operates (l : RateLimiter) (op : LimiterOp) (d : Option RateLimitDecision)
    (l' : RateLimiter) : Prop where
  config : l'.config = l.config
  lastRefillTime : l'.lastRefillTime = op.now
  inBounds : l'.InBounds
  le_burst : spent d + l'.tokens ≤ l.config.burstSize.toNat
  le_gain : spent d + l'.tokens
    ≤ l.tokens + l.config.requestsPerSecond.toNat * toSeconds (op.now - l.lastRefillTime)
      + refilled l.config [op]

lemma operates_checkAllow {l : RateLimiter} (h : l.InBounds) (c : Call)
    (hnow : l.lastRefillTime ≤ c.now) :
    Operates l (.checkAllow c.routeKey c.now) (some (l.step c).1) (l.step c).2 := by
  have hsum : spent (some (l.step c).1) + (l.step c).2.tokens = l.level c.now := by
    rw [spent, step_tokens]
    ring
  refine ⟨l.step_config c, l.step_lastRefillTime c, inBounds_step h hnow, ?_, ?_⟩
  · rw [hsum]
    exact min_le_right _ _
  · rw [hsum, level, LimiterOp.now, refilled]
    refine (min_le_left _ _).trans ?_
    simp [LimiterOp.isReset, mul_comm]

lemma operates_reset {l : RateLimiter} (h : l.InBounds) {now : ℤ}
    (hnow : l.lastRefillTime ≤ now) : Operates l (.reset now) none (l.reset now) := by
  have hgain : 0 ≤ l.config.requestsPerSecond.toNat * toSeconds (now - l.lastRefillTime) :=
    mul_nonneg (Nat.cast_nonneg _) (toSeconds_nonneg (sub_nonneg.mpr hnow))
  have htokens : 0 ≤ l.tokens := h.1
  refine ⟨rfl, rfl, inBounds_new l.config now, ?_, ?_⟩
  · simp [spent, reset]
  · simp only [spent, reset, refilled, LimiterOp.isReset, List.countP_singleton, LimiterOp.now,
      if_true]
    push_cast
    linarith

lemma operates {l : RateLimiter} (h : l.InBounds) (op : LimiterOp)
    (hnow : l.lastRefillTime ≤ op.now) : Operates l op (l.operate op).1 (l.operate op).2 := by
  cases op with
  | checkAllow routeKey now => exact operates_checkAllow h ⟨routeKey, now⟩ hnow
  | reset now => exact operates_reset h hnow

/-- The time of the last operation. -/
def lastTime (start : ℤ) (ops : List LimiterOp) : ℤ :=
  (ops.map LimiterOp.now).getLastD start

def admitted (l : RateLimiter) (ops : List LimiterOp) : ℕ :=
  (outputs operate l ops).count (some .kAllow)

lemma toSeconds_add (x y : ℤ) : toSeconds (x + y) = toSeconds x + toSeconds y := by
  simp [toSeconds, add_div]

lemma refilled_cons (config : RateLimitConfig) (op : LimiterOp) (ops : List LimiterOp) :
    refilled config (op :: ops) = refilled config [op] + refilled config ops := by
  have hcount : (op :: ops).countP LimiterOp.isReset
      = [op].countP LimiterOp.isReset + ops.countP LimiterOp.isReset := by
    rw [← List.singleton_append, List.countP_append]
  rw [refilled, hcount, refilled, refilled]
  push_cast
  ring

lemma admitted_cons (l : RateLimiter) (op : LimiterOp) (ops : List LimiterOp) :
    (admitted l (op :: ops) : ℚ) = spent (l.operate op).1 + admitted (l.operate op).2 ops := by
  rw [admitted, outputs, List.count_cons, ← admitted]
  rcases (l.operate op).1 with _ | _ | _ <;> simp [spent, cost, add_comm]

lemma lastTime_cons (start : ℤ) (op : LimiterOp) (ops : List LimiterOp) :
    lastTime start (op :: ops) = lastTime op.now ops := by
  rw [lastTime, List.map_cons, List.getLastD_cons, lastTime]

/-- A bucket after a run of operations. -/
structure Follows (l : RateLimiter) (ops : List LimiterOp) (l' : RateLimiter) : Prop where
  config : l'.config = l.config
  lastRefillTime : l'.lastRefillTime = lastTime l.lastRefillTime ops
  inBounds : l'.InBounds

/-- **The potential argument.**  What is admitted is paid for by the tokens that there were, the
time that goes by, and the resets; and a bucket is never in debt. -/
lemma admitted_le {l : RateLimiter} (h : l.InBounds) {ops : List LimiterOp}
    (hclock : (l.lastRefillTime :: ops.map LimiterOp.now).Pairwise (· ≤ ·)) :
    Follows l ops (final operate l ops) ∧
      admitted l ops + (final operate l ops).tokens
        ≤ l.tokens + l.config.requestsPerSecond.toNat
            * toSeconds (lastTime l.lastRefillTime ops - l.lastRefillTime)
          + refilled l.config ops := by
  induction ops generalizing l with
  | nil => exact ⟨⟨rfl, rfl, h⟩, by simp [admitted, outputs, final, lastTime, toSeconds, refilled]⟩
  | cons op ops ih =>
      rw [List.map_cons, List.pairwise_cons] at hclock
      have hop := operates h op (hclock.1 op.now List.mem_cons_self)
      have hrest := hclock.2
      rw [← hop.lastRefillTime] at hrest
      obtain ⟨hfollows, hpaid⟩ := ih hop.inBounds hrest
      have hlast := hfollows.lastRefillTime
      rw [hop.lastRefillTime, ← lastTime_cons l.lastRefillTime] at hlast hpaid
      rw [hop.config] at hpaid
      refine ⟨⟨hfollows.config.trans hop.config, hlast, hfollows.inBounds⟩, ?_⟩
      have hgain := hop.le_gain
      have htime : toSeconds (lastTime l.lastRefillTime (op :: ops) - l.lastRefillTime)
          = toSeconds (lastTime l.lastRefillTime (op :: ops) - op.now)
            + toSeconds (op.now - l.lastRefillTime) := by
        rw [← toSeconds_add]
        congr 1
        ring
      rw [admitted_cons, refilled_cons, htime, final, mul_add]
      linarith

/-- **A reset is worth one burst.**  With exact tokens, take any window of a run of calls and
resets, with a clock that does not go back.  What is admitted in it is within what the configuration
grants for its time and a full burst for each reset after its first operation. -/
theorem allowed_with_resets (config : RateLimitConfig) (now₀ : ℤ) (before : List LimiterOp)
    (first : LimiterOp) (window : List LimiterOp)
    (hclock : (now₀ :: (before ++ first :: window).map LimiterOp.now).Pairwise (· ≤ ·)) :
    (admitted (final operate (new config now₀) before) (first :: window) : ℚ)
      ≤ grant config (lastTime first.now window - first.now) + refilled config window := by
  rw [List.map_append, ← List.cons_append, List.pairwise_append, List.map_cons] at hclock
  obtain ⟨hbefore, hwindow, hbetween⟩ := hclock
  obtain ⟨hfollows, -⟩ := admitted_le (inBounds_new config now₀) hbefore
  have hconfig : (final operate (new config now₀) before).config = config := hfollows.config
  have hnow : (final operate (new config now₀) before).lastRefillTime ≤ first.now := by
    rw [hfollows.lastRefillTime]
    exact hbetween _ List.getLastD_mem_cons first.now List.mem_cons_self
  have hop := operates hfollows.inBounds first hnow
  have hlast := hop.lastRefillTime
  rw [← hlast] at hwindow
  obtain ⟨hend, hpaid⟩ := admitted_le hop.inBounds hwindow
  have hdebt := hend.inBounds.1
  have hburst := hop.le_burst
  rw [hop.config, hlast, hconfig] at hpaid
  rw [hconfig] at hburst
  rw [admitted_cons, grant]
  linarith

/-- One token, a reset, and another one, all at once. -/
theorem allowed_with_resets_once :
    admitted (final operate (new ⟨1, 1⟩ 0) [])
        [.checkAllow [] 5, .reset 5, .checkAllow [] 5, .checkAllow [] 5] = 2 ∧
      (admitted (final operate (new ⟨1, 1⟩ 0) [])
          [.checkAllow [] 5, .reset 5, .checkAllow [] 5, .checkAllow [] 5] : ℚ)
        ≤ grant ⟨1, 1⟩ (lastTime 5 [.reset 5, .checkAllow [] 5, .checkAllow [] 5] - 5)
          + refilled ⟨1, 1⟩ [.reset 5, .checkAllow [] 5, .checkAllow [] 5] :=
  ⟨by decide +kernel, allowed_with_resets ⟨1, 1⟩ 0 [] (.checkAllow [] 5)
    [.reset 5, .checkAllow [] 5, .checkAllow [] 5] (by simp [LimiterOp.now])⟩

end RateLimiter

end Netp2.Resilience
