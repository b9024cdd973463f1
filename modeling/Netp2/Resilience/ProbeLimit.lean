import Netp2.Resilience.CircuitBreaker

/-!
# How many probes a half-open breaker admits

Half-open is meant to let a small flow of probes through.  `allow_request` counts nothing in that
state, so whoever asks before the first result is admitted: there is a bound on the probes of a
period only where no period can begin.  That is decided by the clock alone, since
`reached_failures` trips a breaker of any configuration at any time.
-/

namespace Netp2.Resilience

open StepRun

namespace CircuitBreaker

/-- At most `N` requests are admitted after an entry to `kHalfOpen` while nobody reports a result
or resets the breaker, in all runs whose clock does not go back and only reads times in `T`. -/
def BoundsProbes (config : CircuitBreakerConfig) (T : Set ℤ) (N : ℕ) : Prop :=
  ∀ (before : List Call) (entry : Call) (burst : List Call),
    ((before ++ entry :: burst).map Call.now).Pairwise (· ≤ ·) →
    (∀ c ∈ before ++ entry :: burst, c.now ∈ T) →
    enters .kHalfOpen (event step (reached config before) entry) = true →
    (∀ c ∈ burst, c.op = .allowRequest) →
    (outputs step (reached config (before ++ [entry])) burst).count (some true) ≤ N

/-! ## Any breaker can be tripped -/

section

variable {config : CircuitBreakerConfig}

lemma reached_concat (calls : List Call) (c : Call) :
    reached config (calls ++ [c]) = ((reached config calls).step c).2 :=
  final_concat _ _ _

lemma reached_config (config : CircuitBreakerConfig) (calls : List Call) :
    (reached config calls).config = config :=
  (invariant_run config calls).config_eq

/-- Failures in a row are counted until the last one that the limit allows. -/
lemma reached_failures (config : CircuitBreakerConfig) (t : ℤ) : ∀ k,
    k < limit config.failureThreshold →
    (reached config (List.replicate k ⟨.recordFailure, t⟩)).state = .kClosed ∧
      (reached config (List.replicate k ⟨.recordFailure, t⟩)).consecutiveFailures.toNat = k
  | 0, _ => ⟨rfl, rfl⟩
  | k + 1, hk => by
      obtain ⟨hs, hn⟩ := reached_failures config t k (by omega)
      have hconfig := reached_config config (List.replicate k ⟨.recordFailure, t⟩)
      rw [List.replicate_succ', reached_concat]
      generalize reached config (List.replicate k ⟨.recordFailure, t⟩) = b at hs hn hconfig ⊢
      have hlimit : b.consecutiveFailures.toNat < limit b.config.failureThreshold := by
        rw [hn, hconfig]
        omega
      have hlt : b.consecutiveFailures + 1 < b.config.failureThreshold := by
        rw [succ_lt_iff hlimit, hn, hconfig]
        exact hk
      have hstep : (b.step ⟨.recordFailure, t⟩).2
          = { b with consecutiveFailures := b.consecutiveFailures + 1 } := by
        simp [step, recordFailure, hs, hlt]
      rw [hstep]
      exact ⟨hs, by rw [toNat_succ hlimit, hn]⟩

/-- So many failures at one time open the breaker. -/
def outage (config : CircuitBreakerConfig) (t : ℤ) : List Call :=
  List.replicate (limit config.failureThreshold) ⟨.recordFailure, t⟩

lemma reached_outage (config : CircuitBreakerConfig) (t : ℤ) :
    (reached config (outage config t)).state = .kOpen ∧
      (reached config (outage config t)).openStartTime = t := by
  obtain ⟨k, hk⟩ := Nat.exists_eq_succ_of_ne_zero (limit_pos config.failureThreshold).ne'
  obtain ⟨hs, hn⟩ := reached_failures config t k (by omega)
  have hconfig := reached_config config (List.replicate k ⟨.recordFailure, t⟩)
  rw [outage, hk, Nat.succ_eq_add_one, List.replicate_succ', reached_concat]
  generalize reached config (List.replicate k ⟨.recordFailure, t⟩) = b at hs hn hconfig ⊢
  have hlimit : b.consecutiveFailures.toNat < limit b.config.failureThreshold := by
    rw [hn, hconfig]
    omega
  have hle : b.config.failureThreshold ≤ b.consecutiveFailures + 1 := by
    rw [le_succ_iff hlimit, hn, hconfig]
    exact hk.symm
  have hstep : (b.step ⟨.recordFailure, t⟩).2
      = { b with consecutiveFailures := b.consecutiveFailures + 1 }.transitionToOpen t := by
    simp [step, recordFailure, hs, hle]
  rw [hstep]
  exact ⟨rfl, rfl⟩

/-! ## A half-open breaker admits everyone -/

lemma outputs_halfOpen {b : CircuitBreaker} (hs : b.state = .kHalfOpen) (t : ℤ) : ∀ n,
    outputs step b (List.replicate n ⟨.allowRequest, t⟩) = List.replicate n (some true)
  | 0 => rfl
  | n + 1 => by
      have hout : b.step ⟨.allowRequest, t⟩ = (some true, b) := by
        simp [step, allowRequest, hs]
      rw [List.replicate_succ, outputs, hout, outputs_halfOpen hs t n, List.replicate_succ]

/-- **No bound holds where a period can begin.**  Trip the breaker at `t₁`, ask at `t₂` and keep
asking. -/
lemma not_boundsProbes {T : Set ℤ} {t₁ t₂ : ℤ} (h₁ : t₁ ∈ T) (h₂ : t₂ ∈ T) (hle : t₁ ≤ t₂)
    (htime : config.openTimeout ≤ wholeSeconds (t₂ - t₁)) (N : ℕ) : ¬ BoundsProbes config T N := by
  intro hbound
  obtain ⟨hs, hstart⟩ := reached_outage config t₁
  have hconfig := reached_config config (outage config t₁)
  have hstep : ((reached config (outage config t₁)).step ⟨.allowRequest, t₂⟩).2
      = (reached config (outage config t₁)).transitionToHalfOpen := by
    simp [step, allowRequest, hs, hstart, hconfig, htime]
  have hburst := hbound (outage config t₁) ⟨.allowRequest, t₂⟩
    (List.replicate (N + 1) ⟨.allowRequest, t₂⟩) ?_ ?_ ?_ ?_
  · rw [reached_concat, hstep, outputs_halfOpen rfl, List.count_replicate_self] at hburst
    omega
  · simp [outage, List.pairwise_append, List.pairwise_replicate, hle]
  · simp only [outage, List.mem_append, List.mem_cons, List.mem_replicate]
    rintro c (⟨-, rfl⟩ | rfl | ⟨-, rfl⟩)
    · exact h₁
    · exact h₂
    · exact h₂
  · simp [enters, event, hs, hstep, transitionToHalfOpen]
  · intro c hc
    rw [List.eq_of_mem_replicate hc]

/-! ## Where no period begins -/

/-- No two readings in `T` lie as far apart as the timeout. -/
def TimeoutOutOfReach (config : CircuitBreakerConfig) (T : Set ℤ) : Prop :=
  ∀ t₁ ∈ T, ∀ t₂ ∈ T, t₁ ≤ t₂ → wholeSeconds (t₂ - t₁) < config.openTimeout

/-- The breaker is not half-open, and if it is open then since one of these calls. -/
structure NeverProbed (calls : List Call) (b : CircuitBreaker) : Prop where
  not_halfOpen : b.state ≠ .kHalfOpen
  opened : b.state = .kOpen → b.openStartTime ∈ calls.map Call.now

lemma neverProbed_step {calls : List Call} {b : CircuitBreaker} (hi : NeverProbed calls b)
    (c : Call) (hearly : b.state = .kOpen →
      wholeSeconds (c.now - b.openStartTime) < b.config.openTimeout) :
    NeverProbed (calls ++ [c]) (b.step c).2 := by
  obtain ⟨hnot, hopened⟩ := hi
  obtain ⟨op, t⟩ := c
  have ht := transition_step b ⟨op, t⟩
  generalize (b.step ⟨op, t⟩).1 = o, (b.step ⟨op, t⟩).2 = b' at ht ⊢
  have hkeep : b.state = .kOpen → b.openStartTime ∈ List.map Call.now (calls ++ [⟨op, t⟩]) := by
    intro hs
    rw [List.map_append]
    exact List.mem_append_left _ (hopened hs)
  cases ht with
  | probe hs htime => exact absurd (hearly hs) (not_lt.mpr htime)
  | admitHalfOpen hs => exact absurd hs hnot
  | successHalfOpen hs => exact absurd hs hnot
  | close hs => exact absurd hs hnot
  | reopen hs => exact absurd hs hnot
  | trip hs => exact ⟨by simp [transitionToOpen], fun _ => by simp [transitionToOpen]⟩
  | reset => exact ⟨by simp [CircuitBreaker.reset], fun hs => by simp [CircuitBreaker.reset] at hs⟩
  | _ => exact ⟨hnot, hkeep⟩

lemma neverProbed_run {T : Set ℤ} (hT : TimeoutOutOfReach config T) (calls : List Call)
    (hclock : (calls.map Call.now).Pairwise (· ≤ ·)) (hmem : ∀ c ∈ calls, c.now ∈ T) :
    NeverProbed calls (reached config calls) := by
  induction calls using List.reverseRecOn with
  | nil => exact ⟨by simp [reached, final, new], by simp [reached, final, new]⟩
  | append_singleton calls c ih =>
      rw [List.map_append, List.pairwise_append] at hclock
      have hi := ih hclock.1 fun x hx => hmem x (List.mem_append_left _ hx)
      rw [reached_concat]
      refine neverProbed_step hi c ?_
      intro hs
      have hstart := hi.opened hs
      have hle := hclock.2.2 _ hstart c.now (by simp)
      obtain ⟨x, hx, hnow⟩ := List.mem_map.mp hstart
      rw [reached_config, ← hnow]
      exact hT _ (hmem x (List.mem_append_left _ hx)) _ (hmem c (by simp)) (hnow ▸ hle)

lemma boundsProbes_zero {T : Set ℤ} (hT : TimeoutOutOfReach config T) :
    BoundsProbes config T 0 := by
  intro before entry burst hclock hmem hentry _
  have hrun : before ++ entry :: burst = (before ++ [entry]) ++ burst := by simp
  rw [hrun, List.map_append, List.pairwise_append] at hclock
  have hi := neverProbed_run hT (before ++ [entry]) hclock.1 fun c hc =>
    hmem c (hrun ▸ List.mem_append_left _ hc)
  rw [reached_concat] at hi
  simp only [enters, event, Bool.and_eq_true, beq_iff_eq] at hentry
  exact absurd hentry.2 hi.not_halfOpen

/-- **No bound on the probes of a half-open period.**  Whatever the configuration, arbitrarily many
requests are admitted between an entry to the half-open state and the first result.  Only a clock
that never reads two times a timeout apart would give a bound, because under it no breaker ever
becomes half-open. -/
theorem probes_unlimited (config : CircuitBreakerConfig) :
    (¬ ∃ N, BoundsProbes config Set.univ N) ∧
    ∀ T : Set ℤ, (∃ N, BoundsProbes config T N) ↔
      ∀ t₁ ∈ T, ∀ t₂ ∈ T, t₁ ≤ t₂ → wholeSeconds (t₂ - t₁) < config.openTimeout := by
  constructor
  · rintro ⟨N, hN⟩
    have hreach : config.openTimeout ≤ wholeSeconds (max 0 config.openTimeout * 10 ^ 9 - 0) := by
      rw [sub_zero, le_wholeSeconds_iff (by positivity)]
      exact mul_le_mul_of_nonneg_right (le_max_right _ _) (by norm_num)
    exact not_boundsProbes (Set.mem_univ 0) (Set.mem_univ _) (by positivity) hreach N hN
  · intro T
    constructor
    · rintro ⟨N, hN⟩ t₁ h₁ t₂ h₂ hle
      exact not_le.mp fun htime => not_boundsProbes h₁ h₂ hle htime N hN
    · intro hT
      exact ⟨0, boundsProbes_zero hT⟩

/-- The default configuration: 5 failures open the breaker for 30 s, and then everyone gets in. -/
theorem probes_unlimited_default : ¬ ∃ N, BoundsProbes {} Set.univ N := by
  rintro ⟨N, hN⟩
  exact not_boundsProbes (Set.mem_univ 0) (Set.mem_univ 30000000000) (by decide) (by decide) N hN

end

end CircuitBreaker

end Netp2.Resilience
