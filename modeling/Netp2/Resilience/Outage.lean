import Netp2.Resilience.CircuitBreaker

/-!
# What a breaker lets through during an outage

A breaker is there to keep requests away from something that is down.  While it is down, every
request that is let through fails.  The requests that count are then those that open the breaker
and, from then on, one probe for each open period.

`openings_apart` says that two openings without a reset between them are an open period apart,
whatever else is called.  `outage_bounded` is the bound for requests that are made one after the
other: however the outage finds the breaker, as many get through as it takes to open it, and one
more for each open period that fits into the outage.
-/

namespace Netp2.Resilience

open StepRun

namespace CircuitBreaker

/-- `open_timeout` in nanoseconds. -/
def openPeriod (config : CircuitBreakerConfig) : ℤ :=
  config.openTimeout * 10 ^ 9

/-- A probe is not admitted before the end of the open period. -/
lemma openPeriod_le {x : ℤ} {config : CircuitBreakerConfig} (htimeout : 0 < config.openTimeout)
    (hx : config.openTimeout ≤ wholeSeconds x) : openPeriod config ≤ x := by
  have hnonneg : 0 ≤ x := by
    by_contra hneg
    have hzero : wholeSeconds x ≤ 0 := by
      rw [wholeSeconds, ← Int.neg_tdiv_neg]
      exact Int.tdiv_nonpos_of_nonneg_of_nonpos (by omega) (by norm_num)
    omega
  exact (le_wholeSeconds_iff hnonneg config.openTimeout).mp hx

/-! ## Openings -/

/-- The breaker is open since `start`, or the open period is over. -/
def OpenOrOver (config : CircuitBreakerConfig) (start : ℤ) (b : CircuitBreaker) (now : ℤ) : Prop :=
  b.config = config ∧
    ((b.state = .kOpen ∧ b.openStartTime = start) ∨ openPeriod config ≤ now - start)

variable {config : CircuitBreakerConfig} {b : CircuitBreaker} {start now : ℤ}

lemma openOrOver_step (htimeout : 0 < config.openTimeout) (h : OpenOrOver config start b now)
    {c : Call} (hc : c.op ≠ .reset) (hnow : now ≤ c.now) :
    OpenOrOver config start (b.step c).2 c.now := by
  obtain ⟨op, t⟩ := c
  obtain ⟨rfl, h⟩ := h
  have ht := transition_step b ⟨op, t⟩
  generalize (b.step ⟨op, t⟩).1 = o, (b.step ⟨op, t⟩).2 = b' at ht ⊢
  have hconfig : b'.config = b.config := by cases ht <;> rfl
  refine ⟨hconfig, ?_⟩
  rcases h with ⟨hs, hstart⟩ | hover
  · subst hstart
    cases ht with
    | refuse => exact .inl ⟨hs, rfl⟩
    | successOpen => exact .inl ⟨hs, rfl⟩
    | failureOpen => exact .inl ⟨hs, rfl⟩
    | probe _ ht => exact .inr (openPeriod_le htimeout ht)
    | reset => exact absurd rfl hc
    | _ => simp_all
  · simp only at hnow ⊢
    exact .inr (by omega)

lemma openOrOver_final (htimeout : 0 < config.openTimeout) (h : OpenOrOver config start b now)
    {calls : List Call} (hreset : ∀ c ∈ calls, c.op ≠ .reset)
    (hclock : (now :: calls.map Call.now).Pairwise (· ≤ ·)) :
    OpenOrOver config start (final step b calls) ((calls.map Call.now).getLastD now) := by
  induction calls generalizing b now with
  | nil => exact h
  | cons c calls ih =>
      rw [List.map_cons, List.pairwise_cons] at hclock
      have hstep := openOrOver_step htimeout h (hreset c List.mem_cons_self)
        (hclock.1 c.now List.mem_cons_self)
      rw [List.map_cons, List.getLastD_cons]
      exact ih hstep (fun d hd => hreset d (List.mem_cons_of_mem c hd)) hclock.2

/-- **Two openings are an open period apart**, if there is no reset between them, whatever else is
called in between and in whatever order. -/
theorem openings_apart (config : CircuitBreakerConfig) (htimeout : 0 < config.openTimeout)
    (before between : List Call) (first second : Call)
    (hclock : ((first :: between ++ [second]).map Call.now).Pairwise (· ≤ ·))
    (hreset : ∀ c ∈ between, c.op ≠ .reset)
    (hfirst : enters .kOpen (event step (reached config before) first) = true)
    (hsecond : enters .kOpen
      (event step (reached config (before ++ first :: between)) second) = true) :
    openPeriod config ≤ second.now - first.now := by
  have hopened : reached config (before ++ [first])
      = (reached config before).transitionToOpen first.now := by
    rw [reached, final_concat]
    exact eq_transitionToOpen hfirst
  have hconfig : (reached config (before ++ [first])).config = config :=
    (invariant_run config _).config_eq
  have hstart : OpenOrOver config first.now (reached config (before ++ [first])) first.now := by
    refine ⟨hconfig, .inl ?_⟩
    rw [hopened]
    exact ⟨rfl, rfl⟩
  rw [List.map_append, List.pairwise_append] at hclock
  obtain ⟨hbetween, -, hlast⟩ := hclock
  obtain ⟨-, hend⟩ := openOrOver_final htimeout hstart hreset hbetween
  have hreached : reached config (before ++ first :: between)
      = final step (reached config (before ++ [first])) between := by
    rw [List.append_cons, reached, final_append, ← reached]
  rw [hreached] at hsecond
  have hle : (between.map Call.now).getLastD first.now ≤ second.now :=
    hlast _ List.getLastD_mem_cons second.now (by simp)
  rcases hend with ⟨hopen, -⟩ | hover
  · -- what is open does not open
    simp [enters, event, hopen] at hsecond
  · omega

/-- It opens, is probed after a second, and opens again. -/
theorem openings_apart_probed :
    openPeriod ⟨1, 1, 1⟩ ≤ 1000000009 - 7 :=
  openings_apart ⟨1, 1, 1⟩ (by decide) [] [⟨.recordSuccess, 8⟩, ⟨.allowRequest, 1000000008⟩]
    ⟨.recordFailure, 7⟩ ⟨.recordFailure, 1000000009⟩ (by simp) (by simp) (by decide) (by decide)

/-! ## Requests during an outage -/

/-- A request that fails, if it is admitted. -/
structure Attempt where
  askedAt : ℤ
  failedAt : ℤ

def attempt (b : CircuitBreaker) (a : Attempt) : Bool × CircuitBreaker :=
  let (allowed, b) := b.allowRequest a.askedAt
  if allowed then (true, b.recordFailure a.failedAt) else (false, b)

/-- One request after the other, from `t` to `t'`. -/
def Sequential (t' : ℤ) : ℤ → List Attempt → Prop
  | t, [] => t ≤ t'
  | t, a :: as => t ≤ a.askedAt ∧ a.askedAt ≤ a.failedAt ∧ Sequential t' a.failedAt as

/-- The number of requests that get through. -/
def through (b : CircuitBreaker) (as : List Attempt) : ℕ :=
  (outputs attempt b as).count true

/-- **What one failing request can do.**  In `kClosed` it gets through and is counted, and the last
one opens the breaker; in `kOpen` it is refused, or it is a probe; in `kHalfOpen` it gets through.
-/
inductive Attempts (b : CircuitBreaker) (a : Attempt) : Bool × CircuitBreaker → Prop
  | counted (h : b.state = .kClosed)
      (hn : b.consecutiveFailures + 1 < b.config.failureThreshold) :
      Attempts b a (true, { b with consecutiveFailures := b.consecutiveFailures + 1 })
  | trips (h : b.state = .kClosed)
      (hn : b.config.failureThreshold ≤ b.consecutiveFailures + 1) :
      Attempts b a (true, b.transitionToOpen a.failedAt)
  | refused (h : b.state = .kOpen) : Attempts b a (false, b)
  | probes (h : b.state = .kOpen)
      (ht : b.config.openTimeout ≤ wholeSeconds (a.askedAt - b.openStartTime)) :
      Attempts b a (true, b.transitionToOpen a.failedAt)
  | reopens (h : b.state = .kHalfOpen) : Attempts b a (true, b.transitionToOpen a.failedAt)

lemma attempts (b : CircuitBreaker) (a : Attempt) : Attempts b a (b.attempt a) := by
  cases h : b.state with
  | kClosed =>
      by_cases hn : b.config.failureThreshold ≤ b.consecutiveFailures + 1
      · simpa [attempt, allowRequest, recordFailure, h, hn, transitionToOpen]
          using Attempts.trips (a := a) h hn
      · simpa [attempt, allowRequest, recordFailure, h, hn]
          using Attempts.counted (a := a) h (UInt32.not_le.mp hn)
  | kOpen =>
      by_cases ht : b.config.openTimeout ≤ wholeSeconds (a.askedAt - b.openStartTime)
      · simpa [attempt, allowRequest, recordFailure, h, ht, transitionToHalfOpen, transitionToOpen]
          using Attempts.probes h ht
      · simpa [attempt, allowRequest, h, ht] using Attempts.refused (a := a) h
  | kHalfOpen =>
      simpa [attempt, allowRequest, recordFailure, h, transitionToOpen]
        using Attempts.reopens (a := a) h

lemma through_cons (b : CircuitBreaker) (a : Attempt) (as : List Attempt) :
    (through b (a :: as) : ℤ)
      = (if (b.attempt a).1 then 1 else 0) + through (b.attempt a).2 as := by
  rw [through, outputs, List.count_cons, ← through]
  cases (b.attempt a).1 <;> simp [add_comm]

lemma Sequential.le {t t' : ℤ} {as : List Attempt} (h : Sequential t' t as) : t ≤ t' := by
  induction as generalizing t with
  | nil => exact h
  | cons a as ih =>
      have hrest := ih h.2.2
      have hasked := h.1
      have hfailed := h.2.1
      omega

section Outage

variable {t t' : ℤ} {as : List Attempt} (htimeout : 0 < config.openTimeout)
  (hconfig : b.config = config) (h : Sequential t' t as)

include htimeout hconfig h

/-- An open breaker lets one request through for each open period since it has opened. -/
lemma through_opened (hs : b.state = .kOpen) (hstart : b.openStartTime ≤ t) :
    through b as * openPeriod config ≤ t' - b.openStartTime := by
  induction as generalizing b t with
  | nil =>
      have hle := h.le
      simp only [through, outputs, List.count_nil, Nat.cast_zero, zero_mul]
      omega
  | cons a as ih =>
      obtain ⟨hasked, hfailed, hrest⟩ := h
      rw [through_cons]
      have hattempts := attempts b a
      generalize b.attempt a = next at hattempts ⊢
      cases hattempts with
      | refused =>
          have hbound := ih hconfig hrest hs (by omega)
          simpa using hbound
      | probes _ ht =>
          have hbound : _ ≤ t' - a.failedAt :=
            ih (b := b.transitionToOpen a.failedAt) hconfig hrest rfl le_rfl
          have hperiod := openPeriod_le htimeout (hconfig ▸ ht)
          simp only [if_true, add_mul, one_mul]
          omega
      | _ => simp_all

lemma through_transitionToOpen :
    through (b.transitionToOpen t) as * openPeriod config ≤ t' - t :=
  through_opened (b := b.transitionToOpen t) htimeout hconfig h rfl le_rfl

/-- If nothing is known of when it has opened, one more. -/
lemma through_open (hs : b.state = .kOpen) :
    through b as * openPeriod config ≤ openPeriod config + (t' - t) := by
  have hperiod : 0 < openPeriod config := by
    rw [openPeriod]
    positivity
  induction as generalizing t with
  | nil =>
      have hle := h.le
      simp only [through, outputs, List.count_nil, Nat.cast_zero, zero_mul]
      omega
  | cons a as ih =>
      obtain ⟨hasked, hfailed, hrest⟩ := h
      rw [through_cons]
      have hattempts := attempts b a
      generalize b.attempt a = next at hattempts ⊢
      cases hattempts with
      | refused =>
          have hbound := ih hrest
          simp only [Bool.false_eq_true, if_false, zero_add]
          omega
      | probes =>
          have hbound := through_transitionToOpen htimeout hconfig hrest
          simp only [if_true, add_mul, one_mul]
          omega
      | _ => simp_all

/-- A half-open breaker lets one through and opens. -/
lemma through_halfOpen (hs : b.state = .kHalfOpen) :
    through b as * openPeriod config ≤ openPeriod config + (t' - t) := by
  have hperiod : 0 < openPeriod config := by
    rw [openPeriod]
    positivity
  cases as with
  | nil =>
      have hle := h.le
      simp only [through, outputs, List.count_nil, Nat.cast_zero, zero_mul]
      omega
  | cons a as =>
      obtain ⟨hasked, hfailed, hrest⟩ := h
      rw [through_cons]
      have hattempts := attempts b a
      generalize b.attempt a = next at hattempts ⊢
      cases hattempts with
      | reopens =>
          have hbound := through_transitionToOpen htimeout hconfig hrest
          simp only [if_true, add_mul, one_mul]
          omega
      | _ => simp_all

/-- A closed breaker lets through what is missing to open it. -/
lemma through_closed (hs : b.state = .kClosed)
    (hn : b.consecutiveFailures.toNat < limit config.failureThreshold) :
    through b as * openPeriod config
      ≤ (limit config.failureThreshold - b.consecutiveFailures.toNat) * openPeriod config
        + (t' - t) := by
  have hperiod : 0 < openPeriod config := by
    rw [openPeriod]
    positivity
  induction as generalizing b t with
  | nil =>
      have hle := h.le
      have hmissing : 0 ≤ ((limit config.failureThreshold : ℤ) - b.consecutiveFailures.toNat)
          * openPeriod config := mul_nonneg (by omega) hperiod.le
      simp only [through, outputs, List.count_nil, Nat.cast_zero, zero_mul]
      omega
  | cons a as ih =>
      obtain ⟨hasked, hfailed, hrest⟩ := h
      rw [through_cons]
      have hattempts := attempts b a
      generalize b.attempt a = next at hattempts ⊢
      cases hattempts with
      | counted _ hlt =>
          have hsucc := toNat_succ hn
          rw [hconfig, succ_lt_iff hn] at hlt
          have hbound := ih (b := { b with consecutiveFailures := b.consecutiveFailures + 1 })
            hconfig hrest hs (by rw [hsucc]; exact hlt)
          simp only [hsucc] at hbound
          push_cast at hbound
          simp only [if_true]
          linarith
      | trips _ hge =>
          have hbound := through_transitionToOpen htimeout hconfig hrest
          rw [hconfig, le_succ_iff hn] at hge
          have hone : (limit config.failureThreshold : ℤ) - b.consecutiveFailures.toNat = 1 := by
            omega
          rw [hone]
          simp only [if_true, add_mul, one_mul]
          omega
      | _ => simp_all

end Outage

/-- **An outage is bounded.**  After any history of calls, let requests be made one after the other
from `t` to `t'`, all of which fail if they are let through.  Then there get through at most as many
as the failure threshold, and one more for each open period that fits into this time. -/
theorem outage_bounded (config : CircuitBreakerConfig) (htimeout : 0 < config.openTimeout)
    (before : List Call) (as : List Attempt) (t t' : ℤ) (h : Sequential t' t as) :
    through (reached config before) as * openPeriod config
      ≤ limit config.failureThreshold * openPeriod config + (t' - t) := by
  have hi : Invariant config _ (reached config before) := invariant_run config before
  have hperiod : 0 < openPeriod config := by
    rw [openPeriod]
    positivity
  have hone : openPeriod config ≤ limit config.failureThreshold * openPeriod config :=
    le_mul_of_one_le_left hperiod.le (by exact_mod_cast limit_pos config.failureThreshold)
  cases hs : (reached config before).state with
  | kClosed =>
      have hbound := through_closed htimeout hi.config_eq h hs (hi.closed hs).2.1
      have hcounted : 0 ≤ ((reached config before).consecutiveFailures.toNat : ℤ)
          * openPeriod config := mul_nonneg (Nat.cast_nonneg _) hperiod.le
      rw [sub_mul] at hbound
      omega
  | kOpen =>
      have hbound := through_open htimeout hi.config_eq h hs
      omega
  | kHalfOpen =>
      have hbound := through_halfOpen htimeout hi.config_eq h hs
      omega

/-- A request every 400 milliseconds, for two seconds, of which two get through to open the breaker
and one to probe it. -/
def everyNow : List Attempt :=
  [⟨0, 1⟩, ⟨400000000, 400000001⟩, ⟨800000000, 800000001⟩, ⟨1200000000, 1200000001⟩,
    ⟨1600000000, 1600000001⟩, ⟨2000000000, 2000000001⟩]

theorem outage_bounded_everyNow :
    through (reached ⟨2, 1, 1⟩ []) everyNow = 3 ∧
      (through (reached ⟨2, 1, 1⟩ []) everyNow : ℤ) * openPeriod ⟨2, 1, 1⟩
        ≤ limit 2 * openPeriod ⟨2, 1, 1⟩ + (2000000001 - 0) :=
  ⟨by decide +kernel, outage_bounded ⟨2, 1, 1⟩ (by decide) [] everyNow 0 2000000001
    (by norm_num [Sequential, everyNow])⟩

end CircuitBreaker

end Netp2.Resilience
