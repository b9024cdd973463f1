import Netp2.Library.Rounding
import Netp2.Resilience.RouteIsolation

/-!
# The limiter on doubles

The source keeps its tokens in a `double`, and every operation of `check_allow` rounds.  Here the
state is that of `RateLimiter.lean`, its tokens being the value of the double, and the operations
go through a rounding `R`: `Rounding.binary64` is that of the source, and with `Rounding.exact` this
is the limiter on exact tokens again.

Rounding decides whether a refill that should just reach a whole token does, and the calls of other
keys cut a refill in parts.  So in general the windows of `RouteIsolation.lean` do not tell when a
key is served as if it were alone (see the end of this file).  Two things do not depend on it:

* how many calls there are: up to a full burst all are allowed, and one call more can be taken
  away;
* what happens at whole seconds, since nothing is rounded there (`step_of_isWhole`).
-/

namespace Netp2.Resilience

open StepRun RateLimiter

namespace DoubleLimiter

section Definitions

variable (R : Rounding 53)

/-- `duration_cast<duration<double>>` of a number of nanoseconds. -/
def toSeconds (nanoseconds : ℤ) : ℚ :=
  R (R nanoseconds / 10 ^ 9)

def tokensToAdd (l : RateLimiter) (now : ℤ) : ℚ :=
  R (toSeconds R (now - l.lastRefillTime) * l.config.requestsPerSecond.toNat)

/-- The tokens after the refill at `now`. -/
def level (l : RateLimiter) (now : ℤ) : ℚ :=
  min (R (l.tokens + tokensToAdd R l now)) l.config.burstSize.toNat

/-- `check_allow`, with the clock reading; the route key is not looked at. -/
def checkAllow (l : RateLimiter) (_routeKey : ByteString) (now : ℤ) :
    RateLimitDecision × RateLimiter :=
  let tokens := level R l now
  if 1 ≤ tokens then
    (.kAllow, { l with tokens := R (tokens - 1), lastRefillTime := now })
  else
    (.kReject, { l with tokens := tokens, lastRefillTime := now })

def step (l : RateLimiter) (c : Call) : RateLimitDecision × RateLimiter :=
  checkAllow R l c.routeKey c.now

def decisions (config : RateLimitConfig) (now₀ : ℤ) (calls : List Call) :
    List RateLimitDecision :=
  outputs (step R) (new config now₀) calls

/-- What a run answers to the calls of one key. -/
def ownDecisions (config : RateLimitConfig) (now₀ : ℤ) (key : ByteString) (calls : List Call) :
    List RateLimitDecision :=
  outputsOf (step R) (fun c => c.routeKey = key) (new config now₀) calls

/-- The answers are those of the run that contains only the calls of the key. -/
def RouteIndependent (config : RateLimitConfig) (now₀ : ℤ) (key : ByteString)
    (calls : List Call) : Prop :=
  ownDecisions R config now₀ key calls = decisions R config now₀ (ownCalls key calls)

end Definitions

variable {R : Rounding 53} {l : RateLimiter} {c : Call} {now : ℤ}

/-- Without rounding this is the limiter on exact tokens. -/
lemma step_exact : step (Rounding.exact 53) = RateLimiter.step := rfl

@[simp] lemma step_config (l : RateLimiter) (c : Call) : (step R l c).2.config = l.config := by
  simp only [step, checkAllow]
  split_ifs <;> rfl

@[simp] lemma step_lastRefillTime (l : RateLimiter) (c : Call) :
    (step R l c).2.lastRefillTime = c.now := by
  simp only [step, checkAllow]
  split_ifs <;> rfl

lemma final_config (config : RateLimitConfig) (now₀ : ℤ) (calls : List Call) :
    (final (step R) (new config now₀) calls).config = config := by
  induction calls using List.reverseRecOn with
  | nil => rfl
  | append_singleton calls c ih => rw [final_concat, step_config, ih]

/-! ## Up to a full burst -/

lemma toSeconds_nonneg {t : ℤ} (h : 0 ≤ t) : 0 ≤ toSeconds R t :=
  R.round_nonneg (div_nonneg (R.round_nonneg (by exact_mod_cast h)) (by positivity))

lemma tokensToAdd_nonneg (hnow : l.lastRefillTime ≤ now) : 0 ≤ tokensToAdd R l now :=
  R.round_nonneg (mul_nonneg (toSeconds_nonneg (sub_nonneg.mpr hnow)) (Nat.cast_nonneg _))

lemma burst_lt (config : RateLimitConfig) : config.burstSize.toNat < 2 ^ 32 :=
  config.burstSize.toNat_lt

lemma pos_of_burst_ne_zero {config : RateLimitConfig} (hburst : config.burstSize ≠ 0) :
    0 < config.burstSize.toNat :=
  Nat.pos_of_ne_zero fun hzero => hburst (UInt32.toNat_inj.mp hzero)

/-- A refill does not take away whole tokens. -/
lemma le_level {n : ℕ} (hn : n ≤ l.config.burstSize.toNat) (htokens : (n : ℚ) ≤ l.tokens)
    (hnow : l.lastRefillTime ≤ now) : (n : ℚ) ≤ level R l now := by
  refine le_min (R.natCast_le_round ?_ ?_) (by exact_mod_cast hn)
  · have hburst := burst_lt l.config
    omega
  · have hadd := tokensToAdd_nonneg (R := R) hnow
    linarith

lemma step_of_token {n : ℕ} (hn : n + 1 ≤ l.config.burstSize.toNat)
    (htokens : ((n + 1 : ℕ) : ℚ) ≤ l.tokens) (hnow : l.lastRefillTime ≤ c.now) :
    (step R l c).1 = .kAllow ∧ (n : ℚ) ≤ (step R l c).2.tokens := by
  have hlevel := le_level (R := R) hn htokens hnow
  push_cast at hlevel
  have hone : 1 ≤ level R l c.now := by
    have hcast : (0 : ℚ) ≤ n := Nat.cast_nonneg n
    linarith
  simp only [step, checkAllow, if_pos hone, true_and]
  refine R.natCast_le_round ?_ (by linarith)
  have hburst := burst_lt l.config
  omega

/-- As many calls as a full burst are all allowed. -/
lemma allowed_of_length_le {config : RateLimitConfig} {now₀ : ℤ} {calls : List Call}
    (h : Monotone now₀ calls) (hlen : calls.length ≤ config.burstSize.toNat) :
    (∀ d ∈ decisions R config now₀ calls, d = .kAllow) ∧
      ((config.burstSize.toNat - calls.length : ℕ) : ℚ)
        ≤ (final (step R) (new config now₀) calls).tokens := by
  induction calls using List.reverseRecOn with
  | nil => exact ⟨fun d hd => absurd hd List.not_mem_nil, le_rfl⟩
  | append_singleton calls c ih =>
      rw [List.length_append, List.length_singleton] at hlen ⊢
      obtain ⟨hallowed, htokens⟩ := ih h.of_concat (by omega)
      have hsplit : config.burstSize.toNat - calls.length
          = config.burstSize.toNat - (calls.length + 1) + 1 := by omega
      rw [hsplit] at htokens
      obtain ⟨hlast, hrest⟩ := step_of_token (by rw [final_config]; omega) htokens
        (h.lastRefillTime_le step_lastRefillTime)
      rw [decisions, outputs_append, final_concat]
      refine ⟨fun d hd => ?_, hrest⟩
      rcases List.mem_append.mp hd with hd | hd
      · exact hallowed d hd
      · rw [List.mem_singleton.mp hd, hlast]

lemma routeIndependent_of_length_le {config : RateLimitConfig} {now₀ : ℤ} {key : ByteString}
    {calls : List Call} (h : Monotone now₀ calls)
    (hlen : calls.length ≤ config.burstSize.toNat) :
    RouteIndependent R config now₀ key calls :=
  independent_of_constant (allowed_of_length_le h hlen).1
    (allowed_of_length_le (h.own key) ((List.length_filter_le _ _).trans hlen)).1

lemma rejected_of_burst_zero {config : RateLimitConfig} (hzero : config.burstSize = 0) (now₀ : ℤ)
    (calls : List Call) : ∀ d ∈ decisions R config now₀ calls, d = .kReject := by
  induction calls using List.reverseRecOn with
  | nil => exact fun d hd => absurd hd List.not_mem_nil
  | append_singleton calls c ih =>
      rw [decisions, outputs_append]
      intro d hd
      rcases List.mem_append.mp hd with hd | hd
      · exact ih d hd
      have hlevel : ¬1 ≤ level R (final (step R) (new config now₀) calls) c.now := by
        refine not_le.mpr ((min_le_right _ _).trans_lt ?_)
        simp [final_config, hzero]
      rw [List.mem_singleton.mp hd, step, checkAllow, if_neg hlevel]

lemma routeIndependent_of_burst_zero {config : RateLimitConfig} (hzero : config.burstSize = 0)
    (now₀ : ℤ) (key : ByteString) (calls : List Call) :
    RouteIndependent R config now₀ key calls :=
  independent_of_constant (rejected_of_burst_zero hzero now₀ calls)
    (rejected_of_burst_zero hzero now₀ (ownCalls key calls))

/-! ## At one instant -/

lemma toSeconds_zero : toSeconds R 0 = 0 := by
  simp [toSeconds]

/-- Without a refill the tokens stay a natural number, and each call takes one. -/
lemma step_of_sameTime {n : ℕ} (htokens : l.tokens = n) (hn : n ≤ l.config.burstSize.toNat)
    (hnow : c.now = l.lastRefillTime) :
    step R l c = (if n = 0 then .kReject else .kAllow, { l with tokens := (n - 1 : ℕ) }) := by
  have hburst := burst_lt l.config
  have hlevel : level R l c.now = n := by
    have hadd : tokensToAdd R l c.now = 0 := by
      rw [tokensToAdd, hnow, sub_self, toSeconds_zero, zero_mul, R.round_zero]
    rw [level, hadd, add_zero, htokens, R.round_natCast (by omega), min_eq_left]
    exact_mod_cast hn
  rw [step, checkAllow, hlevel, hnow]
  cases n with
  | zero => simp
  | succ n =>
      have hone : (1 : ℚ) ≤ (n + 1 : ℕ) := by exact_mod_cast Nat.le_add_left 1 n
      have hrest : R (((n + 1 : ℕ) : ℚ) - 1) = n := by
        push_cast
        rw [add_sub_cancel_right, R.round_natCast (by omega)]
      simp only [if_pos hone, hrest, if_neg n.succ_ne_zero, Nat.add_sub_cancel]

lemma final_of_sameTime {config : RateLimitConfig} {now₀ : ℤ} {calls : List Call}
    (h : ∀ c ∈ calls, c.now = now₀) :
    final (step R) (new config now₀) calls
      = ⟨config, (config.burstSize.toNat - calls.length : ℕ), now₀⟩ := by
  induction calls using List.reverseRecOn with
  | nil => rfl
  | append_singleton calls c ih =>
      have hbefore := ih fun d hd => h d (List.mem_append_left _ hd)
      rw [final_concat, hbefore, step_of_sameTime rfl (Nat.sub_le _ _) (h c (by simp)),
        List.length_append, List.length_singleton, Nat.sub_sub]

lemma monotone_of_sameTime {now₀ : ℤ} {calls : List Call} (h : ∀ c ∈ calls, c.now = now₀) :
    Monotone now₀ calls := by
  have hclock : now₀ :: calls.map Call.now = List.replicate (calls.length + 1) now₀ := by
    refine List.eq_replicate_iff.mpr ⟨by simp, ?_⟩
    simpa using h
  rw [RateLimiter.Monotone, hclock]
  exact List.pairwise_replicate.mpr (Or.inr le_rfl)

/-- `m` calls of one key, then `n` calls of another, all at the time of the construction. -/
def crowd (m n : ℕ) : List Call :=
  List.replicate m ⟨[], 0⟩ ++ List.replicate n ⟨[0], 0⟩

@[simp] lemma length_crowd (m n : ℕ) : (crowd m n).length = m + n := by
  simp [crowd]

@[simp] lemma ownCalls_crowd (m n : ℕ) : ownCalls [0] (crowd m n) = crowd 0 n := by
  simp [ownCalls, crowd]

lemma crowd_add (m n k : ℕ) : crowd m (n + k) = crowd m n ++ crowd 0 k := by
  rw [crowd, crowd, crowd, List.replicate_add, List.replicate_zero, List.nil_append,
    List.append_assoc]

lemma now_of_mem_crowd {m n : ℕ} : ∀ c ∈ crowd m n, c.now = 0 := by
  intro c hc
  rcases List.mem_append.mp hc with hc | hc <;> rw [List.eq_of_mem_replicate hc]

/-- The other key's calls leave nothing for the call that is the first one too many. -/
lemma not_routeIndependent_crowd {config : RateLimitConfig} {m k : ℕ}
    (hm : config.burstSize.toNat ≤ m + k) (hk : k < config.burstSize.toNat) :
    ¬RouteIndependent R config 0 [0] (crowd m k ++ crowd 0 1) := by
  intro h
  have hsame : (step R (final (step R) (new config 0) (crowd m k)) ⟨[0], 0⟩).1
      = (step R (final (step R) (new config 0) (ownCalls [0] (crowd m k))) ⟨[0], 0⟩).1 :=
    (independent_concat.mp h).2 rfl
  rw [ownCalls_crowd, final_of_sameTime now_of_mem_crowd, final_of_sameTime now_of_mem_crowd,
    step_of_sameTime rfl (Nat.sub_le _ _) rfl, step_of_sameTime rfl (Nat.sub_le _ _) rfl,
    length_crowd, length_crowd] at hsame
  have hnone : config.burstSize.toNat - (m + k) = 0 := by omega
  have hsome : config.burstSize.toNat - (0 + k) ≠ 0 := by omega
  rw [if_pos hnone, if_neg hsome] at hsame
  exact absurd hsame (by simp)

/-- With calls of both keys and more than a full burst, the crowd is told apart. -/
lemma not_routeIndependent_of_burst_lt {config : RateLimitConfig} {m n : ℕ}
    (hburst : 0 < config.burstSize.toNat) (hm : 0 < m) (hn : 0 < n)
    (hlen : config.burstSize.toNat < m + n) :
    ¬RouteIndependent R config 0 [0] (crowd m n) := by
  -- so many calls of the key still find a token after the others
  obtain ⟨k, hk⟩ : ∃ k, k = config.burstSize.toNat - m := ⟨_, rfl⟩
  have hsplit : crowd m n = crowd m k ++ crowd 0 1 ++ crowd 0 (n - (k + 1)) := by
    rw [← crowd_add, ← crowd_add]
    congr 1
    omega
  rw [hsplit]
  intro h
  exact not_routeIndependent_crowd (by omega) (by omega) (Independent.of_append h)

/-! ## At whole seconds -/

lemma toSeconds_mono {a b : ℤ} (ha : 0 ≤ a) (hab : a ≤ b) : toSeconds R a ≤ toSeconds R b := by
  have hcount : R a ≤ R b := R.mono (by exact_mod_cast ha) (by exact_mod_cast hab)
  have hzero : 0 ≤ R (a : ℚ) := R.round_nonneg (by exact_mod_cast ha)
  exact R.mono (by positivity) (div_le_div_of_nonneg_right hcount (by positivity))

/-- A number of seconds has nine bits fewer than its number of nanoseconds. -/
lemma toSeconds_of_le {s : ℕ} (hs : s ≤ 2 ^ 32) : toSeconds R (s * 10 ^ 9) = s := by
  have hcount : (((s * 10 ^ 9 : ℤ) : ℚ)) = (s * 5 ^ 9 : ℕ) * 2 ^ 9 := by
    push_cast
    ring
  have hexact : R ((s * 10 ^ 9 : ℤ) : ℚ) = s * 10 ^ 9 := by
    rw [hcount, R.representable 9 (by omega)]
    push_cast
    ring
  rw [toSeconds, hexact, mul_div_assoc, div_self (by positivity), mul_one,
    R.round_natCast (by omega)]

lemma le_toSeconds {s : ℕ} (hs : 2 ^ 32 ≤ s) : ((2 ^ 32 : ℕ) : ℚ) ≤ toSeconds R (s * 10 ^ 9) := by
  rw [← toSeconds_of_le (R := R) (le_refl (2 ^ 32))]
  exact toSeconds_mono (by positivity) (by exact_mod_cast Nat.mul_le_mul_right _ hs)

/-- Either nothing is rounded, or far more is added than fits. -/
lemma tokensToAdd_wholeSeconds {s : ℕ} (hnow : now - l.lastRefillTime = s * 10 ^ 9) :
    let added := s * l.config.requestsPerSecond.toNat
    tokensToAdd R l now = added ∧ added ≤ 2 ^ 32 ∨
      ((2 ^ 32 : ℕ) : ℚ) ≤ tokensToAdd R l now ∧ 2 ^ 32 ≤ added := by
  intro added
  rcases Nat.eq_zero_or_pos l.config.requestsPerSecond.toNat with hrate | hrate
  · refine .inl ?_
    simp [added, tokensToAdd, hrate]
  rw [tokensToAdd, hnow]
  rcases Nat.le_total s (2 ^ 32) with hs | hs
  · rw [toSeconds_of_le hs, ← Nat.cast_mul]
    rcases Nat.le_total added (2 ^ 32) with hadded | hadded
    · exact .inl ⟨R.round_natCast (by omega), hadded⟩
    · exact .inr ⟨R.natCast_le_round (by norm_num) (Nat.cast_le.mpr hadded), hadded⟩
  · have hone : (1 : ℚ) ≤ l.config.requestsPerSecond.toNat := by exact_mod_cast hrate
    have hproduct : ((2 ^ 32 : ℕ) : ℚ)
        ≤ toSeconds R (s * 10 ^ 9) * l.config.requestsPerSecond.toNat :=
      (le_toSeconds hs).trans (le_mul_of_one_le_right (toSeconds_nonneg (by positivity)) hone)
    exact .inr ⟨R.natCast_le_round (by norm_num) hproduct,
      hs.trans (Nat.le_mul_of_pos_right s hrate)⟩

/-- The tokens are a whole number, and no more than a full burst. -/
def IsWhole (l : RateLimiter) : Prop :=
  ∃ n : ℕ, l.tokens = n ∧ n ≤ l.config.burstSize.toNat

/-- The two refills agree, and leave a whole number. -/
lemma level_of_isWhole (h : IsWhole l) {s : ℕ} (hnow : now - l.lastRefillTime = s * 10 ^ 9) :
    level R l now = l.level now ∧
      ∃ n : ℕ, l.level now = n ∧ n ≤ l.config.burstSize.toNat := by
  obtain ⟨n, htokens, hn⟩ := h
  have hburst := burst_lt l.config
  have hexact : l.level now
      = min ((n + s * l.config.requestsPerSecond.toNat : ℕ) : ℚ) l.config.burstSize.toNat := by
    have hseconds : RateLimiter.toSeconds (now - l.lastRefillTime) = s := by
      rw [RateLimiter.toSeconds, hnow, Int.cast_mul, Int.cast_natCast, mul_div_assoc]
      norm_num
    rw [RateLimiter.level, hseconds, htokens]
    push_cast
    rfl
  refine ⟨?_, min (n + s * l.config.requestsPerSecond.toNat) l.config.burstSize.toNat,
    by rw [hexact]; norm_cast, min_le_right _ _⟩
  rw [hexact, level, htokens]
  rcases tokensToAdd_wholeSeconds (R := R) hnow with ⟨hadd, hle⟩ | ⟨hadd, hle⟩
  · rw [hadd, ← Nat.cast_add, R.round_natCast (by omega)]
  · -- both are capped
    have hrounded : ((2 ^ 32 : ℕ) : ℚ) ≤ R (n + tokensToAdd R l now) := by
      refine R.natCast_le_round (by norm_num) ?_
      exact hadd.trans (le_add_of_nonneg_left (Nat.cast_nonneg n))
    have hcap : (l.config.burstSize.toNat : ℚ) ≤ (2 ^ 32 : ℕ) := by exact_mod_cast hburst.le
    rw [min_eq_right (hcap.trans hrounded), min_eq_right]
    exact_mod_cast hburst.le.trans (hle.trans (Nat.le_add_left _ _))

lemma step_of_isWhole (h : IsWhole l) {s : ℕ} (hnow : c.now - l.lastRefillTime = s * 10 ^ 9) :
    step R l c = l.step c ∧ IsWhole (l.step c).2 := by
  obtain ⟨hlevel, n, hwhole, hn⟩ := level_of_isWhole (R := R) h hnow
  have hburst := burst_lt l.config
  rw [step, checkAllow, hlevel, RateLimiter.step, RateLimiter.checkAllow, hwhole]
  split_ifs with hone
  · have hpos : 1 ≤ n := by exact_mod_cast hone
    have hrest : (n : ℚ) - 1 = (n - 1 : ℕ) := by
      push_cast [hpos]
      rfl
    rw [hrest, R.round_natCast (by omega)]
    exact ⟨rfl, n - 1, rfl, (Nat.sub_le n 1).trans hn⟩
  · exact ⟨rfl, n, rfl, hn⟩

/-- All clock readings are whole seconds after the construction. -/
def WholeSeconds (now₀ : ℤ) (calls : List Call) : Prop :=
  ∀ c ∈ calls, 10 ^ 9 ∣ c.now - now₀

/-- **Runs at whole seconds.**  They are those of the limiter on exact tokens. -/
lemma trace_of_wholeSeconds {config : RateLimitConfig} {now₀ : ℤ} {calls : List Call}
    (h : Monotone now₀ calls) (hwhole : WholeSeconds now₀ calls) :
    trace (step R) (new config now₀) calls = trace RateLimiter.step (new config now₀) calls ∧
      final (step R) (new config now₀) calls = final RateLimiter.step (new config now₀) calls ∧
      IsWhole (final RateLimiter.step (new config now₀) calls) ∧
      10 ^ 9 ∣ (final RateLimiter.step (new config now₀) calls).lastRefillTime - now₀ := by
  induction calls using List.reverseRecOn with
  | nil => exact ⟨rfl, rfl, ⟨config.burstSize.toNat, rfl, le_rfl⟩, by simp [final, new]⟩
  | append_singleton calls c ih =>
      obtain ⟨htrace, hfinal, hisWhole, hlast⟩ :=
        ih h.of_concat fun d hd => hwhole d (List.mem_append_left _ hd)
      have hlater : (final RateLimiter.step (new config now₀) calls).lastRefillTime ≤ c.now :=
        h.lastRefillTime_le RateLimiter.step_lastRefillTime
      have hc := hwhole c (by simp)
      obtain ⟨s, hs⟩ := Int.eq_ofNat_of_zero_le (sub_nonneg.mpr hlater)
      have hdvd : (10 ^ 9 : ℤ) ∣ s := by
        rw [← hs]
        have hsub := dvd_sub hc hlast
        rwa [sub_sub_sub_cancel_right] at hsub
      obtain ⟨t, rfl⟩ : 10 ^ 9 ∣ s := by exact_mod_cast hdvd
      obtain ⟨hstep, hnext⟩ := step_of_isWhole (R := R) (c := c) hisWhole (s := t)
        (by rw [hs]; push_cast; ring)
      have hevent : event (step R) (final (step R) (new config now₀) calls) c
          = event RateLimiter.step (final RateLimiter.step (new config now₀) calls) c := by
        rw [hfinal, event, hstep, event]
      refine ⟨?_, ?_, ?_, ?_⟩
      · rw [trace_concat, trace_concat, htrace, hevent]
      · rw [final_concat, final_concat, hfinal, hstep]
      · rwa [final_concat]
      · rwa [final_concat, RateLimiter.step_lastRefillTime]

lemma routeIndependent_of_wholeSeconds {config : RateLimitConfig} {now₀ : ℤ} {key : ByteString}
    {calls : List Call} (h : Monotone now₀ calls) (hwhole : WholeSeconds now₀ calls) :
    RouteIndependent R config now₀ key calls
      ↔ RateLimiter.RouteIndependent config now₀ key calls := by
  have hown : WholeSeconds now₀ (ownCalls key calls) :=
    fun c hc => hwhole c (List.mem_of_mem_filter hc)
  rw [RouteIndependent, RateLimiter.RouteIndependent, ownDecisions, RateLimiter.ownDecisions,
    decisions, RateLimiter.decisions, outputsOf, outputsOf, outputs_eq_map_trace,
    outputs_eq_map_trace, (trace_of_wholeSeconds h hwhole).1,
    (trace_of_wholeSeconds (h.own key) hown).1]

/-- **When a route is not affected by the others.**  For numbers of calls, `m` of other keys and `n`
of the key: in every run with so many, exactly when there is nothing to take away or a full burst is
enough for all.  For a configuration: only if nothing is ever admitted.  For one run at whole
seconds: exactly when each call of the key that finds no token comes after admitted calls of that
key that have used up a window; in particular when all calls together keep within every grant. -/
theorem route_independent_iff (R : Rounding 53) (config : RateLimitConfig) :
    (∀ m n : ℕ,
      (∀ (now₀ : ℤ) (key : ByteString) (calls : List Call), Monotone now₀ calls →
        calls.length = m + n → (ownCalls key calls).length = n →
          RouteIndependent R config now₀ key calls) ↔
        config.burstSize = 0 ∨ m = 0 ∨ n = 0 ∨ m + n ≤ config.burstSize.toNat) ∧
    ((∀ (now₀ : ℤ) (key : ByteString) (calls : List Call), Monotone now₀ calls →
        RouteIndependent R config now₀ key calls) ↔ config.burstSize = 0) ∧
    (∀ (now₀ : ℤ) (key : ByteString) (calls : List Call), Monotone now₀ calls →
      WholeSeconds now₀ calls →
        (RouteIndependent R config now₀ key calls ↔ OwnFault config now₀ key calls) ∧
        ((∀ j < calls.length, ∀ i ≤ j,
            ((j - i + 1 : ℕ) : ℚ) ≤ grant config (clock calls j - clock calls i)) →
          RouteIndependent R config now₀ key calls)) := by
  refine ⟨fun m n => ⟨fun hall => ?_, ?_⟩, ⟨fun hall => ?_, ?_⟩, ?_⟩
  · by_contra hcond
    simp only [not_or, not_le] at hcond
    obtain ⟨hburst, hm, hn, hlen⟩ := hcond
    have hpos : 0 < config.burstSize.toNat := pos_of_burst_ne_zero hburst
    refine not_routeIndependent_of_burst_lt hpos (by omega) (by omega) hlen
      (hall 0 [0] (crowd m n) (monotone_of_sameTime now_of_mem_crowd) (length_crowd m n) ?_)
    rw [ownCalls_crowd, length_crowd, zero_add]
  · intro hcond now₀ key calls hmono hlen hown
    rcases hcond with hzero | rfl | rfl | hfits
    · exact routeIndependent_of_burst_zero hzero now₀ key calls
    · -- all calls are those of the key
      rw [zero_add, ← hown] at hlen
      have hall := List.length_filter_eq_length_iff.mp hlen.symm
      exact independent_of_forall hall
    · exact independent_of_filter_eq_nil (List.length_eq_zero_iff.mp hown)
    · exact routeIndependent_of_length_le hmono (hlen.trans_le hfits)
  · by_contra hburst
    have hpos : 0 < config.burstSize.toNat := pos_of_burst_ne_zero hburst
    exact not_routeIndependent_of_burst_lt (m := config.burstSize.toNat) hpos hpos Nat.one_pos
      (by omega) (hall 0 [0] _ (monotone_of_sameTime now_of_mem_crowd))
  · intro hzero now₀ key calls _
    exact routeIndependent_of_burst_zero hzero now₀ key calls
  · intro now₀ key calls hmono hwhole
    rw [routeIndependent_of_wholeSeconds hmono hwhole, routeIndependent_iff_ownFault hmono]
    exact ⟨Iff.rfl, ownFault_of_fits hmono⟩

/-- Two keys within the burst do not disturb each other. -/
theorem route_independent_twoKeys :
    RouteIndependent Rounding.binary64 ⟨1, 2⟩ 0 [1] [⟨[0], 0⟩, ⟨[1], 0⟩, ⟨[1], 1000000000⟩] := by
  have hmono : Monotone 0 [⟨[0], 0⟩, ⟨[1], 0⟩, ⟨[1], 1000000000⟩] := by
    simp [RateLimiter.Monotone]
  have hwhole : WholeSeconds 0 [⟨[0], 0⟩, ⟨[1], 0⟩, ⟨[1], 1000000000⟩] := by simp [WholeSeconds]
  have hrate : (1 : UInt32).toNat = 1 := rfl
  have hburst : (2 : UInt32).toNat = 2 := rfl
  refine ((route_independent_iff Rounding.binary64 ⟨1, 2⟩).2.2 0 [1] _ hmono hwhole).2 ?_
  intro j hj i hij
  simp only [List.length_cons, List.length_nil] at hj
  interval_cases j <;> interval_cases i <;>
    norm_num [grant, clock, RateLimiter.toSeconds, hrate, hburst]

/-- One token: the call of one key takes it from the other. -/
theorem one_route_starves_another :
    Monotone 0 [⟨[0], 5⟩, ⟨[1], 5⟩] ∧
      ownDecisions Rounding.binary64 ⟨1, 1⟩ 0 [1] [⟨[0], 5⟩, ⟨[1], 5⟩] = [.kReject] ∧
      decisions Rounding.binary64 ⟨1, 1⟩ 0 (ownCalls [1] [⟨[0], 5⟩, ⟨[1], 5⟩]) = [.kAllow] ∧
      ¬RouteIndependent Rounding.binary64 ⟨1, 1⟩ 0 [1] [⟨[0], 5⟩, ⟨[1], 5⟩] := by
  have hown : ownDecisions Rounding.binary64 ⟨1, 1⟩ 0 [1] [⟨[0], 5⟩, ⟨[1], 5⟩] = [.kReject] := by
    decide +kernel
  have halone : decisions Rounding.binary64 ⟨1, 1⟩ 0 (ownCalls [1] [⟨[0], 5⟩, ⟨[1], 5⟩])
      = [.kAllow] := by
    decide +kernel
  refine ⟨by simp [RateLimiter.Monotone], hown, halone, ?_⟩
  rw [RouteIndependent, hown, halone]
  decide

/-- After a full burst of two, 1.4 seconds bring 1.4 tokens, of which one is taken, and 0.6 seconds
should complete the next one.  In doubles the sum falls short of it. -/
example :
    decisions Rounding.binary64 ⟨1, 2⟩ 0
        [⟨[0], 0⟩, ⟨[0], 0⟩, ⟨[0], 1400000000⟩, ⟨[1], 2000000000⟩]
      = [.kAllow, .kAllow, .kAllow, .kReject] ∧
    RateLimiter.decisions ⟨1, 2⟩ 0
        [⟨[0], 0⟩, ⟨[0], 0⟩, ⟨[0], 1400000000⟩, ⟨[1], 2000000000⟩]
      = [.kAllow, .kAllow, .kAllow, .kAllow] := by
  decide +kernel

end DoubleLimiter

end Netp2.Resilience
