import Mathlib.Algebra.Order.Field.Rat
import Netp2.Library.ByteString
import Netp2.Library.CappedBalance
import Netp2.Library.StepRun

/-!
# The rate limiter

A token bucket that is refilled lazily: every `check_allow` first credits the time since the last
call, up to the burst size, and then takes one token if there is one.

Clock readings are nanoseconds, as `steady_clock` counts them, and tokens are exact rationals where
the source has a `double`; `DoubleTokens.lean` has the limiter that rounds as the source does.

The bucket before a withdrawal (`level`) is a capped balance in the sense of
`Netp2/Library/CappedBalance.lean`: the window that starts at call `i` has the value
`burst + rate * time since i - calls allowed since i`.  Hence `reject_iff_window`, and with it the
law of the limiter in both directions.
-/

namespace Netp2.Resilience

open StepRun

inductive RateLimitDecision where
  | kAllow
  | kReject
  deriving DecidableEq, Repr

structure RateLimitConfig where
  requestsPerSecond : UInt32 := 1000
  burstSize : UInt32 := 100
  deriving DecidableEq, Repr

structure RateLimiter where
  config : RateLimitConfig
  tokens : ℚ
  lastRefillTime : ℤ

namespace RateLimiter

/-- The constructor, called at `now`. -/
def new (config : RateLimitConfig) (now : ℤ) : RateLimiter where
  config := config
  tokens := config.burstSize.toNat
  lastRefillTime := now

/-- `duration_cast<duration<double>>` of a number of nanoseconds. -/
def toSeconds (nanoseconds : ℤ) : ℚ :=
  nanoseconds / 10 ^ 9

/-- The tokens after the refill at `now`. -/
def level (l : RateLimiter) (now : ℤ) : ℚ :=
  let elapsed := toSeconds (now - l.lastRefillTime)
  let tokensToAdd := elapsed * l.config.requestsPerSecond.toNat
  min (l.tokens + tokensToAdd) l.config.burstSize.toNat

/-- `check_allow`, with the clock reading; the route key is not looked at. -/
def checkAllow (l : RateLimiter) (_routeKey : ByteString) (now : ℤ) :
    RateLimitDecision × RateLimiter :=
  let tokens := l.level now
  if 1 ≤ tokens then
    (.kAllow, { l with tokens := tokens - 1, lastRefillTime := now })
  else
    (.kReject, { l with tokens := tokens, lastRefillTime := now })

/-- `reset`, called at `now`. -/
def reset (l : RateLimiter) (now : ℤ) : RateLimiter :=
  { l with tokens := l.config.burstSize.toNat, lastRefillTime := now }

/-- A call of `check_allow`: its route key and its clock reading. -/
structure Call where
  routeKey : ByteString
  now : ℤ

def step (l : RateLimiter) (c : Call) : RateLimitDecision × RateLimiter :=
  l.checkAllow c.routeKey c.now

/-! ## One call -/

@[simp] lemma step_config (l : RateLimiter) (c : Call) : (l.step c).2.config = l.config := by
  simp only [step, checkAllow]
  split_ifs <;> rfl

@[simp] lemma step_lastRefillTime (l : RateLimiter) (c : Call) :
    (l.step c).2.lastRefillTime = c.now := by
  simp only [step, checkAllow]
  split_ifs <;> rfl

lemma step_reject_iff (l : RateLimiter) (c : Call) :
    (l.step c).1 = .kReject ↔ l.level c.now < 1 := by
  simp only [step, checkAllow]
  split_ifs with h
  · simp [not_lt.mpr h]
  · simp [not_le.mp h]

def cost : RateLimitDecision → ℚ
  | .kAllow => 1
  | .kReject => 0

lemma step_tokens (l : RateLimiter) (c : Call) :
    (l.step c).2.tokens = l.level c.now - cost (l.step c).1 := by
  simp only [step, checkAllow]
  split_ifs <;> simp [cost]

/-- The bucket is never overfull and never in debt. -/
def InBounds (l : RateLimiter) : Prop :=
  0 ≤ l.tokens ∧ l.tokens ≤ l.config.burstSize.toNat

lemma inBounds_new (config : RateLimitConfig) (now : ℤ) : (new config now).InBounds :=
  ⟨Nat.cast_nonneg _, le_rfl⟩

lemma toSeconds_nonneg {t : ℤ} (h : 0 ≤ t) : 0 ≤ toSeconds t := by
  rw [toSeconds]
  positivity

/-- A refill over a time is one refill after the other over its parts. -/
lemma level_split (l : RateLimiter) {t now : ℤ} (h : t ≤ now) :
    l.level now = min (l.level t + toSeconds (now - t) * l.config.requestsPerSecond.toNat)
      l.config.burstSize.toNat := by
  have hgain : 0 ≤ toSeconds (now - t) * l.config.requestsPerSecond.toNat :=
    mul_nonneg (toSeconds_nonneg (by omega)) (Nat.cast_nonneg _)
  have hparts : toSeconds (now - l.lastRefillTime)
      = toSeconds (t - l.lastRefillTime) + toSeconds (now - t) := by
    simp only [toSeconds]
    push_cast
    ring
  simp only [level]
  rw [hparts, add_mul, CappedBalance.min_add_min _ _ hgain]

/-- A call that does not go back in time keeps the bounds. -/
lemma inBounds_step {l : RateLimiter} (h : l.InBounds) {c : Call}
    (hnow : l.lastRefillTime ≤ c.now) : (l.step c).2.InBounds := by
  have hgain : 0 ≤ toSeconds (c.now - l.lastRefillTime) * l.config.requestsPerSecond.toNat :=
    mul_nonneg (toSeconds_nonneg (by omega)) (Nat.cast_nonneg _)
  have hlevel0 : 0 ≤ l.level c.now :=
    le_min (add_nonneg h.1 hgain) (Nat.cast_nonneg _)
  have hlevelB : l.level c.now ≤ l.config.burstSize.toNat := min_le_right _ _
  rw [InBounds, step_tokens, step_config]
  cases hd : (l.step c).1 with
  | kAllow =>
      have h1 : 1 ≤ l.level c.now := by
        by_contra hlt
        rw [(step_reject_iff l c).mpr (not_le.mp hlt)] at hd
        exact absurd hd (by decide)
      simp only [cost]
      constructor <;> linarith
  | kReject => simpa [cost] using ⟨hlevel0, hlevelB⟩

/-! ## A run -/

def clock (calls : List Call) (k : ℕ) : ℤ :=
  (calls.map Call.now).getD k 0

/-- The number of `kAllow` among the decisions `i..j-1`. -/
def allowed (ds : List RateLimitDecision) (i j : ℕ) : ℕ :=
  ((ds.take j).drop i).count .kAllow

/-- What the configuration grants in `t` nanoseconds: a full burst and the rate. -/
def grant (config : RateLimitConfig) (t : ℤ) : ℚ :=
  config.burstSize.toNat + config.requestsPerSecond.toNat * toSeconds t

lemma allowed_self (ds : List RateLimitDecision) (i : ℕ) : allowed ds i i = 0 := by
  simp [allowed]

lemma allowed_succ {ds : List RateLimitDecision} {i k : ℕ} {d : RateLimitDecision} (hik : i ≤ k)
    (hd : ds[k]? = some d) : (allowed ds i (k + 1) : ℚ) = allowed ds i k + cost d := by
  have hk : k < ds.length := (List.getElem?_eq_some_iff.mp hd).1
  have hlen : i ≤ (ds.take k).length := by rw [List.length_take]; omega
  rw [allowed, List.take_add_one, hd, Option.toList_some, List.drop_append_of_le_length hlen,
    List.count_append]
  cases d <;> simp [allowed, cost]

lemma allowed_le (ds : List RateLimitDecision) (i j : ℕ) : allowed ds i j ≤ j - i := by
  refine List.count_le_length.trans ?_
  rw [List.length_drop, List.length_take]
  omega

section Run

variable (config : RateLimitConfig) (now₀ : ℤ) (calls : List Call)

def stateAt (k : ℕ) : RateLimiter :=
  final step (new config now₀) (calls.take k)

/-- The bucket at call `k`, before it takes its token. -/
def levelAt (k : ℕ) : ℚ :=
  (stateAt config now₀ calls k).level (clock calls k)

def decisions : List RateLimitDecision :=
  outputs step (new config now₀) calls

variable {config now₀ calls}

lemma clock_eq {k : ℕ} (hk : k < calls.length) : clock calls k = calls[k].now := by
  simp [clock, hk]

lemma decisions_eq (config : RateLimitConfig) (now₀ : ℤ) {k : ℕ} (hk : k < calls.length) :
    (decisions config now₀ calls)[k]? = some ((stateAt config now₀ calls k).step calls[k]).1 := by
  rw [decisions, getElem?_outputs, List.getElem?_eq_getElem hk]
  rfl

lemma stateAt_succ {k : ℕ} (hk : k < calls.length) :
    stateAt config now₀ calls (k + 1) = ((stateAt config now₀ calls k).step calls[k]).2 :=
  final_take_succ _ _ _ hk

lemma stateAt_config : ∀ {k : ℕ}, k ≤ calls.length → (stateAt config now₀ calls k).config = config
  | 0, _ => rfl
  | k + 1, hk => by rw [stateAt_succ hk, step_config, stateAt_config (by omega)]

/-- Call `k` leaves what was there before it less the cost of its decision. -/
lemma tokens_succ {k : ℕ} (hk : k < calls.length) {d : RateLimitDecision}
    (hd : (decisions config now₀ calls)[k]? = some d) :
    (stateAt config now₀ calls (k + 1)).tokens = levelAt config now₀ calls k - cost d := by
  rw [decisions_eq config now₀ hk, Option.some.injEq] at hd
  rw [stateAt_succ hk, step_tokens, hd, levelAt, clock_eq hk]

lemma reject_iff {k : ℕ} (hk : k < calls.length) :
    (decisions config now₀ calls)[k]? = some .kReject ↔ levelAt config now₀ calls k < 1 := by
  rw [decisions_eq config now₀ hk, Option.some.injEq, step_reject_iff, levelAt, clock_eq hk]

/-- The clock does not go back, from the construction on. -/
def Monotone (now₀ : ℤ) (calls : List Call) : Prop :=
  (now₀ :: calls.map Call.now).Pairwise (· ≤ ·)

lemma Monotone.le_clock (h : Monotone now₀ calls) {k : ℕ} (hk : k < calls.length) :
    now₀ ≤ clock calls k := by
  rw [clock_eq hk]
  exact List.rel_of_pairwise_cons h (List.mem_map_of_mem (List.getElem_mem hk))

lemma Monotone.clock_le_succ (h : Monotone now₀ calls) {k : ℕ} (hk : k + 1 < calls.length) :
    clock calls k ≤ clock calls (k + 1) := by
  rw [clock_eq hk, clock_eq (by omega)]
  have hmap := List.pairwise_map.mp (List.pairwise_cons.mp h).2
  exact List.pairwise_iff_getElem.mp hmap k (k + 1) (by omega) hk (by omega)

/-- What call `k` changes: its decision takes its cost, the time to the next call refills. -/
def change (config : RateLimitConfig) (now₀ : ℤ) (calls : List Call) (k : ℕ) : ℚ :=
  config.requestsPerSecond.toNat * toSeconds (clock calls (k + 1) - clock calls k)
    - cost (((decisions config now₀ calls)[k]?).getD .kReject)

/-- The window that starts at call `i`, read at call `k`. -/
def window (config : RateLimitConfig) (now₀ : ℤ) (calls : List Call) (i k : ℕ) : ℚ :=
  grant config (clock calls k - clock calls i) - allowed (decisions config now₀ calls) i k

lemma isWindow_window : CappedBalance.IsWindow (config.burstSize.toNat : ℚ)
    (change config now₀ calls) (window config now₀ calls) calls.length where
  self i := by simp [window, grant, toSeconds, allowed_self]
  succ i k hik hk := by
    have hd := decisions_eq config now₀ (Nat.lt_of_succ_lt hk)
    rw [window, window, change, allowed_succ hik hd, hd, Option.getD_some]
    simp only [grant, toSeconds]
    push_cast
    ring

lemma isBalance_levelAt (config : RateLimitConfig) (h : Monotone now₀ calls) :
    CappedBalance.IsBalance (config.burstSize.toNat : ℚ) (change config now₀ calls)
      (levelAt config now₀ calls) calls.length where
  zero hn := by
    have hgain : 0 ≤ toSeconds (clock calls 0 - now₀) * config.requestsPerSecond.toNat :=
      mul_nonneg (toSeconds_nonneg (sub_nonneg.mpr (h.le_clock hn))) (Nat.cast_nonneg _)
    exact min_eq_right (le_add_of_nonneg_right hgain)
  succ k hk := by
    have hk' : k < calls.length := Nat.lt_of_succ_lt hk
    have hd := decisions_eq config now₀ hk'
    have hlast : (stateAt config now₀ calls (k + 1)).lastRefillTime = clock calls k := by
      rw [stateAt_succ hk', step_lastRefillTime, clock_eq hk']
    rw [change, hd, Option.getD_some, levelAt, level, tokens_succ hk' hd, hlast,
      stateAt_config hk']
    congr 1
    ring

lemma inBounds_stateAt (config : RateLimitConfig) (h : Monotone now₀ calls) :
    ∀ {k : ℕ}, k ≤ calls.length → (stateAt config now₀ calls k).InBounds
  | 0, _ => inBounds_new config now₀
  | 1, hk => by
      rw [stateAt_succ hk]
      refine inBounds_step (inBounds_new config now₀) ?_
      exact (h.le_clock hk).trans_eq (clock_eq hk)
  | k + 2, hk => by
      have hlast : (stateAt config now₀ calls (k + 1)).lastRefillTime = clock calls k := by
        rw [stateAt_succ (by omega), step_lastRefillTime, clock_eq (by omega)]
      rw [stateAt_succ hk]
      refine inBounds_step (inBounds_stateAt config h (by omega)) ?_
      rw [hlast, ← clock_eq hk]
      exact h.clock_le_succ hk

/-- A window never falls behind what it granted. -/
lemma allowed_le_grant (h : Monotone now₀ calls) {i j : ℕ} (hij : i ≤ j) (hj : j < calls.length) :
    (allowed (decisions config now₀ calls) i (j + 1) : ℚ)
      ≤ grant config (clock calls j - clock calls i) := by
  have hd := decisions_eq config now₀ hj
  have hleast := (CappedBalance.isLeast_windows (isBalance_levelAt config h)
    isWindow_window j hj).2 ⟨i, hij, rfl⟩
  have htokens := (inBounds_stateAt config h (Nat.succ_le_of_lt hj)).1
  rw [tokens_succ hj hd] at htokens
  rw [window] at hleast
  rw [allowed_succ hij hd]
  linarith

/-- Call `k` is rejected exactly when some window has used up its grant. -/
lemma reject_iff_window (h : Monotone now₀ calls) {k : ℕ} (hk : k < calls.length) :
    (decisions config now₀ calls)[k]? = some .kReject ↔
      ∃ i ≤ k, grant config (clock calls k - clock calls i)
        < allowed (decisions config now₀ calls) i k + 1 := by
  rw [reject_iff hk,
    CappedBalance.lt_iff_exists_window (isBalance_levelAt config h) isWindow_window hk]
  simp only [window, sub_lt_iff_lt_add']

/-- A run that keeps within every grant is admitted in full. -/
lemma allowed_of_fits (h : Monotone now₀ calls)
    (hfits : ∀ j < calls.length, ∀ i ≤ j,
      ((j - i + 1 : ℕ) : ℚ) ≤ grant config (clock calls j - clock calls i))
    {k : ℕ} (hk : k < calls.length) : (decisions config now₀ calls)[k]? = some .kAllow := by
  have hd := decisions_eq config now₀ hk
  cases hcase : ((stateAt config now₀ calls k).step calls[k]).1 with
  | kAllow => rw [hd, hcase]
  | kReject =>
      -- a rejection would need a window with more decisions than calls
      rw [hcase] at hd
      obtain ⟨i, hik, hlt⟩ := (reject_iff_window h hk).mp hd
      have hcount : (allowed (decisions config now₀ calls) i k : ℚ) ≤ (k - i : ℕ) :=
        Nat.cast_le.mpr (allowed_le _ i k)
      have hgrant := hfits k hk i hik
      push_cast at hgrant
      linarith

end Run

/-- **The law of the limiter.**  Along a run with a clock that does not go back, call `k` is
rejected exactly when some window of calls `i..k-1` has used up what the configuration grants it.
Hence no window ever exceeds its grant, a run that keeps within every grant is admitted in full,
and the bucket stays between nothing and a full burst. -/
theorem checkAllow_law (config : RateLimitConfig) (now₀ : ℤ) (calls : List Call)
    (h : Monotone now₀ calls) :
    (∀ k < calls.length, (decisions config now₀ calls)[k]? = some .kReject ↔
      ∃ i ≤ k, (allowed (decisions config now₀ calls) i k : ℚ) + 1
        > grant config (clock calls k - clock calls i)) ∧
    (∀ j < calls.length, ∀ i ≤ j, (allowed (decisions config now₀ calls) i (j + 1) : ℚ)
      ≤ grant config (clock calls j - clock calls i)) ∧
    ((∀ j < calls.length, ∀ i ≤ j,
        ((j - i + 1 : ℕ) : ℚ) ≤ grant config (clock calls j - clock calls i)) →
      ∀ k < calls.length, (decisions config now₀ calls)[k]? = some .kAllow) ∧
    (∀ k ≤ calls.length, 0 ≤ (stateAt config now₀ calls k).tokens ∧
      (stateAt config now₀ calls k).tokens ≤ config.burstSize.toNat) := by
  refine ⟨fun k hk => reject_iff_window h hk, fun j hj i hij => allowed_le_grant h hij hj,
    fun hfits k hk => allowed_of_fits h hfits hk, ?_⟩
  intro k hk
  have hbounds := inBounds_stateAt config h hk
  rwa [InBounds, stateAt_config hk] at hbounds

/-- One token, refilled once a second: of two calls at once the second is rejected. -/
theorem checkAllow_law_twoCalls :
    Monotone 0 [⟨[], 5⟩, ⟨[], 5⟩, ⟨[], 1000000005⟩] ∧
      (decisions ⟨1, 1⟩ 0 [⟨[], 5⟩, ⟨[], 5⟩, ⟨[], 1000000005⟩])[1]? = some .kReject := by
  have hmono : Monotone 0 [⟨[], 5⟩, ⟨[], 5⟩, ⟨[], 1000000005⟩] := by simp [Monotone]
  refine ⟨hmono, ((checkAllow_law ⟨1, 1⟩ 0 _ hmono).1 1 (by decide)).mpr ⟨0, by decide, ?_⟩⟩
  have hallowed : allowed (decisions ⟨1, 1⟩ 0 [⟨[], 5⟩, ⟨[], 5⟩, ⟨[], 1000000005⟩]) 0 1 = 1 := by
    decide +kernel
  rw [hallowed]
  norm_num [grant, clock, toSeconds]
  decide

end RateLimiter

end Netp2.Resilience
