import Netp2.Resilience.RateLimiter

/-!
# Route keys and the limiter

`check_allow` takes a route key, for limits per route, but all keys draw on one bucket.  So the
calls of a key may be refused although they keep within the limit by themselves.

With exact tokens a key is served as if it were alone exactly when each of its calls that finds the
bucket empty is accounted for by the key's own admitted calls (`routeIndependent_iff_ownFault`).
This compares two runs, and `Within` is the relation between them: as long as they agree, the shared
bucket never holds more than the bucket of the key alone.

What is left of it when tokens are rounded is in `DoubleTokens.lean`.
-/

namespace Netp2.Resilience

open StepRun

namespace RateLimiter

/-! ## One key in a run -/

def ownCalls (key : ByteString) (calls : List Call) : List Call :=
  calls.filter fun c => c.routeKey = key

/-- What a run answers to the calls of one key. -/
def ownDecisions (config : RateLimitConfig) (now₀ : ℤ) (key : ByteString) (calls : List Call) :
    List RateLimitDecision :=
  outputsOf step (fun c => c.routeKey = key) (new config now₀) calls

/-- The answers are those of the run that contains only the calls of the key. -/
def RouteIndependent (config : RateLimitConfig) (now₀ : ℤ) (key : ByteString)
    (calls : List Call) : Prop :=
  ownDecisions config now₀ key calls = decisions config now₀ (ownCalls key calls)

/-- Before call `c`, the admitted calls of the key have used up the grant of some window. -/
def UsedUp (config : RateLimitConfig) (now₀ : ℤ) (key : ByteString) (before : List Call)
    (c : Call) : Prop :=
  ∃ i ≤ (ownCalls key before).length,
    grant config (c.now - clock (ownCalls key before ++ [c]) i)
      < allowed (ownDecisions config now₀ key before) i (ownCalls key before).length + 1

/-- Whenever a call of the key finds no token, its own calls have used up a window. -/
def OwnFault (config : RateLimitConfig) (now₀ : ℤ) (key : ByteString) (calls : List Call) : Prop :=
  EachCall (fun before c => c.routeKey = key →
    (final step (new config now₀) before).level c.now < 1 → UsedUp config now₀ key before c) calls

section Run

variable {config : RateLimitConfig} {now₀ : ℤ} {key : ByteString} {calls : List Call} {c : Call}

lemma ownCalls_concat (key : ByteString) (calls : List Call) (c : Call) :
    ownCalls key (calls ++ [c]) = ownCalls key calls ++ if c.routeKey = key then [c] else [] := by
  rw [ownCalls, List.filter_append, List.filter_singleton]
  by_cases hc : c.routeKey = key <;> simp [hc, ownCalls]

lemma decisions_concat (config : RateLimitConfig) (now₀ : ℤ) (calls : List Call) (c : Call) :
    decisions config now₀ (calls ++ [c])
      = decisions config now₀ calls ++ [((final step (new config now₀) calls).step c).1] :=
  outputs_append _ calls [c]

lemma decisions_length (config : RateLimitConfig) (now₀ : ℤ) (calls : List Call) :
    (decisions config now₀ calls).length = calls.length :=
  length_outputs _ _

lemma routeIndependent_concat :
    RouteIndependent config now₀ key (calls ++ [c]) ↔
      RouteIndependent config now₀ key calls ∧
        (c.routeKey = key → ((final step (new config now₀) calls).step c).1
          = ((final step (new config now₀) (ownCalls key calls)).step c).1) := by
  refine independent_concat.trans (and_congr_right fun _ => ?_)
  rw [decide_eq_true_eq]
  rfl

lemma allowed_append {ds : List RateLimitDecision} {i j : ℕ} (hj : j ≤ ds.length)
    (es : List RateLimitDecision) : allowed (ds ++ es) i j = allowed ds i j := by
  rw [allowed, List.take_append_of_le_length hj, allowed]

/-! ## The clock -/

lemma Monotone.of_concat (h : Monotone now₀ (calls ++ [c])) : Monotone now₀ calls := by
  rw [Monotone, List.map_append, ← List.cons_append] at h
  exact (List.pairwise_append.mp h).1

lemma Monotone.own (h : Monotone now₀ calls) (key : ByteString) :
    Monotone now₀ (ownCalls key calls) :=
  List.Pairwise.sublist ((List.filter_sublist.map Call.now).cons_cons now₀) h

lemma Monotone.lastRefillTime_le {f : RateLimiter → Call → RateLimitDecision × RateLimiter}
    (hf : ∀ l c, (f l c).2.lastRefillTime = c.now) (h : Monotone now₀ (calls ++ [c])) :
    (final f (new config now₀) calls).lastRefillTime ≤ c.now := by
  rw [Monotone, List.map_append, ← List.cons_append] at h
  have hlast := (List.pairwise_append.mp h).2.2
  cases calls using List.reverseRecOn with
  | nil => exact hlast now₀ List.mem_cons_self c.now List.mem_cons_self
  | append_singleton calls d =>
      rw [final_concat, hf]
      exact hlast d.now (by simp) c.now List.mem_cons_self

/-! ## The shared bucket and the bucket of one key -/

/-- The shared bucket `l` holds no more than the bucket `p` that one key has for itself. -/
structure Within (l p : RateLimiter) : Prop where
  config : p.config = l.config
  lastRefillTime : p.lastRefillTime ≤ l.lastRefillTime
  tokens : l.tokens ≤ p.level l.lastRefillTime

lemma Within.level_le {l p : RateLimiter} (h : Within l p) {now : ℤ}
    (hnow : l.lastRefillTime ≤ now) : l.level now ≤ p.level now := by
  rw [level_split p hnow, h.config, level]
  exact min_le_min_right _ (add_le_add_left h.tokens _)

lemma level_self {l : RateLimiter} (h : l.tokens ≤ l.config.burstSize.toNat) :
    l.level l.lastRefillTime = l.tokens := by
  simp [level, toSeconds, h]

lemma cost_nonneg (d : RateLimitDecision) : 0 ≤ cost d := by
  cases d <;> simp [cost]

/-- A call of another key only takes from the shared bucket. -/
lemma Within.foreign {l p : RateLimiter} (h : Within l p) (hnow : l.lastRefillTime ≤ c.now) :
    Within (l.step c).2 p where
  config := by rw [step_config, h.config]
  lastRefillTime := by
    rw [step_lastRefillTime]
    exact h.lastRefillTime.trans hnow
  tokens := by
    rw [step_lastRefillTime, step_tokens]
    have hle := h.level_le hnow
    have hcost := cost_nonneg (l.step c).1
    linarith

/-- A call of the key takes the same from both if it is answered in the same way. -/
lemma Within.own {l p : RateLimiter} (h : Within l p) (hnow : l.lastRefillTime ≤ c.now)
    (hd : (l.step c).1 = (p.step c).1) : Within (l.step c).2 (p.step c).2 where
  config := by rw [step_config, step_config, h.config]
  lastRefillTime := by rw [step_lastRefillTime, step_lastRefillTime]
  tokens := by
    have hlast : (l.step c).2.lastRefillTime = (p.step c).2.lastRefillTime := by
      rw [step_lastRefillTime, step_lastRefillTime]
    have hburst : (p.step c).2.tokens ≤ (p.step c).2.config.burstSize.toNat := by
      have hlevel : p.level c.now ≤ p.config.burstSize.toNat := min_le_right _ _
      have hcost := cost_nonneg (p.step c).1
      rw [step_tokens, step_config]
      linarith
    rw [hlast, level_self hburst, step_tokens, step_tokens, hd]
    have hle := h.level_le hnow
    linarith

/-- **The simulation.**  As long as the answers agree, the shared bucket holds no more. -/
theorem within_of_independent (h : Monotone now₀ calls)
    (hindep : RouteIndependent config now₀ key calls) :
    Within (final step (new config now₀) calls)
      (final step (new config now₀) (ownCalls key calls)) := by
  induction calls using List.reverseRecOn with
  | nil => exact ⟨rfl, le_rfl, (level_self le_rfl).ge⟩
  | append_singleton calls c ih =>
      obtain ⟨hcalls, hlast⟩ := routeIndependent_concat.mp hindep
      have hwithin := ih h.of_concat hcalls
      rw [final_concat, ownCalls_concat]
      by_cases hc : c.routeKey = key
      · rw [if_pos hc, final_concat]
        exact hwithin.own (h.lastRefillTime_le step_lastRefillTime) (hlast hc)
      · rw [if_neg hc, List.append_nil]
        exact hwithin.foreign (h.lastRefillTime_le step_lastRefillTime)

/-- While the answers agree, a key alone is refused exactly when it has used up a window. -/
lemma own_reject_iff (h : Monotone now₀ (calls ++ [c]))
    (hindep : RouteIndependent config now₀ key calls) (hc : c.routeKey = key) :
    ((final step (new config now₀) (ownCalls key calls)).step c).1 = .kReject ↔
      UsedUp config now₀ key calls c := by
  have hmono := h.own key
  rw [ownCalls_concat, if_pos hc] at hmono
  have hlen : (ownCalls key calls).length < (ownCalls key calls ++ [c]).length := by simp
  have hiff : (decisions config now₀ (ownCalls key calls ++ [c]))[(ownCalls key calls).length]?
      = some .kReject ↔ _ := reject_iff_window hmono hlen
  have hclock : clock (ownCalls key calls ++ [c]) (ownCalls key calls).length = c.now := by
    rw [clock_eq hlen, List.getElem_concat_length rfl]
  rw [decisions_concat, ← decisions_length config now₀ (ownCalls key calls),
    List.getElem?_concat_length, Option.some.injEq, decisions_length, hclock] at hiff
  rw [hiff, UsedUp]
  refine exists_congr fun i => and_congr_right fun _ => ?_
  rw [allowed_append (decisions_length _ _ _).ge, hindep]

/-- The two runs agree on a call exactly when it does not find an empty bucket without fault. -/
lemma same_decision_iff (h : Monotone now₀ (calls ++ [c]))
    (hindep : RouteIndependent config now₀ key calls) (hc : c.routeKey = key) :
    ((final step (new config now₀) calls).step c).1
        = ((final step (new config now₀) (ownCalls key calls)).step c).1 ↔
      ((final step (new config now₀) calls).level c.now < 1 → UsedUp config now₀ key calls c) := by
  rw [← step_reject_iff, ← own_reject_iff h hindep hc]
  have hle := (within_of_independent h.of_concat hindep).level_le
    (h.lastRefillTime_le step_lastRefillTime)
  constructor
  · intro hsame hreject
    exact hsame.symm.trans hreject
  · intro himp
    cases hd : ((final step (new config now₀) calls).step c).1 with
    | kReject => exact (himp hd).symm
    | kAllow =>
        cases hp : ((final step (new config now₀) (ownCalls key calls)).step c).1 with
        | kAllow => rfl
        | kReject =>
            rw [step_reject_iff] at hp
            rw [(step_reject_iff _ _).mpr (hle.trans_lt hp)] at hd
            exact absurd hd (by decide)

lemma routeIndependent_iff_ownFault (h : Monotone now₀ calls) :
    RouteIndependent config now₀ key calls ↔ OwnFault config now₀ key calls := by
  induction calls using List.reverseRecOn with
  | nil => exact ⟨fun _ => eachCall_nil _, fun _ => rfl⟩
  | append_singleton calls c ih =>
      rw [routeIndependent_concat, OwnFault, eachCall_concat, ← OwnFault, ← ih h.of_concat]
      refine and_congr_right ?_
      intro hindep
      exact forall_congr' fun hc => same_decision_iff h hindep hc

/-! ## When it holds -/

lemma ownFault_of_fits (h : Monotone now₀ calls)
    (hfits : ∀ j < calls.length, ∀ i ≤ j,
      ((j - i + 1 : ℕ) : ℚ) ≤ grant config (clock calls j - clock calls i)) :
    OwnFault config now₀ key calls := by
  rintro before c after rfl - hlevel
  have hk : before.length < (before ++ c :: after).length := by simp
  have hallow := allowed_of_fits h hfits hk
  have hreject : (decisions config now₀ (before ++ c :: after))[before.length]?
      = some .kReject := by
    rw [reject_iff hk, levelAt, stateAt, clock_eq hk]
    simpa using hlevel
  exact absurd (hallow.symm.trans hreject) (by decide)

end Run

end RateLimiter

end Netp2.Resilience
