import Netp2.Resilience.Outage

/-!
# How a breaker recovers

When what a breaker guards is up again, requests succeed, and no failure is recorded any more.  The
requests may overlap: `allow_request` and `record_success` come in any order, each for any request.

`recovery` says that requests are refused only until the open period is over, that none is refused
after one has been let through, and that the breaker is closed once as many successes are recorded
as the threshold asks for.
-/

namespace Netp2.Resilience

open StepRun

namespace CircuitBreaker

/-- What callers do while no request fails. -/
def Healthy (c : Call) : Prop :=
  c.op = .allowRequest ∨ c.op = .recordSuccess

instance (c : Call) : Decidable (Healthy c) :=
  inferInstanceAs (Decidable (_ ∨ _))

/-- The number of successes that are recorded. -/
def recordedSuccesses (calls : List Call) : ℕ :=
  calls.countP fun c => c.op = .recordSuccess

/-! ## Letting requests through -/

/-- Requests get through: the breaker is closed, or it has counted `n` successes at least and misses
some. -/
inductive Recovers (config : CircuitBreakerConfig) (n : ℕ) (b : CircuitBreaker) : Prop
  | closed (hs : b.state = .kClosed)
  | counts (hconfig : b.config = config) (hs : b.state = .kHalfOpen)
      (hn : n ≤ b.consecutiveSuccesses.toNat)
      (hlimit : b.consecutiveSuccesses.toNat < limit config.successThreshold)

variable {config : CircuitBreakerConfig} {b : CircuitBreaker} {n : ℕ}

lemma lt_openPeriod {x : ℤ} (hx : wholeSeconds x < config.openTimeout) :
    x < openPeriod config := by
  by_contra hge
  have hle := Int.tdiv_le_tdiv (show (0 : ℤ) < 10 ^ 9 by norm_num) (not_lt.mp hge)
  rw [openPeriod, Int.mul_tdiv_cancel _ (by norm_num)] at hle
  exact absurd hx (not_lt.mpr hle)

/-- **A breaker that recovers refuses nobody**, and comes closer to being closed. -/
lemma recovers_step (h : Recovers config n b) {c : Call} (hc : Healthy c) :
    (b.step c).1 ≠ some false ∧ Recovers config (n + recordedSuccesses [c]) (b.step c).2 := by
  obtain ⟨op, t⟩ := c
  have ht := transition_step b ⟨op, t⟩
  generalize (b.step ⟨op, t⟩).1 = o, (b.step ⟨op, t⟩).2 = b' at ht ⊢
  cases h with
  | closed hs =>
      cases ht with
      | admitClosed => exact ⟨by simp, .closed hs⟩
      | successClosed => exact ⟨by simp, .closed hs⟩
      | _ => simp_all [Healthy]
  | counts hconfig hs hn hlimit =>
      cases ht with
      | admitHalfOpen =>
          exact ⟨by simp, .counts hconfig hs (by simpa [recordedSuccesses] using hn) hlimit⟩
      | successHalfOpen _ hlt =>
          have hsucc := toNat_succ hlimit
          rw [hconfig, succ_lt_iff hlimit] at hlt
          refine ⟨by simp, .counts hconfig hs ?_ ?_⟩
          · simp only [recordedSuccesses, List.countP_singleton, hsucc]
            simpa using hn
          · simpa only [hsucc] using hlt
      | close => exact ⟨by simp, .closed rfl⟩
      | _ => simp_all [Healthy]

lemma Recovers.mono {m : ℕ} (h : Recovers config n b) (hm : m ≤ n) : Recovers config m b := by
  cases h with
  | closed hs => exact .closed hs
  | counts hconfig hs hn hlimit => exact .counts hconfig hs (hm.trans hn) hlimit

lemma recovers_run (h : Recovers config n b) {calls : List Call}
    (hcalls : ∀ c ∈ calls, Healthy c) :
    (∀ o ∈ outputs step b calls, o ≠ some false) ∧
      Recovers config (n + recordedSuccesses calls) (final step b calls) := by
  induction calls generalizing b n with
  | nil => exact ⟨by simp [outputs], h⟩
  | cons c calls ih =>
      obtain ⟨hanswer, hnext⟩ := recovers_step h (hcalls c List.mem_cons_self)
      obtain ⟨hanswers, hfinal⟩ := ih hnext fun d hd => hcalls d (List.mem_cons_of_mem c hd)
      have hcount : n + recordedSuccesses (c :: calls) =
          n + recordedSuccesses [c] + recordedSuccesses calls := by
        rw [← List.singleton_append, recordedSuccesses, List.countP_append, ← recordedSuccesses,
          ← recordedSuccesses, Nat.add_assoc]
      refine ⟨?_, hcount ▸ hfinal⟩
      intro o ho
      rcases List.mem_cons.mp ho with rfl | ho
      · exact hanswer
      · exact hanswers o ho

/-- With enough successes there is nothing left to count. -/
lemma Recovers.closed_of_le (h : Recovers config n b) (hn : limit config.successThreshold ≤ n) :
    b.state = .kClosed := by
  cases h with
  | closed hs => exact hs
  | counts _ _ hcounted hlimit => omega

/-! ## Until one is let through -/

/-- The breaker is as open as it was, or requests get through. -/
def Waits (config : CircuitBreakerConfig) (b b' : CircuitBreaker) : Prop :=
  (b'.state = .kOpen ∧ b' = b) ∨ Recovers config 0 b'

lemma waits_step {b' : CircuitBreaker} (hconfig : b.config = config) (h : Waits config b b')
    {c : Call} (hc : Healthy c) :
    Waits config b (b'.step c).2 ∧
      ((b'.step c).1 = some true → Recovers config 0 (b'.step c).2) ∧
      ((b'.step c).1 = some false →
        b.state = .kOpen ∧ c.now - b.openStartTime < openPeriod config) := by
  rcases h with ⟨hs, rfl⟩ | hrecovers
  · obtain ⟨op, t⟩ := c
    have ht := transition_step b' ⟨op, t⟩
    generalize (b'.step ⟨op, t⟩).1 = o, (b'.step ⟨op, t⟩).2 = next at ht ⊢
    cases ht with
    | refuse _ hearly =>
        rw [hconfig] at hearly
        exact ⟨.inl ⟨hs, rfl⟩, by simp, fun _ => ⟨hs, lt_openPeriod hearly⟩⟩
    | probe =>
        have hcounts : Recovers config 0 b'.transitionToHalfOpen :=
          .counts hconfig rfl (Nat.zero_le _) (limit_pos _)
        exact ⟨.inr hcounts, fun _ => hcounts, by simp⟩
    | successOpen => exact ⟨.inl ⟨hs, rfl⟩, by simp, by simp⟩
    | _ => simp_all [Healthy]
  · obtain ⟨hanswer, hnext⟩ := recovers_step hrecovers hc
    have hnext := hnext.mono (Nat.zero_le _)
    exact ⟨.inr hnext, fun _ => hnext, fun h => absurd h hanswer⟩

lemma waits_run (hconfig : b.config = config) (h : Waits config b b) {calls : List Call}
    (hcalls : ∀ c ∈ calls, Healthy c) : Waits config b (final step b calls) := by
  induction calls using List.reverseRecOn with
  | nil => exact h
  | append_singleton calls c ih =>
      rw [final_concat]
      have hbefore := ih fun d hd => hcalls d (List.mem_append_left _ hd)
      exact (waits_step hconfig hbefore (hcalls c (by simp))).1

lemma waits_reached (config : CircuitBreakerConfig) (before : List Call) :
    Waits config (reached config before) (reached config before) := by
  have hi : Invariant config _ (reached config before) := invariant_run config before
  cases hs : (reached config before).state with
  | kClosed => exact .inr (.closed hs)
  | kOpen => exact .inl ⟨hs, rfl⟩
  | kHalfOpen => exact .inr (.counts hi.config_eq hs (Nat.zero_le _) (hi.halfOpen hs).2.2.1)

/-- **A breaker recovers.**  After any history of calls, let there be only requests that do not fail,
however they overlap.  Look at any of the calls of `allow_request` among them:
* if it is refused, the breaker was open and its open period is not over;
* if it is let through, none is refused any more, and the breaker is closed once as many successes
  are recorded after it as the threshold asks for. -/
theorem recovery (config : CircuitBreakerConfig) (before waited rest : List Call) (t : ℤ)
    (hhealthy : ∀ c ∈ waited ++ ⟨.allowRequest, t⟩ :: rest, Healthy c) :
    let opened := reached config before
    let asked := final step opened waited
    ((asked.allowRequest t).1 = false →
      opened.state = .kOpen ∧ t - opened.openStartTime < openPeriod config) ∧
    ((asked.allowRequest t).1 = true →
      (∀ o ∈ outputs step (asked.allowRequest t).2 rest, o ≠ some false) ∧
      (limit config.successThreshold ≤ recordedSuccesses rest →
        (final step (asked.allowRequest t).2 rest).state = .kClosed)) := by
  intro opened asked
  have hi : Invariant config _ opened := invariant_run config before
  have hasked : Waits config opened asked := waits_run hi.config_eq (waits_reached config before)
    fun c hc => hhealthy c (List.mem_append_left _ hc)
  obtain ⟨-, hthrough, hrefused⟩ := waits_step hi.config_eq hasked
    (c := ⟨.allowRequest, t⟩) (.inl rfl)
  refine ⟨?_, ?_⟩
  · intro h
    exact hrefused (congrArg some h)
  · intro h
    have hrest : ∀ c ∈ rest, Healthy c := fun c hc =>
      hhealthy c (List.mem_append_right _ (List.mem_cons_of_mem _ hc))
    obtain ⟨hanswers, hfinal⟩ := recovers_run (hthrough (congrArg some h)) hrest
    refine ⟨hanswers, ?_⟩
    intro henough
    exact hfinal.closed_of_le (by omega)

/-- It opens, refuses a request, and lets two through after a second, which overlap. -/
theorem recovery_twoRequests :
    (final step ((final step (reached ⟨1, 2, 1⟩ [⟨.recordFailure, 7⟩])
        [⟨.allowRequest, 8⟩]).allowRequest 1000000007).2
      [⟨.allowRequest, 1000000008⟩, ⟨.recordSuccess, 1000000009⟩,
        ⟨.recordSuccess, 1000000010⟩]).state = .kClosed :=
  ((recovery ⟨1, 2, 1⟩ [⟨.recordFailure, 7⟩] [⟨.allowRequest, 8⟩]
    [⟨.allowRequest, 1000000008⟩, ⟨.recordSuccess, 1000000009⟩, ⟨.recordSuccess, 1000000010⟩]
    1000000007 (by decide)).2 (by decide +kernel)).2 (by decide +kernel)

end CircuitBreaker

end Netp2.Resilience
