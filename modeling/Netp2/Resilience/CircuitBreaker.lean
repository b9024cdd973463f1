import Netp2.Library.StepRun

/-!
# The circuit breaker

Three states and two counters.  Results may be reported in any state and in any order, and the
clock is read by `allow_request` while the breaker is open and whenever the breaker opens.

* `Transition` says once what a call can do, with its guards.  `transition_step` is the only place
  that unfolds the operations.
* `Invariant` ties the fields to the history of the run: the counters count events of the trace.
  It is preserved by each transition, so `invariant_run` holds of every run.
* `counters_follow_history` and `open_for_timeout` are the two laws of the breaker.

Clock readings are nanoseconds; `open_timeout` is in seconds.
-/

namespace Netp2.Resilience

open StepRun

inductive CircuitState where
  | kClosed
  | kOpen
  | kHalfOpen
  deriving DecidableEq, Repr

structure CircuitBreakerConfig where
  failureThreshold : UInt32 := 5
  successThreshold : UInt32 := 2
  openTimeout : ℤ := 30
  deriving DecidableEq, Repr

structure CircuitBreaker where
  config : CircuitBreakerConfig
  state : CircuitState := .kClosed
  consecutiveFailures : UInt32 := 0
  consecutiveSuccesses : UInt32 := 0
  openStartTime : ℤ := 0
  deriving DecidableEq, Repr

namespace CircuitBreaker

def new (config : CircuitBreakerConfig) : CircuitBreaker where
  config := config

def transitionToOpen (b : CircuitBreaker) (now : ℤ) : CircuitBreaker :=
  { b with
    state := .kOpen
    openStartTime := now
    consecutiveFailures := 0
    consecutiveSuccesses := 0 }

def transitionToHalfOpen (b : CircuitBreaker) : CircuitBreaker :=
  { b with state := .kHalfOpen, consecutiveFailures := 0, consecutiveSuccesses := 0 }

def transitionToClosed (b : CircuitBreaker) : CircuitBreaker :=
  { b with state := .kClosed, consecutiveFailures := 0, consecutiveSuccesses := 0 }

/-- `duration_cast<seconds>` of a number of nanoseconds: it truncates towards zero. -/
def wholeSeconds (nanoseconds : ℤ) : ℤ :=
  nanoseconds.tdiv (10 ^ 9)

def allowRequest (b : CircuitBreaker) (now : ℤ) : Bool × CircuitBreaker :=
  if b.state = .kClosed then
    (true, b)
  else if b.state = .kOpen then
    let elapsed := wholeSeconds (now - b.openStartTime)
    if b.config.openTimeout ≤ elapsed then
      (true, b.transitionToHalfOpen)
    else
      (false, b)
  else
    (true, b)

def recordSuccess (b : CircuitBreaker) : CircuitBreaker :=
  if b.state = .kClosed then
    { b with consecutiveFailures := 0 }
  else if b.state = .kHalfOpen then
    let b := { b with consecutiveSuccesses := b.consecutiveSuccesses + 1 }
    if b.config.successThreshold ≤ b.consecutiveSuccesses then
      b.transitionToClosed
    else
      b
  else
    b

def recordFailure (b : CircuitBreaker) (now : ℤ) : CircuitBreaker :=
  if b.state = .kOpen then
    b
  else if b.state = .kClosed then
    let b := { b with consecutiveFailures := b.consecutiveFailures + 1 }
    if b.config.failureThreshold ≤ b.consecutiveFailures then
      b.transitionToOpen now
    else
      b
  else
    b.transitionToOpen now

def reset (b : CircuitBreaker) : CircuitBreaker :=
  { b with state := .kClosed, consecutiveFailures := 0, consecutiveSuccesses := 0 }

/-- The operations a caller has. -/
inductive Op where
  | allowRequest
  | recordSuccess
  | recordFailure
  | reset
  deriving DecidableEq, Repr

/-- An operation and what the clock reads during it. -/
structure Call where
  op : Op
  now : ℤ
  deriving DecidableEq, Repr

/-- One call as a step; only `allow_request` has an answer. -/
def step (b : CircuitBreaker) (c : Call) : Option Bool × CircuitBreaker :=
  match c.op with
  | .allowRequest => (some (b.allowRequest c.now).1, (b.allowRequest c.now).2)
  | .recordSuccess => (none, b.recordSuccess)
  | .recordFailure => (none, b.recordFailure c.now)
  | .reset => (none, b.reset)

/-! ## What one call can do -/

/-- **The transitions**, one for each operation, state and side of a threshold. -/
inductive Transition (b : CircuitBreaker) (t : ℤ) : Op → Option Bool → CircuitBreaker → Prop
  | admitClosed (h : b.state = .kClosed) : Transition b t .allowRequest (some true) b
  | refuse (h : b.state = .kOpen) (ht : wholeSeconds (t - b.openStartTime) < b.config.openTimeout) :
      Transition b t .allowRequest (some false) b
  | probe (h : b.state = .kOpen) (ht : b.config.openTimeout ≤ wholeSeconds (t - b.openStartTime)) :
      Transition b t .allowRequest (some true) b.transitionToHalfOpen
  | admitHalfOpen (h : b.state = .kHalfOpen) : Transition b t .allowRequest (some true) b
  | successClosed (h : b.state = .kClosed) :
      Transition b t .recordSuccess none { b with consecutiveFailures := 0 }
  | successOpen (h : b.state = .kOpen) : Transition b t .recordSuccess none b
  | successHalfOpen (h : b.state = .kHalfOpen)
      (hn : b.consecutiveSuccesses + 1 < b.config.successThreshold) :
      Transition b t .recordSuccess none
        { b with consecutiveSuccesses := b.consecutiveSuccesses + 1 }
  | close (h : b.state = .kHalfOpen)
      (hn : b.config.successThreshold ≤ b.consecutiveSuccesses + 1) :
      Transition b t .recordSuccess none b.transitionToClosed
  | failureClosed (h : b.state = .kClosed)
      (hn : b.consecutiveFailures + 1 < b.config.failureThreshold) :
      Transition b t .recordFailure none { b with consecutiveFailures := b.consecutiveFailures + 1 }
  | trip (h : b.state = .kClosed) (hn : b.config.failureThreshold ≤ b.consecutiveFailures + 1) :
      Transition b t .recordFailure none (b.transitionToOpen t)
  | failureOpen (h : b.state = .kOpen) : Transition b t .recordFailure none b
  | reopen (h : b.state = .kHalfOpen) : Transition b t .recordFailure none (b.transitionToOpen t)
  | reset : Transition b t .reset none b.reset

lemma transition_allowRequest (b : CircuitBreaker) (t : ℤ) :
    Transition b t .allowRequest (some (b.allowRequest t).1) (b.allowRequest t).2 := by
  cases h : b.state with
  | kClosed => simpa [allowRequest, h] using Transition.admitClosed h
  | kHalfOpen => simpa [allowRequest, h] using Transition.admitHalfOpen h
  | kOpen =>
      by_cases ht : b.config.openTimeout ≤ wholeSeconds (t - b.openStartTime)
      · simpa [allowRequest, h, ht] using Transition.probe h ht
      · simpa [allowRequest, h, ht] using Transition.refuse h (not_le.mp ht)

lemma transition_recordSuccess (b : CircuitBreaker) (t : ℤ) :
    Transition b t .recordSuccess none b.recordSuccess := by
  cases h : b.state with
  | kClosed => simpa [recordSuccess, h] using Transition.successClosed h
  | kOpen => simpa [recordSuccess, h] using Transition.successOpen h
  | kHalfOpen =>
      by_cases hn : b.config.successThreshold ≤ b.consecutiveSuccesses + 1
      · simpa [recordSuccess, h, hn, transitionToClosed] using Transition.close h hn
      · simpa [recordSuccess, h, hn] using Transition.successHalfOpen h (UInt32.not_le.mp hn)

lemma transition_recordFailure (b : CircuitBreaker) (t : ℤ) :
    Transition b t .recordFailure none (b.recordFailure t) := by
  cases h : b.state with
  | kOpen => simpa [recordFailure, h] using Transition.failureOpen h
  | kHalfOpen => simpa [recordFailure, h] using Transition.reopen h
  | kClosed =>
      by_cases hn : b.config.failureThreshold ≤ b.consecutiveFailures + 1
      · simpa [recordFailure, h, hn, transitionToOpen] using Transition.trip h hn
      · simpa [recordFailure, h, hn] using Transition.failureClosed h (UInt32.not_le.mp hn)

lemma transition_step (b : CircuitBreaker) :
    ∀ c : Call, Transition b c.now c.op (b.step c).1 (b.step c).2
  | ⟨.allowRequest, t⟩ => transition_allowRequest b t
  | ⟨.recordSuccess, t⟩ => transition_recordSuccess b t
  | ⟨.recordFailure, t⟩ => transition_recordFailure b t
  | ⟨.reset, _⟩ => Transition.reset

/-! ## Counting against a threshold

A threshold of `0` acts as `1`, because a counter is raised before it is compared. -/

def limit (threshold : UInt32) : ℕ :=
  max 1 threshold.toNat

section Counter

variable {n threshold : UInt32} (hn : n.toNat < limit threshold)

include hn

/-- A counter below its limit does not wrap around. -/
lemma toNat_succ : (n + 1).toNat = n.toNat + 1 := by
  have hmax : threshold.toNat < 2 ^ 32 := threshold.toNat_lt
  have hone : (1 : UInt32).toNat = 1 := rfl
  rw [limit] at hn
  rw [UInt32.toNat_add, hone]
  omega

lemma succ_lt_iff : n + 1 < threshold ↔ n.toNat + 1 < limit threshold := by
  rw [UInt32.lt_iff_toNat_lt, toNat_succ hn, limit]
  omega

lemma le_succ_iff : threshold ≤ n + 1 ↔ n.toNat + 1 = limit threshold := by
  rw [UInt32.le_iff_toNat_le, toNat_succ hn]
  rw [limit] at hn ⊢
  omega

end Counter

/-! ## The history of a run -/

abbrev BreakerEvent := Event CircuitBreaker Call (Option Bool)

def isOp (op : Op) (e : BreakerEvent) : Bool :=
  e.input.op == op

/-- The event takes the breaker into `st` from another state. -/
def enters (st : CircuitState) (e : BreakerEvent) : Bool :=
  e.pre.state != st && e.post.state == st

/-- The failures since the latest of construction, `reset`, the last entry to `kClosed` and the
last success. -/
def failuresInRow (h : List BreakerEvent) : ℕ :=
  countSince (fun e => isOp .reset e || enters .kClosed e || isOp .recordSuccess e)
    (isOp .recordFailure) h

/-- The results of one kind since the last entry to `kHalfOpen`. -/
def onTrial (op : Op) (h : List BreakerEvent) : ℕ :=
  countSince (enters .kHalfOpen) (isOp op) h

/-- **The fields against the history.** -/
structure Invariant (config : CircuitBreakerConfig) (h : List BreakerEvent) (b : CircuitBreaker) :
    Prop where
  config_eq : b.config = config
  closed : b.state = .kClosed → b.consecutiveFailures.toNat = failuresInRow h ∧
    b.consecutiveFailures.toNat < limit config.failureThreshold ∧ b.consecutiveSuccesses = 0
  opened : b.state = .kOpen → b.consecutiveFailures = 0 ∧ b.consecutiveSuccesses = 0
  halfOpen : b.state = .kHalfOpen → b.consecutiveFailures = 0 ∧
    b.consecutiveSuccesses.toNat = onTrial .recordSuccess h ∧
    b.consecutiveSuccesses.toNat < limit config.successThreshold ∧ onTrial .recordFailure h = 0

lemma limit_pos (threshold : UInt32) : 0 < limit threshold :=
  Nat.lt_of_lt_of_le Nat.one_pos (le_max_left _ _)

section

variable {config : CircuitBreakerConfig} {h : List BreakerEvent} {b b' : CircuitBreaker}

lemma Invariant.of_closed (hconfig : b.config = config) (hs : b.state = .kClosed)
    (hf : b.consecutiveFailures.toNat = failuresInRow h)
    (hlimit : b.consecutiveFailures.toNat < limit config.failureThreshold)
    (hz : b.consecutiveSuccesses = 0) : Invariant config h b where
  config_eq := hconfig
  closed _ := ⟨hf, hlimit, hz⟩
  opened ho := by rw [hs] at ho; cases ho
  halfOpen ho := by rw [hs] at ho; cases ho

lemma Invariant.of_open (hconfig : b.config = config) (hs : b.state = .kOpen)
    (hf : b.consecutiveFailures = 0) (hz : b.consecutiveSuccesses = 0) : Invariant config h b where
  config_eq := hconfig
  closed hc := by rw [hs] at hc; cases hc
  opened _ := ⟨hf, hz⟩
  halfOpen ho := by rw [hs] at ho; cases ho

lemma Invariant.of_halfOpen (hconfig : b.config = config) (hs : b.state = .kHalfOpen)
    (hf : b.consecutiveFailures = 0) (hz : b.consecutiveSuccesses.toNat = onTrial .recordSuccess h)
    (hlimit : b.consecutiveSuccesses.toNat < limit config.successThreshold)
    (hnone : onTrial .recordFailure h = 0) : Invariant config h b where
  config_eq := hconfig
  closed hc := by rw [hs] at hc; cases hc
  opened ho := by rw [hs] at ho; cases ho
  halfOpen _ := ⟨hf, hz, hlimit, hnone⟩

lemma invariant_new (config : CircuitBreakerConfig) : Invariant config [] (new config) :=
  .of_closed rfl rfl rfl (limit_pos _) rfl

lemma failuresInRow_concat (h : List BreakerEvent) (e : BreakerEvent) :
    failuresInRow (h ++ [e])
      = if isOp .reset e || enters .kClosed e || isOp .recordSuccess e then 0
        else failuresInRow h + if isOp .recordFailure e then 1 else 0 :=
  countSince_concat _ _ h e

lemma onTrial_concat (op : Op) (h : List BreakerEvent) (e : BreakerEvent) :
    onTrial op (h ++ [e])
      = if enters .kHalfOpen e then 0 else onTrial op h + if isOp op e then 1 else 0 :=
  countSince_concat _ _ h e

/-- **The step lemma**, by cases on the transition. -/
theorem invariant_transition {op : Op} {t : ℤ} {o : Option Bool} (hi : Invariant config h b)
    (ht : Transition b t op o b') : Invariant config (h ++ [⟨b, ⟨op, t⟩, o, b'⟩]) b' := by
  obtain ⟨rfl, hclosed, hopened, hhalf⟩ := hi
  cases ht with
  | admitClosed hs =>
      obtain ⟨hf, hlimit, hz⟩ := hclosed hs
      refine .of_closed rfl hs ?_ hlimit hz
      simp [failuresInRow_concat, isOp, enters, hs, hf]
  | refuse hs => exact .of_open rfl hs (hopened hs).1 (hopened hs).2
  | probe hs =>
      refine .of_halfOpen rfl rfl rfl ?_ (limit_pos _) ?_ <;>
        simp [onTrial_concat, enters, hs, transitionToHalfOpen]
  | admitHalfOpen hs =>
      obtain ⟨hf, hz, hlimit, hnone⟩ := hhalf hs
      refine .of_halfOpen rfl hs hf ?_ hlimit ?_ <;>
        simp [onTrial_concat, isOp, enters, hs, hz, hnone]
  | successClosed hs =>
      refine .of_closed rfl hs ?_ (limit_pos _) (hclosed hs).2.2
      simp [failuresInRow_concat, isOp]
  | successOpen hs => exact .of_open rfl hs (hopened hs).1 (hopened hs).2
  | successHalfOpen hs hn =>
      obtain ⟨hf, hz, hlimit, hnone⟩ := hhalf hs
      refine .of_halfOpen rfl hs hf ?_ ?_ ?_
      · rw [toNat_succ hlimit, hz]
        simp [onTrial_concat, isOp, enters, hs]
      · rw [toNat_succ hlimit]
        exact (succ_lt_iff hlimit).mp hn
      · simp [onTrial_concat, isOp, enters, hs, hnone]
  | close hs =>
      refine .of_closed rfl rfl ?_ (limit_pos _) rfl
      simp [failuresInRow_concat, isOp, transitionToClosed]
  | failureClosed hs hn =>
      obtain ⟨hf, hlimit, hz⟩ := hclosed hs
      refine .of_closed rfl hs ?_ ?_ hz
      · rw [toNat_succ hlimit, hf]
        simp [failuresInRow_concat, isOp, enters, hs]
      · rw [toNat_succ hlimit]
        exact (succ_lt_iff hlimit).mp hn
  | trip hs => exact .of_open rfl rfl rfl rfl
  | failureOpen hs => exact .of_open rfl hs (hopened hs).1 (hopened hs).2
  | reopen hs => exact .of_open rfl rfl rfl rfl
  | reset =>
      refine .of_closed rfl rfl ?_ (limit_pos _) rfl
      simp [failuresInRow_concat, isOp, CircuitBreaker.reset]

lemma invariant_run (config : CircuitBreakerConfig) (calls : List Call) :
    Invariant config (trace step (new config) calls) (final step (new config) calls) :=
  invariant_trace (invariant_new config)
    (fun _ b c hi => invariant_transition hi (transition_step b c)) calls

/-! ## The moves of the breaker, read off the history -/

lemma leaves_closed_iff (hi : Invariant config h b) (hs : b.state = .kClosed) (c : Call) :
    (b.step c).2.state ≠ .kClosed ↔
      c.op = .recordFailure ∧ failuresInRow h + 1 = limit config.failureThreshold := by
  obtain ⟨rfl, hclosed, -, -⟩ := hi
  obtain ⟨hf, hlimit, -⟩ := hclosed hs
  rw [← hf, ← le_succ_iff hlimit]
  obtain ⟨op, t⟩ := c
  have ht := transition_step b ⟨op, t⟩
  generalize (b.step ⟨op, t⟩).1 = o, (b.step ⟨op, t⟩).2 = b' at ht
  cases ht <;> simp_all [transitionToOpen, CircuitBreaker.reset]

lemma closes_iff (hi : Invariant config h b) (hs : b.state = .kHalfOpen) (c : Call)
    (hc : c.op ≠ .reset) :
    (b.step c).2.state = .kClosed ↔
      c.op = .recordSuccess ∧ onTrial .recordSuccess h + 1 = limit config.successThreshold := by
  obtain ⟨rfl, -, -, hhalf⟩ := hi
  obtain ⟨-, hz, hlimit, -⟩ := hhalf hs
  rw [← hz, ← le_succ_iff hlimit]
  obtain ⟨op, t⟩ := c
  have ht := transition_step b ⟨op, t⟩
  generalize (b.step ⟨op, t⟩).1 = o, (b.step ⟨op, t⟩).2 = b' at ht
  cases ht <;> simp_all [transitionToOpen, transitionToClosed]

/-- A move from open to closed is a reset. -/
lemma reset_of_open_to_closed (hs : b.state = .kOpen) (c : Call)
    (hc : (b.step c).2.state = .kClosed) : c.op = .reset := by
  obtain ⟨op, t⟩ := c
  have ht := transition_step b ⟨op, t⟩
  generalize (b.step ⟨op, t⟩).1 = o, (b.step ⟨op, t⟩).2 = b' at ht hc
  cases ht <;> simp_all [transitionToHalfOpen]

def reached (config : CircuitBreakerConfig) (calls : List Call) : CircuitBreaker :=
  final step (new config) calls

def history (config : CircuitBreakerConfig) (calls : List Call) : List BreakerEvent :=
  trace step (new config) calls

/-- **State and counters are determined by the history.**  In the state reached by any run the
counters count the events of the run, below their limits; and the next call moves the breaker out
of `kClosed`, or from `kHalfOpen` back to it, exactly when it completes the count. -/
theorem counters_follow_history (config : CircuitBreakerConfig) (calls : List Call) :
    ((reached config calls).state = .kClosed →
      (reached config calls).consecutiveFailures.toNat = failuresInRow (history config calls) ∧
      (reached config calls).consecutiveFailures.toNat < limit config.failureThreshold ∧
      (reached config calls).consecutiveSuccesses = 0) ∧
    ((reached config calls).state = .kOpen →
      (reached config calls).consecutiveFailures = 0 ∧
      (reached config calls).consecutiveSuccesses = 0) ∧
    ((reached config calls).state = .kHalfOpen →
      (reached config calls).consecutiveFailures = 0 ∧
      (reached config calls).consecutiveSuccesses.toNat
        = onTrial .recordSuccess (history config calls) ∧
      (reached config calls).consecutiveSuccesses.toNat < limit config.successThreshold ∧
      onTrial .recordFailure (history config calls) = 0) ∧
    (∀ c : Call, (reached config calls).state = .kClosed →
      (((reached config calls).step c).2.state ≠ .kClosed ↔
        c.op = .recordFailure ∧
          failuresInRow (history config calls) + 1 = limit config.failureThreshold)) ∧
    (∀ c : Call, (reached config calls).state = .kHalfOpen → c.op ≠ .reset →
      (((reached config calls).step c).2.state = .kClosed ↔
        c.op = .recordSuccess ∧
          onTrial .recordSuccess (history config calls) + 1 = limit config.successThreshold)) ∧
    (∀ c : Call, (reached config calls).state = .kOpen →
      ((reached config calls).step c).2.state = .kClosed → c.op = .reset) := by
  have hi : Invariant config (history config calls) (reached config calls) :=
    invariant_run config calls
  exact ⟨hi.closed, hi.opened, hi.halfOpen, fun c hs => leaves_closed_iff hi hs c,
    fun c hs hc => closes_iff hi hs c hc, fun c hs hc => reset_of_open_to_closed hs c hc⟩

/-! ## The open window -/

/-- Truncation to whole seconds does not move the boundary: it lies on a whole second. -/
lemma le_wholeSeconds_iff {x : ℤ} (hx : 0 ≤ x) (timeout : ℤ) :
    timeout ≤ wholeSeconds x ↔ timeout * 10 ^ 9 ≤ x := by
  rw [wholeSeconds, Int.tdiv_eq_ediv_of_nonneg hx, Int.le_ediv_iff_mul_le (by norm_num)]

/-- A breaker that has just opened has noted the time. -/
lemma eq_transitionToOpen {c : Call} (he : enters .kOpen (event step b c) = true) :
    (b.step c).2 = b.transitionToOpen c.now := by
  obtain ⟨op, t⟩ := c
  have ht := transition_step b ⟨op, t⟩
  simp only [enters, event] at he
  generalize (b.step ⟨op, t⟩).1 = o, (b.step ⟨op, t⟩).2 = b' at ht he
  cases ht <;> simp_all [transitionToHalfOpen, transitionToClosed, CircuitBreaker.reset]

/-- The call neither resets the breaker nor asks for admission when its time is up. -/
def Quiet (b : CircuitBreaker) (c : Call) : Prop :=
  c.op ≠ .reset ∧
    (c.op = .allowRequest → wholeSeconds (c.now - b.openStartTime) < b.config.openTimeout)

lemma step_quiet (hs : b.state = .kOpen) {c : Call} (hq : Quiet b c) :
    (b.step c).2 = b ∧ (c.op = .allowRequest → (b.step c).1 = some false) := by
  obtain ⟨hreset, hearly⟩ := hq
  obtain ⟨op, t⟩ := c
  have ht := transition_step b ⟨op, t⟩
  generalize (b.step ⟨op, t⟩).1 = o, (b.step ⟨op, t⟩).2 = b' at ht ⊢
  cases ht with
  | probe _ ht => exact absurd (hearly rfl) (not_lt.mpr ht)
  | _ => simp_all

/-- **The run lemma** for quiet calls: nothing moves and nobody is admitted. -/
theorem trace_quiet (hs : b.state = .kOpen) : ∀ quiet : List Call, (∀ c ∈ quiet, Quiet b c) →
    final step b quiet = b ∧
      ∀ e ∈ trace step b quiet, e.post = b ∧ (e.input.op = .allowRequest → e.output = some false)
  | [], _ => ⟨rfl, fun _ he => nomatch he⟩
  | c :: quiet, hq => by
      obtain ⟨hpost, hout⟩ := step_quiet hs (hq c List.mem_cons_self)
      have hrest : ∀ c' ∈ quiet, Quiet b c' := fun c' hc' => hq c' (List.mem_cons_of_mem c hc')
      obtain ⟨hfinal, htrace⟩ := trace_quiet hs quiet hrest
      rw [final, trace, hpost]
      refine ⟨hfinal, ?_⟩
      intro e he
      rcases List.mem_cons.mp he with rfl | he
      · exact ⟨hpost, hout⟩
      · exact htrace e he

/-- **An open breaker stays shut for exactly its timeout.**  Let `entry` be the last call that took
the breaker into `kOpen`, and let no call since then reset it or ask for admission at or after the
end of the timeout.  Then it is still open, with the same start time, and has refused everyone; and
the first request at or after the end of the timeout is admitted as a probe. -/
theorem open_for_timeout (config : CircuitBreakerConfig) (htimeout : 0 ≤ config.openTimeout)
    (before quiet : List Call) (entry : Call)
    (hclock : ((before ++ entry :: quiet).map Call.now).Pairwise (· ≤ ·))
    (hentry : enters .kOpen (event step (reached config before) entry) = true)
    (hquiet : ∀ c ∈ quiet, c.op ≠ .reset ∧
      ¬(c.op = .allowRequest ∧ config.openTimeout * 10 ^ 9 ≤ c.now - entry.now)) :
    (reached config (before ++ entry :: quiet)).state = .kOpen ∧
    (reached config (before ++ entry :: quiet)).openStartTime = entry.now ∧
    (∀ e ∈ trace step (reached config (before ++ [entry])) quiet,
      e.post.state = .kOpen ∧ e.post.openStartTime = entry.now ∧
        (e.input.op = .allowRequest → e.output = some false)) ∧
    (∀ t, config.openTimeout * 10 ^ 9 ≤ t - entry.now →
      ((reached config (before ++ entry :: quiet)).step ⟨.allowRequest, t⟩).1 = some true ∧
      ((reached config (before ++ entry :: quiet)).step ⟨.allowRequest, t⟩).2.state
        = .kHalfOpen) := by
  have hopened : reached config (before ++ [entry])
      = (reached config before).transitionToOpen entry.now := by
    rw [reached, final_concat]
    exact eq_transitionToOpen hentry
  have hconfig : (reached config (before ++ [entry])).config = config :=
    (invariant_run config _).config_eq
  generalize hb : reached config (before ++ [entry]) = b at hopened hconfig ⊢
  have hs : b.state = .kOpen := by rw [hopened]; rfl
  have hstart : b.openStartTime = entry.now := by rw [hopened]; rfl
  have hq : ∀ c ∈ quiet, Quiet b c := by
    intro c hc
    have hle : entry.now ≤ c.now := by
      rw [List.map_append, List.map_cons] at hclock
      have htail := (List.pairwise_append.mp hclock).2.1
      exact List.rel_of_pairwise_cons htail (List.mem_map_of_mem hc)
    refine ⟨(hquiet c hc).1, ?_⟩
    intro hop
    rw [hstart, hconfig]
    refine not_le.mp fun hle' => (hquiet c hc).2 ⟨hop, ?_⟩
    exact (le_wholeSeconds_iff (by omega) _).mp hle'
  obtain ⟨hfinal, htrace⟩ := trace_quiet hs quiet hq
  have hreached : reached config (before ++ entry :: quiet) = b := by
    rw [List.append_cons, reached, final_append, ← reached, hb, hfinal]
  rw [hreached]
  refine ⟨hs, hstart, ?_, ?_⟩
  · intro e he
    obtain ⟨hpost, hout⟩ := htrace e he
    rw [hpost]
    exact ⟨hs, hstart, hout⟩
  · intro t ht
    have htime : config.openTimeout ≤ wholeSeconds (t - entry.now) :=
      (le_wholeSeconds_iff (le_trans (by positivity) ht) _).mpr ht
    simp [step, allowRequest, hs, hstart, hconfig, htime, transitionToHalfOpen]

/-- One failure opens this breaker for a second: a late success does not help, a request after
999999999 ns is refused and one after a full second is admitted. -/
theorem open_for_timeout_oneSecond :
    ((reached ⟨1, 1, 1⟩ [⟨.recordFailure, 7⟩, ⟨.recordSuccess, 8⟩, ⟨.allowRequest, 1000000006⟩]).step
      ⟨.allowRequest, 1000000007⟩).2.state = .kHalfOpen :=
  ((open_for_timeout ⟨1, 1, 1⟩ (by decide) [] [⟨.recordSuccess, 8⟩, ⟨.allowRequest, 1000000006⟩]
    ⟨.recordFailure, 7⟩ (by simp) (by decide) (by simp)).2.2.2 1000000007 (by norm_num)).2

end

end CircuitBreaker

end Netp2.Resilience
