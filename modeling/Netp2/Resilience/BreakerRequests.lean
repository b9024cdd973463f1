import Netp2.Resilience.CircuitBreaker

/-!
# Overlapping requests on one breaker

A request asks for admission and, if it is admitted, reports a result at some later time.  Requests
overlap, and a result carries no mark of its request: `record_success` counts in the half-open state
whoever calls it.  So a result that is late by a whole open period counts as a successful probe.

`probes_and_late_results` says what remains: when the breaker closes, the successes of the half-open
period come from different requests and are exactly as many as the threshold asks for, so those that
do not come from its probes are late results of earlier requests.
-/

namespace Netp2.Resilience

open StepRun

namespace CircuitBreaker

inductive RequestOp where
  | ask
  | succeed
  | fail
  deriving DecidableEq, Repr

/-- What a request does with the breaker, and what the clock reads then. -/
structure RequestCall (R : Type) where
  request : R
  op : RequestOp
  now : ℤ

variable {R : Type}

def RequestOp.toOp : RequestOp → Op
  | .ask => .allowRequest
  | .succeed => .recordSuccess
  | .fail => .recordFailure

lemma RequestOp.toOp_ne_reset (op : RequestOp) : op.toOp ≠ .reset := by
  cases op <;> decide

lemma RequestOp.toOp_eq_recordSuccess (op : RequestOp) :
    op.toOp = .recordSuccess ↔ op = .succeed := by
  cases op <;> decide

def RequestCall.toCall (c : RequestCall R) : Call :=
  ⟨c.op.toOp, c.now⟩

def breakerAfter (config : CircuitBreakerConfig) (calls : List (RequestCall R)) : CircuitBreaker :=
  reached config (calls.map RequestCall.toCall)

/-! ## Who was admitted and who has reported -/

/-- The requests that a breaker admits in the course of these calls. -/
def admitted (b : CircuitBreaker) : List (RequestCall R) → List R
  | [] => []
  | c :: cs =>
      (if c.op = .ask ∧ (b.allowRequest c.now).1 then [c.request] else [])
        ++ admitted (b.step c.toCall).2 cs

/-- The requests that make these calls. -/
def requestsOf (p : RequestOp → Bool) (calls : List (RequestCall R)) : List R :=
  (calls.filter fun c => p c.op).map RequestCall.request

def asks (calls : List (RequestCall R)) : List R :=
  requestsOf (· == .ask) calls

def reports (calls : List (RequestCall R)) : List R :=
  requestsOf (· != .ask) calls

def successes (calls : List (RequestCall R)) : List R :=
  requestsOf (· == .succeed) calls

/-- Every request asks once, and reports once at most, after it was admitted. -/
def Disciplined (config : CircuitBreakerConfig) (calls : List (RequestCall R)) : Prop :=
  EachCall (fun before c => (c.op = .ask → c.request ∉ asks before) ∧
    (c.op ≠ .ask → c.request ∉ reports before ∧ c.request ∈ admitted (new config) before)) calls

instance [DecidableEq R] (config : CircuitBreakerConfig) (calls : List (RequestCall R)) :
    Decidable (Disciplined config calls) :=
  inferInstanceAs (Decidable (EachCall _ _))

lemma requestsOf_append (p : RequestOp → Bool) (cs ds : List (RequestCall R)) :
    requestsOf p (cs ++ ds) = requestsOf p cs ++ requestsOf p ds := by
  rw [requestsOf, List.filter_append, List.map_append]
  rfl

lemma requestsOf_singleton (p : RequestOp → Bool) (c : RequestCall R) :
    requestsOf p [c] = if p c.op then [c.request] else [] := by
  cases hp : p c.op <;> simp [requestsOf, hp]

lemma requestsOf_sublist {p q : RequestOp → Bool} (hpq : ∀ op, p op → q op)
    (cs : List (RequestCall R)) : (requestsOf p cs).Sublist (requestsOf q cs) :=
  (List.monotone_filter_right cs fun c => hpq c.op).map _

/-- Who makes a kind of call only once is listed once. -/
lemma nodup_requestsOf {p : RequestOp → Bool} {calls : List (RequestCall R)}
    (h : EachCall (fun before c => p c.op → c.request ∉ requestsOf p before) calls) :
    (requestsOf p calls).Nodup := by
  induction calls using List.reverseRecOn with
  | nil => exact List.nodup_nil
  | append_singleton calls c ih =>
      obtain ⟨hcalls, hlast⟩ := eachCall_concat.mp h
      rw [requestsOf_append, requestsOf_singleton]
      split_ifs with hc
      · rw [← List.concat_eq_append]
        exact (ih hcalls).concat (hlast hc)
      · rw [List.append_nil]
        exact ih hcalls

lemma admitted_append (b : CircuitBreaker) (cs ds : List (RequestCall R)) :
    admitted b (cs ++ ds)
      = admitted b cs ++ admitted (final step b (cs.map RequestCall.toCall)) ds := by
  induction cs generalizing b with
  | nil => rfl
  | cons c cs ih =>
      rw [List.cons_append, admitted, ih, admitted, List.append_assoc]
      rfl

lemma admitted_sublist_asks : ∀ (b : CircuitBreaker) (cs : List (RequestCall R)),
    (admitted b cs).Sublist (asks cs)
  | _, [] => List.Sublist.slnil
  | b, c :: cs => by
      have hsplit : asks (c :: cs) = requestsOf (· == .ask) [c] ++ asks cs :=
        requestsOf_append _ [c] cs
      rw [admitted, hsplit, requestsOf_singleton]
      refine List.Sublist.append ?_ (admitted_sublist_asks _ cs)
      split_ifs with hadmitted hask
      · exact List.Sublist.refl _
      · exact absurd (beq_iff_eq.mpr hadmitted.1) hask
      · exact List.nil_sublist _
      · exact List.nil_sublist _

section

variable {config : CircuitBreakerConfig} {calls : List (RequestCall R)}

lemma Disciplined.nodup_admitted (h : Disciplined config calls) :
    (admitted (new config) calls).Nodup := by
  refine (admitted_sublist_asks _ calls).nodup (nodup_requestsOf (h.imp ?_))
  intro before c hcall hc
  exact hcall.1 (beq_iff_eq.mp hc)

lemma Disciplined.nodup_reports (h : Disciplined config calls) : (reports calls).Nodup := by
  refine nodup_requestsOf (h.imp ?_)
  intro before c hcall hc
  exact (hcall.2 (bne_iff_ne.mp hc)).1

/-- Whoever reports has been admitted. -/
lemma Disciplined.admitted_of_report (h : Disciplined config calls) {r : R}
    (hr : r ∈ reports calls) : r ∈ admitted (new config) calls := by
  obtain ⟨c, hc, rfl⟩ := List.mem_map.mp hr
  obtain ⟨hmem, hop⟩ := List.mem_filter.mp hc
  obtain ⟨before, after, rfl⟩ := List.append_of_mem hmem
  rw [admitted_append]
  exact List.mem_append_left _ ((h before c after rfl).2 (bne_iff_ne.mp hop)).2

end

/-- A list is split by two lists that are disjoint and cover it. -/
lemma length_filter_add_filter [DecidableEq R] {A B l : List R} (hd : A.Disjoint B)
    (hl : ∀ r ∈ l, r ∈ A ++ B) :
    (l.filter (· ∈ A)).length + (l.filter (· ∈ B)).length = l.length := by
  have hB : l.filter (· ∈ B) = l.filter fun r => !decide (r ∈ A) := by
    refine List.filter_congr ?_
    intro r hr
    rw [← decide_not, decide_eq_decide]
    constructor
    · exact fun hB hA => hd hA hB
    · exact (List.mem_append.mp (hl r hr)).resolve_left
  rw [hB]
  exact (List.length_eq_length_filter_add _).symm

/-! ## A half-open period -/

/-- The calls after `entry`, which took the breaker into the half-open state, found and left it
there. -/
structure HalfOpenPeriod (config : CircuitBreakerConfig) (calls before : List (RequestCall R))
    (entry : RequestCall R) (period : List (RequestCall R)) : Prop where
  split : calls = before ++ entry :: period
  entered : enters .kHalfOpen (event step (breakerAfter config before) entry.toCall) = true
  stays : ∀ e ∈ trace step (breakerAfter config (before ++ [entry]))
    (period.map RequestCall.toCall), e.pre.state = .kHalfOpen ∧ e.post.state = .kHalfOpen

section

variable {config : CircuitBreakerConfig} {calls before period : List (RequestCall R)}
  {entry : RequestCall R}

lemma breakerAfter_append (before after : List (RequestCall R)) :
    breakerAfter config (before ++ after)
      = final step (breakerAfter config before) (after.map RequestCall.toCall) := by
  rw [breakerAfter, List.map_append, reached, final_append]
  rfl

/-- A half-open breaker is in a period. -/
lemma exists_period (h : (breakerAfter config calls).state = .kHalfOpen) :
    ∃ before entry period, HalfOpenPeriod config calls before entry period := by
  induction calls using List.reverseRecOn with
  | nil => exact absurd h (show CircuitState.kClosed ≠ .kHalfOpen by decide)
  | append_singleton calls c ih =>
      rw [breakerAfter_append] at h
      by_cases hprev : (breakerAfter config calls).state = .kHalfOpen
      · obtain ⟨before, entry, period, hsplit, hentered, hstays⟩ := ih hprev
        refine ⟨before, entry, period ++ [c], by simp [hsplit], hentered, ?_⟩
        intro e he
        rw [List.map_append, List.map_singleton, trace_concat, List.mem_append,
          List.mem_singleton] at he
        rcases he with he | rfl
        · exact hstays e he
        · have hfinal : final step (breakerAfter config (before ++ [entry]))
              (period.map RequestCall.toCall) = breakerAfter config calls := by
            rw [← breakerAfter_append, hsplit, List.append_assoc]
            rfl
          rw [hfinal]
          exact ⟨hprev, h⟩
      · refine ⟨calls, c, [], rfl, ?_, fun e he => absurd he List.not_mem_nil⟩
        have hpost : (event step (breakerAfter config calls) c.toCall).post.state
            = .kHalfOpen := h
        rw [enters, hpost]
        simpa [event] using hprev

/-- The results of a kind since the entry. -/
lemma HalfOpenPeriod.onTrial_eq (h : HalfOpenPeriod config calls before entry period) (op : Op) :
    onTrial op (history config (calls.map RequestCall.toCall))
      = (period.map RequestCall.toCall).countP fun c => c.op == op := by
  obtain ⟨rfl, hentered, hstays⟩ := h
  have hno : ∀ e ∈ trace step (breakerAfter config (before ++ [entry]))
      (period.map RequestCall.toCall), enters .kHalfOpen e = false := by
    intro e he
    simp [enters, (hstays e he).1]
  have hhistory : history config ((before ++ entry :: period).map RequestCall.toCall)
      = history config (before.map RequestCall.toCall)
        ++ event step (breakerAfter config before) entry.toCall
          :: trace step (breakerAfter config (before ++ [entry]))
              (period.map RequestCall.toCall) := by
    rw [history, List.map_append, trace_append, List.map_cons, trace, breakerAfter_append]
    rfl
  rw [onTrial, hhistory, countSince_of_last hentered hno]
  exact countP_trace step (fun c : Call => c.op == op) _ _

lemma HalfOpenPeriod.no_failure (h : HalfOpenPeriod config calls before entry period) :
    (breakerAfter config calls).state = .kHalfOpen → ∀ c ∈ period, c.op ≠ .fail := by
  intro hstate c hc hop
  have hnone := ((invariant_run config (calls.map RequestCall.toCall)).halfOpen hstate).2.2.2
  rw [← history, h.onTrial_eq, List.countP_eq_zero] at hnone
  refine hnone c.toCall (List.mem_map_of_mem hc) ?_
  rw [RequestCall.toCall, hop]
  rfl

lemma HalfOpenPeriod.onTrial_success (h : HalfOpenPeriod config calls before entry period) :
    onTrial .recordSuccess (history config (calls.map RequestCall.toCall))
      = (successes period).length := by
  rw [h.onTrial_eq, List.countP_map, successes, requestsOf, List.length_map,
    ← List.countP_eq_length_filter]
  refine List.countP_congr ?_
  intro c _
  rw [Function.comp, beq_iff_eq, beq_iff_eq]
  exact c.op.toOp_eq_recordSuccess

/-- The call that closes the breaker is a success and completes the count. -/
lemma HalfOpenPeriod.closing_success (h : HalfOpenPeriod config calls before entry period)
    {last : RequestCall R} (hpre : (breakerAfter config calls).state = .kHalfOpen)
    (hpost : (breakerAfter config (calls ++ [last])).state = .kClosed) :
    last.op = .succeed ∧
      (successes (period ++ [last])).length = limit config.successThreshold := by
  rw [breakerAfter_append] at hpost
  obtain ⟨hop, hcount⟩ := (closes_iff (invariant_run config (calls.map RequestCall.toCall)) hpre
    last.toCall last.op.toOp_ne_reset).mp hpost
  have hsucceed : last.op = .succeed := last.op.toOp_eq_recordSuccess.mp hop
  rw [← history, h.onTrial_success] at hcount
  refine ⟨hsucceed, ?_⟩
  rw [successes, requestsOf_append, requestsOf_singleton, hsucceed, List.length_append]
  exact hcount

/-- Who was admitted by a period was admitted before it or in it, but not both. -/
lemma HalfOpenPeriod.admitted_eq (h : HalfOpenPeriod config calls before entry period) :
    admitted (new config) calls
      = admitted (new config) before
        ++ admitted (breakerAfter config before) (entry :: period) := by
  rw [h.split, admitted_append]
  rfl

end

/-- The successes of requests that were admitted at the entry or later. -/
def probeSuccesses [DecidableEq R] (config : CircuitBreakerConfig) (before : List (RequestCall R))
    (entry : RequestCall R) (period reported : List (RequestCall R)) : List R :=
  (successes reported).filter fun r =>
    r ∈ admitted (breakerAfter config before) (entry :: period)

/-- The successes of requests that were admitted before the entry. -/
def lateSuccesses [DecidableEq R] (config : CircuitBreakerConfig) (before : List (RequestCall R))
    (reported : List (RequestCall R)) : List R :=
  (successes reported).filter fun r => r ∈ admitted (new config) before

/-- **What closes the breaker.**  When a call takes the breaker from half-open to closed, no request
has failed since the entry to the half-open state, and those that have succeeded are different
requests, exactly as many as the threshold asks for.  Each of them was admitted, either at the entry
or later or before it: they are probes of this period and late results, and the two kinds add up. -/
theorem probes_and_late_results [DecidableEq R] (config : CircuitBreakerConfig)
    (calls : List (RequestCall R)) (last : RequestCall R)
    (hdisciplined : Disciplined config (calls ++ [last]))
    (hpre : (breakerAfter config calls).state = .kHalfOpen)
    (hpost : (breakerAfter config (calls ++ [last])).state = .kClosed) :
    ∃ before entry period, HalfOpenPeriod config calls before entry period ∧
      last.op = .succeed ∧ (∀ c ∈ period, c.op ≠ .fail) ∧
      (successes (period ++ [last])).Nodup ∧
      (successes (period ++ [last])).length = limit config.successThreshold ∧
      (∀ r ∈ successes (period ++ [last]),
        Xor (r ∈ admitted (breakerAfter config before) (entry :: period))
          (r ∈ admitted (new config) before)) ∧
      (probeSuccesses config before entry period (period ++ [last])).Nodup ∧
      (probeSuccesses config before entry period (period ++ [last])).length
          + (lateSuccesses config before (period ++ [last])).length
        = limit config.successThreshold := by
  obtain ⟨before, entry, period, hperiod⟩ := exists_period hpre
  obtain ⟨hsucceed, hcount⟩ := hperiod.closing_success hpre hpost
  have hsublist : (successes (period ++ [last])).Sublist (reports (calls ++ [last])) := by
    have hsuffix : reports (calls ++ [last])
        = reports (before ++ [entry]) ++ reports (period ++ [last]) := by
      rw [reports, reports, reports, ← requestsOf_append, hperiod.split]
      simp
    rw [hsuffix]
    refine (requestsOf_sublist ?_ _).trans (List.sublist_append_right _ _)
    intro op hop
    rw [beq_iff_eq.mp hop]
    decide
  have hadmitted : admitted (new config) (calls ++ [last])
      = admitted (new config) before
        ++ admitted (breakerAfter config before) (entry :: period) := by
    have hlast : ∀ b : CircuitBreaker, admitted b [last] = [] := by
      intro b
      simp [admitted, hsucceed]
    rw [admitted_append, hperiod.admitted_eq, hlast, List.append_nil]
  have hdisjoint : (admitted (new config) before).Disjoint
      (admitted (breakerAfter config before) (entry :: period)) :=
    List.disjoint_of_nodup_append (hadmitted ▸ hdisciplined.nodup_admitted)
  have hcovered : ∀ r ∈ successes (period ++ [last]), r ∈ admitted (new config) before
      ++ admitted (breakerAfter config before) (entry :: period) := by
    intro r hr
    rw [← hadmitted]
    exact hdisciplined.admitted_of_report (hsublist.subset hr)
  have hnodup := hsublist.nodup hdisciplined.nodup_reports
  refine ⟨before, entry, period, hperiod, hsucceed, hperiod.no_failure hpre, hnodup, hcount, ?_,
    hnodup.filter _, ?_⟩
  · intro r hr
    rcases List.mem_append.mp (hcovered r hr) with hlate | hprobe
    · exact .inr ⟨hlate, fun hprobe => hdisjoint hlate hprobe⟩
    · exact .inl ⟨hprobe, fun hlate => hdisjoint hlate hprobe⟩
  · rw [← hcount, Nat.add_comm]
    exact length_filter_add_filter hdisjoint hcovered

/-- Request `1` fails and opens the breaker while request `0` is still on its way. -/
def callsBeforeProbe : List (RequestCall ℕ) :=
  [⟨0, .ask, 0⟩, ⟨1, .ask, 1⟩, ⟨1, .fail, 2⟩]

def probeCall : RequestCall ℕ :=
  ⟨2, .ask, 30000000002⟩

def successOf (r : ℕ) : RequestCall ℕ :=
  ⟨r, .succeed, 30000000003⟩

/-- The probe succeeds. -/
theorem probes_and_late_results_probe :
    ∃ before entry period,
      HalfOpenPeriod ⟨1, 1, 30⟩ (callsBeforeProbe ++ [probeCall]) before entry period ∧
      (successes (period ++ [successOf 2])).length = 1 ∧
      (probeSuccesses ⟨1, 1, 30⟩ before entry period (period ++ [successOf 2])).length
        + (lateSuccesses ⟨1, 1, 30⟩ before (period ++ [successOf 2])).length = 1 := by
  obtain ⟨before, entry, period, hperiod, -, -, -, hlength, -, -, hcount⟩ :=
    probes_and_late_results ⟨1, 1, 30⟩ (callsBeforeProbe ++ [probeCall]) (successOf 2)
      (by decide +kernel) (by decide +kernel) (by decide +kernel)
  exact ⟨before, entry, period, hperiod, hlength, hcount⟩

/-- A result from before the failure closes the breaker, and no probe has reported. -/
theorem late_success_closes :
    Disciplined ⟨1, 1, 30⟩ (callsBeforeProbe ++ [probeCall] ++ [successOf 0]) ∧
      ((callsBeforeProbe ++ [probeCall] ++ [successOf 0]).map RequestCall.now).Pairwise (· ≤ ·) ∧
      HalfOpenPeriod ⟨1, 1, 30⟩ (callsBeforeProbe ++ [probeCall]) callsBeforeProbe probeCall [] ∧
      (breakerAfter ⟨1, 1, 30⟩ (callsBeforeProbe ++ [probeCall] ++ [successOf 0])).state
        = .kClosed ∧
      probeSuccesses ⟨1, 1, 30⟩ callsBeforeProbe probeCall [] [successOf 0] = [] := by
  refine ⟨by decide +kernel, by decide +kernel, ⟨rfl, by decide +kernel, ?_⟩, by decide +kernel,
    by decide +kernel⟩
  intro e he
  exact absurd he List.not_mem_nil

end CircuitBreaker

end Netp2.Resilience
