import Netp2.Library.Ledger
import Netp2.Library.StepRun
import Netp2.Observability.Metrics

/-!
# What the totals count

Threads are bound to shards, several to one or none to any, and rebound; shards are created and, when
their last owner lets go of them, expire.  `MetricsProcess` is the registry with the binding of
every thread, and each step is one call of one thread.

The ledger of a run lists the `record_*` calls of bound threads, each under the shard that its thread
was bound to.  Shards agree with their entries (`balanced_reached`), so the totals are sums over the
entries for the shards that are left (`totals_eq_records`).  Everything else about the run, the
distribution over the shards and the order included, makes no difference.

A thread whose shard has expired has a dangling pointer in the source.  Here its calls have no
effect, and no statement about totals depends on that: what is counted in an expired shard is not
summed.
-/

namespace Netp2.Observability

open StepRun

/-! ## Counters and records -/

/-- The counters that are rendered. -/
inductive Counter where
  | accepts
  | requests
  | responses2xx
  | responses4xx
  | responses5xx
  | bytesIn
  | bytesOut
  deriving DecidableEq, Repr

def Counter.get : Counter → WorkerMetricsShard → UInt64
  | .accepts => (·.acceptsTotal)
  | .requests => (·.requestsTotal)
  | .responses2xx => (·.responses2xxTotal)
  | .responses4xx => (·.responses4xxTotal)
  | .responses5xx => (·.responses5xxTotal)
  | .bytesIn => (·.bytesInTotal)
  | .bytesOut => (·.bytesOutTotal)

/-- A call of `record_accept`, `record_request` or `record_response`. -/
inductive MetricsRecord where
  | accept
  | request (bytesIn : UInt64)
  | response (statusCode : ℤ) (bytesOut : UInt64)
  deriving DecidableEq, Repr

namespace MetricsRecord

def call (r : MetricsRegistry) (tlsWorkerShard : Option ℕ) : MetricsRecord → MetricsRegistry
  | .accept => r.recordAccept tlsWorkerShard
  | .request bytesIn => r.recordRequest tlsWorkerShard bytesIn.toNat
  | .response statusCode bytesOut => r.recordResponse tlsWorkerShard statusCode bytesOut.toNat

/-- What a record is worth for a counter. -/
def amount : Counter → MetricsRecord → ℕ
  | .accepts, .accept => 1
  | .requests, .request _ => 1
  | .bytesIn, .request bytesIn => bytesIn.toNat
  | .responses2xx, .response statusCode _ => if 200 ≤ statusCode ∧ statusCode < 300 then 1 else 0
  | .responses4xx, .response statusCode _ => if 400 ≤ statusCode ∧ statusCode < 500 then 1 else 0
  | .responses5xx, .response statusCode _ => if 500 ≤ statusCode ∧ statusCode < 600 then 1 else 0
  | .bytesOut, .response _ bytesOut => bytesOut.toNat
  | _, _ => 0

/-- What a record does to the shard of its thread. -/
def count : MetricsRecord → WorkerMetricsShard → WorkerMetricsShard
  | .accept, shard => { shard with acceptsTotal := shard.acceptsTotal + 1 }
  | .request bytesIn, shard => { shard with
      requestsTotal := shard.requestsTotal + 1
      bytesInTotal := shard.bytesInTotal + bytesIn.toNat.toUInt64 }
  | .response statusCode bytesOut, shard =>
      let shard := MetricsRegistry.countStatus statusCode shard
      { shard with bytesOutTotal := shard.bytesOutTotal + bytesOut.toNat.toUInt64 }

lemma call_eq (r : MetricsRegistry) (tlsWorkerShard : Option ℕ) (m : MetricsRecord) :
    m.call r tlsWorkerShard = r.onShard tlsWorkerShard m.count := by
  cases m <;> rfl

lemma toNat_add_one (n : UInt64) : (n + 1).toNat = (n.toNat + 1) % 2 ^ 64 :=
  UInt64.toNat_add n 1

lemma toNat_add_size (n b : UInt64) :
    (n + b.toNat.toUInt64).toNat = (n.toNat + b.toNat) % 2 ^ 64 := by
  have hb : b.toNat.toUInt64 = b := UInt64.ofNat_toNat
  rw [hb, UInt64.toNat_add]

lemma toNat_add_zero (n : UInt64) : n.toNat = (n.toNat + 0) % 2 ^ 64 :=
  (Nat.mod_eq_of_lt n.toNat_lt).symm

/-- **Counting adds the amount**, modulo the width of the counters. -/
lemma get_count (c : Counter) (m : MetricsRecord) (shard : WorkerMetricsShard) :
    (c.get (m.count shard)).toNat = ((c.get shard).toNat + amount c m) % 2 ^ 64 := by
  cases m with
  | accept => cases c <;> first | exact toNat_add_zero _ | exact toNat_add_one _
  | request bytesIn =>
      cases c <;>
        first | exact toNat_add_zero _ | exact toNat_add_one _ | exact toNat_add_size _ _
  | response statusCode bytesOut =>
      -- the source tests the classes one after the other; they exclude each other
      cases c <;> simp only [count, MetricsRegistry.countStatus, Counter.get, amount] <;>
        split_ifs <;>
        first
          | exact toNat_add_zero _
          | exact toNat_add_one _
          | exact toNat_add_size _ _
          | omega

end MetricsRecord

/-! ## The process -/

/-- The registry and the shard that each thread is bound to. -/
structure MetricsProcess where
  registry : MetricsRegistry := {}
  tlsWorkerShard : ℕ → Option ℕ := fun _ => none

/-- The steps.  A pointer to something that the registry has not created counts as `nullptr`;
`release` is the end of the last owner of a shard. -/
inductive MetricsAction where
  | createWorkerShard
  | bindThreadLocalShard (thread shard : ℕ)
  | unbindThreadLocalShard (thread : ℕ)
  | record (thread : ℕ) (m : MetricsRecord)
  | release (shard : ℕ)
  deriving DecidableEq, Repr

namespace MetricsProcess

def step (s : MetricsProcess) : MetricsAction → Unit × MetricsProcess
  | .createWorkerShard =>
      ((), { s with registry := { shards := s.registry.shards ++ [some {}] } })
  | .bindThreadLocalShard thread shard =>
      let pointer := if shard < s.registry.shards.length then some shard else none
      ((), { s with tlsWorkerShard := Function.update s.tlsWorkerShard thread pointer })
  | .unbindThreadLocalShard thread =>
      ((), { s with tlsWorkerShard := Function.update s.tlsWorkerShard thread none })
  | .record thread m => ((), { s with registry := m.call s.registry (s.tlsWorkerShard thread) })
  | .release shard =>
      ((), { s with registry := { shards := s.registry.shards.set shard none } })

abbrev MetricsEvent := Event MetricsProcess MetricsAction Unit

/-- What an event enters in the ledger: the record of a bound thread, under its shard. -/
def entry (e : MetricsEvent) : Option (ℕ × MetricsRecord) :=
  match e.input with
  | .record thread m => (e.pre.tlsWorkerShard thread).map fun shard => (shard, m)
  | _ => none

def ledger (h : List MetricsEvent) : List (ℕ × MetricsRecord) :=
  h.filterMap entry

/-- The threads point to shards of the registry, and the shards agree with the ledger. -/
structure Invariant (h : List MetricsEvent) (s : MetricsProcess) : Prop where
  bound : ∀ thread shard, s.tlsWorkerShard thread = some shard → shard < s.registry.shards.length
  balanced : ∀ c : Counter, Ledger.Balanced (2 ^ 64) (fun shard => (c.get shard).toNat)
    (MetricsRecord.amount c) s.registry.shards (ledger h)

lemma ledger_concat (h : List MetricsEvent) (e : MetricsEvent) :
    ledger (h ++ [e]) = ledger h ++ (entry e).toList :=
  Ledger.filterMap_concat entry h e

lemma invariant_new : Invariant [] {} where
  bound thread shard h := absurd h (by simp)
  balanced _ := Ledger.balanced_nil

/-- A step that is no record of a bound thread is not entered. -/
lemma ledger_concat_of_none {h : List MetricsEvent} {e : MetricsEvent} (he : entry e = none) :
    ledger (h ++ [e]) = ledger h := by
  rw [ledger_concat, he]
  exact List.append_nil _

lemma step_record_unbound {s : MetricsProcess} {thread : ℕ} (h : s.tlsWorkerShard thread = none)
    (m : MetricsRecord) : (s.step (.record thread m)).2 = s := by
  simp only [step, MetricsRecord.call_eq, h, MetricsRegistry.onShard]

lemma step_record_bound {s : MetricsProcess} {thread shard : ℕ}
    (h : s.tlsWorkerShard thread = some shard) (m : MetricsRecord) :
    (s.step (.record thread m)).2
      = { s with registry := { shards := s.registry.shards.modify shard (Option.map m.count) } } := by
  simp only [step, MetricsRecord.call_eq, h, MetricsRegistry.onShard]

variable {h : List MetricsEvent} {s : MetricsProcess}

/-- Threads are bound to shards that there are, and shards do not lose their places. -/
lemma Invariant.bound_step (hi : Invariant h s) (a : MetricsAction) :
    ∀ thread shard, (s.step a).2.tlsWorkerShard thread = some shard →
      shard < (s.step a).2.registry.shards.length := by
  intro thread' shard' htls
  cases a with
  | createWorkerShard =>
      refine (hi.bound thread' shard' htls).trans_le ?_
      simp [step]
  | bindThreadLocalShard thread shard =>
      by_cases hthread : thread' = thread
      · rw [step, hthread] at htls
        simp only [Function.update_self, Option.ite_none_right_eq_some, Option.some.injEq] at htls
        exact htls.2 ▸ htls.1
      · simp only [step, Function.update_of_ne hthread] at htls
        exact hi.bound thread' shard' htls
  | unbindThreadLocalShard thread =>
      by_cases hthread : thread' = thread
      · simp [step, hthread] at htls
      · simp only [step, Function.update_of_ne hthread] at htls
        exact hi.bound thread' shard' htls
  | record thread m =>
      cases hown : s.tlsWorkerShard thread with
      | none =>
          rw [step_record_unbound hown] at htls ⊢
          exact hi.bound thread' shard' htls
      | some shard =>
          rw [step_record_bound hown] at htls ⊢
          rw [List.length_modify]
          exact hi.bound thread' shard' htls
  | release shard =>
      simp only [step, List.length_set]
      exact hi.bound thread' shard' htls

/-- Each step is an operation of the ledger. -/
lemma Invariant.balanced_step (hi : Invariant h s) (a : MetricsAction) (c : Counter) :
    Ledger.Balanced (2 ^ 64) (fun shard => (c.get shard).toNat) (MetricsRecord.amount c)
      (s.step a).2.registry.shards (ledger (h ++ [event step s a])) := by
  cases a with
  | createWorkerShard =>
      rw [ledger_concat_of_none rfl]
      exact (hi.balanced c).push (by cases c <;> rfl)
  | bindThreadLocalShard thread shard =>
      rw [ledger_concat_of_none rfl]
      exact hi.balanced c
  | unbindThreadLocalShard thread =>
      rw [ledger_concat_of_none rfl]
      exact hi.balanced c
  | record thread m =>
      cases htls : s.tlsWorkerShard thread with
      | none =>
          have hentry : entry (event step s (.record thread m)) = none := by
            simp [entry, event, htls]
          rw [step_record_unbound htls, ledger_concat_of_none hentry]
          exact hi.balanced c
      | some shard =>
          have hentry : entry (event step s (.record thread m)) = some (shard, m) := by
            simp [entry, event, htls]
          rw [step_record_bound htls, ledger_concat, hentry]
          refine (hi.balanced c).enter (hi.bound thread shard htls) ?_
          intro a
          rw [m.get_count]
          exact Nat.mod_modEq _ _
  | release shard =>
      rw [ledger_concat_of_none rfl]
      exact (hi.balanced c).clear shard

/-- **The step lemma.** -/
theorem invariant_step (hi : Invariant h s) (a : MetricsAction) :
    Invariant (h ++ [event step s a]) (s.step a).2 where
  bound := hi.bound_step a
  balanced := hi.balanced_step a

def reached (actions : List MetricsAction) : MetricsProcess :=
  final step {} actions

def history (actions : List MetricsAction) : List MetricsEvent :=
  trace step {} actions

theorem invariant_reached (actions : List MetricsAction) :
    Invariant (history actions) (reached actions) :=
  invariant_trace invariant_new (fun _ _ a hi => invariant_step hi a) actions

/-- The records made by a thread that was bound to a shard that is alive at the end. -/
def counted (actions : List MetricsAction) : List MetricsRecord :=
  ((ledger (history actions)).filter fun e =>
    Ledger.IsLive (reached actions).registry.shards e.1).map Prod.snd

end MetricsProcess

/-! ## The totals -/

lemma toNat_foldl_add {α : Type} (f : α → UInt64) (l : List α) (n : UInt64) :
    (l.foldl (fun acc a => acc + f a) n).toNat
      = (n.toNat + (l.map fun a => (f a).toNat).sum) % 2 ^ 64 := by
  induction l generalizing n with
  | nil => exact MetricsRecord.toNat_add_zero n
  | cons a l ih =>
      rw [List.foldl_cons, ih, UInt64.toNat_add, List.map_cons, List.sum_cons, Nat.mod_add_mod,
        Nat.add_assoc]

lemma MetricsRegistry.toNat_total (r : MetricsRegistry) (counter : WorkerMetricsShard → UInt64) :
    (r.total counter).toNat
      = (r.shards.reduceOption.map fun shard => (counter shard).toNat).sum % 2 ^ 64 := by
  rw [total, toNat_foldl_add]
  exact congrArg (· % 2 ^ 64) (Nat.zero_add _)

/-- What is rendered is determined by the seven totals. -/
lemma MetricsRegistry.renderPrometheus_congr {r r' : MetricsRegistry}
    (h : ∀ c : Counter, r.total c.get = r'.total c.get) :
    r.renderPrometheus = r'.renderPrometheus := by
  have haccepts := h .accepts
  have hrequests := h .requests
  have h2xx := h .responses2xx
  have h4xx := h .responses4xx
  have h5xx := h .responses5xx
  have hin := h .bytesIn
  have hout := h .bytesOut
  simp only [Counter.get] at haccepts hrequests h2xx h4xx h5xx hin hout
  rw [renderPrometheus, renderPrometheus, haccepts, hrequests, h2xx, h4xx, h5xx, hin, hout]

open MetricsProcess

lemma toNat_total_reached (actions : List MetricsAction) (c : Counter) :
    ((reached actions).registry.total c.get).toNat
      = ((counted actions).map (MetricsRecord.amount c)).sum % 2 ^ 64 := by
  rw [MetricsRegistry.toNat_total, counted, List.map_map]
  exact Ledger.sum_live ((invariant_reached actions).balanced c)

/-- **Nothing is lost and nothing is counted twice.**  Each total is, modulo `2 ^ 64`, the sum over
the records made by a thread that was bound to a shard that is still alive.  An unbound thread
changes nothing; and what is rendered does not depend on how these records were ordered, nor on how
they were distributed over threads and shards. -/
theorem totals_eq_records (actions : List MetricsAction) :
    (∀ c : Counter, ((reached actions).registry.total c.get).toNat
      = ((counted actions).map (MetricsRecord.amount c)).sum % 2 ^ 64) ∧
    (∀ thread m, (reached actions).tlsWorkerShard thread = none →
      ((reached actions).step (.record thread m)).2 = reached actions) ∧
    (∀ actions', (counted actions).Perm (counted actions') →
      (reached actions).registry.renderPrometheus
        = (reached actions').registry.renderPrometheus) := by
  refine ⟨toNat_total_reached actions, fun thread m h => step_record_unbound h m, ?_⟩
  intro actions' hperm
  refine MetricsRegistry.renderPrometheus_congr ?_
  intro c
  refine UInt64.toNat_inj.mp ?_
  rw [toNat_total_reached, toNat_total_reached, (hperm.map _).sum_eq]

/-- Two threads and two shards, or one of each. -/
theorem totals_eq_records_twoThreads :
    (reached [.createWorkerShard, .createWorkerShard, .bindThreadLocalShard 0 0,
        .bindThreadLocalShard 1 1, .record 0 .accept,
        .record 1 (.request 7)]).registry.renderPrometheus
      = (reached [.createWorkerShard, .bindThreadLocalShard 0 0, .record 0 (.request 7),
          .record 0 .accept]).registry.renderPrometheus :=
  (totals_eq_records _).2.2 _ (by decide +kernel)

end Netp2.Observability
