import Netp2.Library.ByteString

/-!
# Metrics

Every worker thread counts in a shard of its own; the registry keeps weak pointers to the shards
and sums them when it renders.

A shard is named by its place in the registry, and an expired one is `none`.  The thread-local
pointer of the calling thread is an argument, `none` for `nullptr`.
-/

namespace Netp2.Observability

open ByteString

structure WorkerMetricsShard where
  acceptsTotal : UInt64 := 0
  requestsTotal : UInt64 := 0
  responses2xxTotal : UInt64 := 0
  responses4xxTotal : UInt64 := 0
  responses5xxTotal : UInt64 := 0
  bytesInTotal : UInt64 := 0
  bytesOutTotal : UInt64 := 0
  deriving DecidableEq, Repr

structure MetricsRegistry where
  shards : List (Option WorkerMetricsShard) := []
  deriving DecidableEq, Repr

namespace MetricsRegistry

/-- Change the shard that the calling thread is bound to. -/
def onShard (r : MetricsRegistry) (tlsWorkerShard : Option ℕ)
    (f : WorkerMetricsShard → WorkerMetricsShard) : MetricsRegistry :=
  match tlsWorkerShard with
  | none => r
  | some i => { r with shards := r.shards.modify i (Option.map f) }

def recordAccept (r : MetricsRegistry) (tlsWorkerShard : Option ℕ) : MetricsRegistry :=
  r.onShard tlsWorkerShard fun shard => { shard with acceptsTotal := shard.acceptsTotal + 1 }

def recordRequest (r : MetricsRegistry) (tlsWorkerShard : Option ℕ) (bytesIn : ℕ) :
    MetricsRegistry :=
  r.onShard tlsWorkerShard fun shard => { shard with
    requestsTotal := shard.requestsTotal + 1
    bytesInTotal := shard.bytesInTotal + bytesIn.toUInt64 }

/-- The response counter of a status code; codes below 200 or from 300 to 399 have none. -/
def countStatus (statusCode : ℤ) (shard : WorkerMetricsShard) : WorkerMetricsShard :=
  if 200 ≤ statusCode ∧ statusCode < 300 then
    { shard with responses2xxTotal := shard.responses2xxTotal + 1 }
  else if 400 ≤ statusCode ∧ statusCode < 500 then
    { shard with responses4xxTotal := shard.responses4xxTotal + 1 }
  else if 500 ≤ statusCode ∧ statusCode < 600 then
    { shard with responses5xxTotal := shard.responses5xxTotal + 1 }
  else
    shard

def recordResponse (r : MetricsRegistry) (tlsWorkerShard : Option ℕ) (statusCode : ℤ)
    (bytesOut : ℕ) : MetricsRegistry :=
  r.onShard tlsWorkerShard fun shard =>
    let shard := countStatus statusCode shard
    { shard with bytesOutTotal := shard.bytesOutTotal + bytesOut.toUInt64 }

def total (r : MetricsRegistry) (counter : WorkerMetricsShard → UInt64) : UInt64 :=
  r.shards.reduceOption.foldl (fun acc shard => acc + counter shard) 0

/-- The lines of one counter: its help, its type, and its samples. -/
def renderCounter (name help : ByteString) (samples : List (ByteString × UInt64)) : ByteString :=
  ascii "# HELP " ++ name ++ ascii " " ++ help ++ ascii "\n"
    ++ ascii "# TYPE " ++ name ++ ascii " counter\n"
    ++ samples.flatMap fun (label, value) =>
        name ++ label ++ ascii " " ++ decimal value.toNat ++ ascii "\n"

def renderPrometheus (r : MetricsRegistry) : ByteString :=
  renderCounter (ascii "netp2_accepts_total") (ascii "Total accepted TCP connections.")
      [([], r.total (·.acceptsTotal))]
    ++ renderCounter (ascii "netp2_requests_total") (ascii "Total handled HTTP requests.")
      [([], r.total (·.requestsTotal))]
    ++ renderCounter (ascii "netp2_responses_total")
      (ascii "Total HTTP responses by status class.")
      [(ascii "\x7bcode=\"2xx\"\x7d", r.total (·.responses2xxTotal)),
        (ascii "\x7bcode=\"4xx\"\x7d", r.total (·.responses4xxTotal)),
        (ascii "\x7bcode=\"5xx\"\x7d", r.total (·.responses5xxTotal))]
    ++ renderCounter (ascii "netp2_bytes_in_total") (ascii "Total request bytes read.")
      [([], r.total (·.bytesInTotal))]
    ++ renderCounter (ascii "netp2_bytes_out_total") (ascii "Total response bytes written.")
      [([], r.total (·.bytesOutTotal))]

end MetricsRegistry

end Netp2.Observability
