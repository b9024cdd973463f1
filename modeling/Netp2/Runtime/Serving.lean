import Netp2.Library.StepRun
import Netp2.Observability.Aggregation
import Netp2.Runtime.Responses

/-!
# A worker and its connections

`accept_loop` and every `handle_connection` are coroutines on one executor.  A coroutine runs until
it waits for something, and then any other may run.  `Phase` says where a connection waits and what
it has by then; `advance` is the piece of `handle_connection` that runs when the waiting is over.

`RuntimeSpine` is the worker with its acceptor and all of its connections, and `step` is one piece
of one coroutine or a change from outside.  What is accepted, read and written, which executor
checks pass, and in which order all this happens is not up to the worker.

A connection that is served alone is served as in `handleConnection` (`serveAlone_eq`).
-/

namespace Netp2.Runtime

open ByteString StepRun Netp2.Observability Netp2.Protocol Netp2.Routing

/-- A response as `handle_connection` builds it, with one of the status codes that are sent. -/
structure BuiltResponse where
  response : Response
  statusCode_mem : response.statusCode ∈ [200, 400, 404, 405, 500]

/-- Where a connection waits.  After the read the request has been counted; `left` is the end of a
connection without a response, `written` the end with one. -/
inductive Phase where
  | spawned
  | reading
  | upstream (requestView : ByteString) (built : BuiltResponse)
  | posted (requestView : ByteString) (built : BuiltResponse)
  | writing (requestView : ByteString) (built : BuiltResponse)
  | written (requestView : ByteString) (built : BuiltResponse)
  | left (requestView : Option ByteString)

namespace Phase

/-- The request, once it is counted. -/
def requestView : Phase → Option ByteString
  | spawned | reading => none
  | upstream requestView _ | posted requestView _ | writing requestView _
  | written requestView _ => some requestView
  | left requestView => requestView

/-- The response, if it has been written without an error. -/
def writtenResponse : Phase → Option Response
  | written _ built => some built.response
  | _ => none

end Phase

namespace Worker

variable (L : Llhttp)

/-- The shard that the thread of the worker is bound to. -/
def shard (w : Worker) : Option WorkerMetricsShard :=
  w.tlsWorkerShard.bind fun i => w.metrics.shards[i]?.join

def recordAccept (w : Worker) : Worker :=
  { w with metrics := w.metrics.recordAccept w.tlsWorkerShard }

def build (w : Worker) (requestView : ByteString) : BuiltResponse :=
  ⟨w.respond L requestView, w.respond_statusCode_mem requestView⟩

/-- Whether `handle_connection` gets to `mock_upstream_call`, which waits once more. -/
def callsUpstream (w : Worker) (requestView : ByteString) : Bool :=
  let (parseResult, ctx, _) := (Http1Codec.new {} : Http1Codec L).parse requestView {}
  parseResult = .kSuccess ∧ ctx.method = ascii "GET" ∧ ctx.target ≠ kMetricsPath ∧
    (w.routeConfig.matchRoute ctx.host ctx.target (ascii "127.0.0.1")).matched

end Worker

/-- What a connection has been waiting for: its first turn, the read, a turn, the write. -/
inductive Wakeup where
  | start (socketOnExecutor coroutineOnExecutor : Bool)
  | read (arrivals : List Arrival)
  | resume (coroutineOnExecutor : Bool)
  | write (succeeds : Bool)
  deriving DecidableEq, Repr

/-- A piece of `handle_connection`: what it records, where the connection waits next, and the
worker. -/
def advance (L : Llhttp) (w : Worker) : Phase → Wakeup → Option MetricsRecord × Phase × Worker
  | .spawned, .start socketOnExecutor coroutineOnExecutor =>
      if w.enableExecutorAffinityChecks ∧ !socketOnExecutor then
        (none, .left none, w.countViolation)
      else if w.enableExecutorAffinityChecks ∧ !coroutineOnExecutor then
        (none, .left none, w.countViolation)
      else
        (none, .reading, w)
  | .reading, .read arrivals =>
      let (readError, requestView, _) := asyncReadSome arrivals
      if readError = some .other then
        (none, .left none, w)
      else
        let w := w.recordRequest requestView.length
        let built := w.build L requestView
        let phase := if w.callsUpstream L requestView then .upstream requestView built
          else .posted requestView built
        (some (.request requestView.length.toUInt64), phase, w)
  | .upstream requestView built, .resume _ => (none, .posted requestView built, w)
  | .posted requestView built, .resume coroutineOnExecutor =>
      if w.enableExecutorAffinityChecks ∧ !coroutineOnExecutor then
        (none, .left (some requestView), w.countViolation)
      else
        (none, .writing requestView built, w)
  | .writing requestView built, .write succeeds =>
      if succeeds then
        (some (.response built.response.statusCode built.response.payload.length.toUInt64),
          .written requestView built, w.recordResponse built.response)
      else
        (none, .left (some requestView), w)
  -- a connection does not react to what it does not wait for
  | phase, _ => (none, phase, w)

/-! ## One connection alone -/

section Alone

variable (L : Llhttp) (w : Worker)

/-- One wakeup after the other. -/
def serve (s : Phase × Worker) (wakeups : List Wakeup) : Phase × Worker :=
  wakeups.foldl (fun s wakeup => (advance L s.2 s.1 wakeup).2) s

lemma serve_cons (phase : Phase) (wakeup : Wakeup) (wakeups : List Wakeup) :
    serve L (phase, w) (wakeup :: wakeups) = serve L (advance L w phase wakeup).2 wakeups := rfl

lemma serve_left (requestView : Option ByteString) (wakeups : List Wakeup) :
    serve L (.left requestView, w) wakeups = (.left requestView, w) := by
  induction wakeups with
  | nil => rfl
  | cons wakeup wakeups ih => exact ih

/-- The check before the write. -/
lemma serve_posted (requestView : ByteString) (built : BuiltResponse) (coroutineOnExecutor : Bool)
    (wakeups : List Wakeup) :
    serve L (.posted requestView built, w) (.resume coroutineOnExecutor :: wakeups)
      = if w.enableExecutorAffinityChecks ∧ !coroutineOnExecutor then
          (.left (some requestView), w.countViolation)
        else
          serve L (.writing requestView built, w) wakeups := by
  rw [serve_cons, advance]
  split_ifs
  · exact serve_left L _ _ _
  · rfl

/-- From the response to the end, with or without a turn for the upstream. -/
lemma serve_built (upstream : Bool) (requestView : ByteString) (built : BuiltResponse)
    (coroutineOnExecutor succeeds : Bool) :
    serve L (if upstream then .upstream requestView built else .posted requestView built, w)
        [.resume coroutineOnExecutor, .resume coroutineOnExecutor, .write succeeds]
      = if w.enableExecutorAffinityChecks ∧ !coroutineOnExecutor then
          (.left (some requestView), w.countViolation)
        else if succeeds then
          (.written requestView built, w.recordResponse built.response)
        else
          (.left (some requestView), w) := by
  have hwriting : serve L (.writing requestView built, w) [.write succeeds]
      = if succeeds then (.written requestView built, w.recordResponse built.response)
        else (.left (some requestView), w) := by
    cases succeeds <;> rfl
  rw [← hwriting]
  -- after the upstream there is one turn left; otherwise the second one finds the write under way
  cases upstream with
  | false => exact serve_posted L w requestView built coroutineOnExecutor _
  | true => exact serve_posted L w requestView built coroutineOnExecutor _

/-- The wakeups of a connection that nothing comes between.  The second turn is for those that call
the upstream; the others do not wait for it. -/
def wakeups (conn : Connection) : List Wakeup :=
  [.start conn.socketOnExecutor conn.startsOnExecutor, .read conn.arrivals,
    .resume conn.endsOnExecutor, .resume conn.endsOnExecutor, .write conn.writeSucceeds]

/-- **A connection alone is served as a whole**: what the pieces do to the worker, and what they
write, is what `handleConnection` says. -/
theorem serve_wakeups (conn : Connection) :
    (serve L (.spawned, w) (wakeups conn)).2 = (w.handleConnection L conn).worker ∧
      (serve L (.spawned, w) (wakeups conn)).1.writtenResponse
        = if conn.writeSucceeds then (w.handleConnection L conn).response else none := by
  obtain ⟨arrivals, socketOnExecutor, startsOnExecutor, endsOnExecutor, writeSucceeds⟩ := conn
  simp only [wakeups, serve_cons, advance, Worker.handleConnection]
  by_cases hsocket : w.enableExecutorAffinityChecks ∧ !socketOnExecutor
  · rw [if_pos hsocket, if_pos hsocket, serve_left]
    exact ⟨rfl, (ite_self _).symm⟩
  by_cases hstart : w.enableExecutorAffinityChecks ∧ !startsOnExecutor
  · rw [if_neg hsocket, if_neg hsocket, if_pos hstart, if_pos hstart, serve_left]
    exact ⟨rfl, (ite_self _).symm⟩
  rw [if_neg hsocket, if_neg hsocket, if_neg hstart, if_neg hstart]
  simp only [serve_cons, advance]
  by_cases hread : (asyncReadSome arrivals).1 = some .other
  · rw [if_pos hread, if_pos hread, serve_left]
    exact ⟨rfl, (ite_self _).symm⟩
  rw [if_neg hread, if_neg hread, serve_built]
  -- what follows is about the worker that has recorded the request, on both sides
  generalize w.recordRequest (asyncReadSome arrivals).2.1.length = w
  by_cases hend : w.enableExecutorAffinityChecks ∧ !endsOnExecutor
  · rw [if_pos hend, if_pos hend]
    exact ⟨rfl, (ite_self _).symm⟩
  · rw [if_neg hend, if_neg hend]
    cases writeSucceeds <;> exact ⟨rfl, rfl⟩

end Alone

/-! ## The spine -/

/-- A worker with its acceptor and its connections, in the order in which they were accepted. -/
structure RuntimeSpine where
  worker : Worker
  isOpen : Bool := true
  accepting : Bool := true
  connections : List Phase := []

/-- The steps.  `elsewhere` is whatever other threads do to the registry; the shard of the worker
belongs to the worker. -/
inductive SpineAction where
  | stop
  | acceptFails (aborted : Bool)
  | accept (socketOnExecutor : Bool)
  | handle (k : ℕ) (wakeup : Wakeup)
  | reloadRouteConfig (snapshot : RouteSnapshot)
  | elsewhere (metrics : MetricsRegistry)

namespace RuntimeSpine

/-- `GatewayRuntime` creates a shard, binds the thread of the worker to it, and starts the spine. -/
def start (w : Worker) : RuntimeSpine where
  worker := { w with
    metrics := { shards := w.metrics.shards ++ [some {}] }
    tlsWorkerShard := some w.metrics.shards.length }

/-- A step, with the record that it makes and the connection that it makes it for. -/
def step (L : Llhttp) (s : RuntimeSpine) : SpineAction → Option (ℕ × MetricsRecord) × RuntimeSpine
  | .stop => (none, { s with isOpen := false })
  | .acceptFails aborted =>
      if s.accepting ∧ (aborted ∨ !s.isOpen) then (none, { s with accepting := false })
      else (none, s)
  | .accept socketOnExecutor =>
      if !s.accepting then
        (none, s)
      else if s.worker.enableExecutorAffinityChecks ∧ !socketOnExecutor then
        (none, { s with worker := s.worker.countViolation })
      else
        (some (s.connections.length, .accept),
          { s with
            worker := s.worker.recordAccept
            connections := s.connections ++ [.spawned] })
  | .handle k wakeup =>
      match s.connections[k]? with
      | none => (none, s)
      | some phase =>
          let (record, phase, w) := advance L s.worker phase wakeup
          (record.map (Prod.mk k),
            { s with worker := w, connections := s.connections.set k phase })
  | .reloadRouteConfig snapshot =>
      (none, { s with worker := { s.worker with routeConfig := snapshot } })
  | .elsewhere metrics =>
      let w := { s.worker with metrics := metrics }
      if w.shard = s.worker.shard then (none, { s with worker := w })
      else (none, s)

end RuntimeSpine

end Netp2.Runtime
