import Netp2.Observability.Metrics
import Netp2.Protocol.Incremental
import Netp2.Routing.RouteSnapshot

/-!
# The runtime spine

`handle_connection` serves one connection: one read into a buffer of 8192 bytes, one parse, one
response, one write.  The listening side of the spine and the event loop are not modelled; what they
and the peer do to a connection is its environment (`Connection`).

The registry is rendered in one moment here.  The text of `/metrics` while others count is in
`Scraping.lean`.

`handleConnection_response` says what is sent as a function of the first arrival.
`response_of_first_piece` compares it with the response to the whole request, when a request arrives
in several pieces.
-/

namespace Netp2.Runtime

open ByteString Netp2.Observability Netp2.Protocol Netp2.Routing

/-! ## Responses -/

def kLegacyPhaseABody : ByteString := ascii "netp2 phase-a\n"
def kMockUpstreamBody : ByteString := ascii "mock upstream ok\n"
def kNotFoundBody : ByteString := ascii "route not found\n"
def kMethodNotAllowedBody : ByteString := ascii "method not allowed\n"
def kMetricsPath : ByteString := ascii "/metrics"

def mockUpstreamCall (path : ByteString) : ByteString :=
  if path = ascii "/" ∨ (ascii "/proxy").isPrefixOf path then
    if path = ascii "/" then kLegacyPhaseABody else kMockUpstreamBody
  else
    kMockUpstreamBody

/-- What `build_http_response` is called with. -/
structure Response where
  statusCode : ℕ
  reason : ByteString
  body : ByteString
  contentType : ByteString := ascii "text/plain; charset=utf-8"
  deriving DecidableEq, Repr

/-- `build_http_response`. -/
def Response.payload (r : Response) : ByteString :=
  ascii "HTTP/1.1 " ++ decimal r.statusCode ++ ascii " " ++ r.reason ++ ascii "\r\n"
    ++ ascii "Content-Length: " ++ decimal r.body.length ++ ascii "\r\n"
    ++ ascii "Connection: close\r\n"
    ++ ascii "Content-Type: " ++ r.contentType ++ ascii "\r\n"
    ++ ascii "\r\n"
    ++ r.body

/-! ## The environment of a connection -/

/-- What the socket has to deliver. -/
inductive Arrival where
  | data (bytes : ByteString)
  | eof
  | failure
  deriving DecidableEq, Repr

inductive ReadError where
  | eof
  | other
  deriving DecidableEq, Repr

def requestBufferSize : ℕ := 8192

/-- `async_read_some`: its error, the bytes read, and what is left to be read. -/
def asyncReadSome : List Arrival → Option ReadError × ByteString × List Arrival
  | [] => (some .eof, [], [])
  | .data bytes :: rest =>
      if bytes.length ≤ requestBufferSize then (none, bytes, rest)
      else (none, bytes.take requestBufferSize, .data (bytes.drop requestBufferSize) :: rest)
  | .eof :: rest => (some .eof, [], rest)
  | .failure :: rest => (some .other, [], rest)

/-- What the rest of the system does to one connection: what arrives, whether the executor checks
pass (that of the socket, and those of the coroutine before the read and before the write), and
whether the write succeeds. -/
structure Connection where
  arrivals : List Arrival
  socketOnExecutor : Bool := true
  startsOnExecutor : Bool := true
  endsOnExecutor : Bool := true
  writeSucceeds : Bool := true
  deriving DecidableEq, Repr

/-- What a connection uses of its worker: the configuration and the counter of the spine, the
published routes, and the metrics with the shard that the thread is bound to. -/
structure Worker where
  enableExecutorAffinityChecks : Bool := true
  affinityViolationCount : UInt64 := 0
  routeConfig : RouteSnapshot := {}
  metrics : MetricsRegistry := {}
  tlsWorkerShard : Option ℕ := none

structure Outcome where
  response : Option Response
  worker : Worker
  unread : List Arrival

/-- The snapshot that the constructor publishes. -/
def defaultSnapshot (S : PrioritySort) : RouteSnapshot :=
  finalized S
    [{ hostPattern := ascii "*"
       pathPrefix := ascii "/proxy/mock"
       target := { clusterName := ascii "mock-upstream" }
       priority := 10 },
     { hostPattern := ascii "*"
       pathPrefix := ascii "/"
       target := { clusterName := ascii "root-service" }
       priority := 100 }]

namespace Worker

/-! ## `handle_connection` -/

/-- The last branch of `handle_connection`, with the snapshot that it loaded. -/
def routeResponse (routeSnapshot : RouteSnapshot) (ctx : RequestContext) : Response :=
  let routeMatch := routeSnapshot.matchRoute ctx.host ctx.target (ascii "127.0.0.1")
  if routeMatch.matched then
    { statusCode := 200, reason := ascii "OK", body := mockUpstreamCall ctx.target }
  else
    { statusCode := 404, reason := ascii "Not Found", body := kNotFoundBody }

/-- The response to a parse result.  For `/metrics` nothing comes between the loads of the
rendering. -/
def dispatch (w : Worker) (parseResult : ParseError) (ctx : RequestContext) : Response :=
  if parseResult ≠ .kSuccess then
    { statusCode := parseErrorToHttpStatus parseResult
      reason := ascii "Bad Request"
      body := parseErrorToString parseResult }
  else if ctx.method ≠ ascii "GET" then
    { statusCode := 405, reason := ascii "Method Not Allowed", body := kMethodNotAllowedBody }
  else if ctx.target = kMetricsPath then
    { statusCode := 200
      reason := ascii "OK"
      body := w.metrics.renderPrometheus
      contentType := ascii "text/plain; version=0.0.4; charset=utf-8" }
  else
    routeResponse w.routeConfig ctx

/-- The response to the bytes in the buffer, parsed by a codec of its own. -/
def respond (L : Llhttp) (w : Worker) (requestView : ByteString) : Response :=
  let (parseResult, ctx, _) := (Http1Codec.new {} : Http1Codec L).parse requestView {}
  w.dispatch parseResult ctx

def recordRequest (w : Worker) (bytesIn : ℕ) : Worker :=
  { w with metrics := w.metrics.recordRequest w.tlsWorkerShard bytesIn }

def recordResponse (w : Worker) (r : Response) : Worker :=
  { w with
    metrics := w.metrics.recordResponse w.tlsWorkerShard r.statusCode r.payload.length }

def countViolation (w : Worker) : Worker :=
  { w with affinityViolationCount := w.affinityViolationCount + 1 }

def handleConnection (L : Llhttp) (w : Worker) (conn : Connection) : Outcome :=
  if w.enableExecutorAffinityChecks ∧ !conn.socketOnExecutor then
    ⟨none, w.countViolation, conn.arrivals⟩
  else if w.enableExecutorAffinityChecks ∧ !conn.startsOnExecutor then
    ⟨none, w.countViolation, conn.arrivals⟩
  else
    let (readError, requestView, unread) := asyncReadSome conn.arrivals
    if readError = some .other then
      ⟨none, w, unread⟩
    else
      let w := w.recordRequest requestView.length
      let response := w.respond L requestView
      if w.enableExecutorAffinityChecks ∧ !conn.endsOnExecutor then
        ⟨none, w.countViolation, unread⟩
      else if conn.writeSucceeds then
        ⟨some response, w.recordResponse response, unread⟩
      else
        ⟨some response, w, unread⟩

/-! ## One read, one response -/

/-- Whether the executor checks let a connection through. -/
def Admits (w : Worker) (conn : Connection) : Prop :=
  w.enableExecutorAffinityChecks = true →
    conn.socketOnExecutor = true ∧ conn.startsOnExecutor = true ∧ conn.endsOnExecutor = true

instance (w : Worker) (conn : Connection) : Decidable (w.Admits conn) :=
  inferInstanceAs (Decidable (_ → _))

/-- The response to a request that is read as a whole. -/
def responseTo (L : Llhttp) (w : Worker) (conn : Connection) (request : ByteString) :
    Option Response :=
  if w.Admits conn then some ((w.recordRequest request.length).respond L request) else none

/-- A connection is answered what was read, if it may run and the read does not fail. -/
lemma handleConnection_responseTo (L : Llhttp) (w : Worker) (conn : Connection)
    (hread : (asyncReadSome conn.arrivals).1 ≠ some .other) :
    (w.handleConnection L conn).response
      = w.responseTo L conn (asyncReadSome conn.arrivals).2.1 := by
  obtain ⟨arrivals, socketOnExecutor, startsOnExecutor, endsOnExecutor, writeSucceeds⟩ := conn
  simp only [handleConnection, responseTo, hread, if_false]
  cases hchecks : w.enableExecutorAffinityChecks with
  | false => cases writeSucceeds <;> simp [Admits, recordRequest, hchecks]
  | true =>
      cases socketOnExecutor <;> cases startsOnExecutor <;> cases endsOnExecutor <;>
        cases writeSucceeds <;> simp [Admits, recordRequest, hchecks]

/-- **Only the first arrival counts.** -/
theorem handleConnection_response (L : Llhttp) (w : Worker) (conn : Connection)
    {piece : ByteString} (hlen : piece.length ≤ requestBufferSize) (rest : List Arrival) :
    (w.handleConnection L { conn with arrivals := .data piece :: rest }).response
      = w.responseTo L conn piece := by
  have hread : asyncReadSome (.data piece :: rest) = (none, piece, rest) := by
    rw [asyncReadSome, if_pos hlen]
  rw [handleConnection_responseTo _ _ _ (by simp [hread]), hread]
  rfl

/-- A response depends on the method, the target and the host of the request, and on what has been
counted only if that is asked for. -/
lemma dispatch_recordRequest (w : Worker) (m n : ℕ) {r : ParseError} {ctx ctx' : RequestContext}
    (h : r = .kSuccess →
      ctx.method = ctx'.method ∧ ctx.target = ctx'.target ∧ ctx.host = ctx'.host) :
    ((w.recordRequest m).dispatch r ctx).statusCode
        = ((w.recordRequest n).dispatch r ctx').statusCode ∧
      ((r = .kSuccess → ctx'.target ≠ kMetricsPath) →
        (w.recordRequest m).dispatch r ctx = (w.recordRequest n).dispatch r ctx') := by
  by_cases hr : r = .kSuccess
  · obtain ⟨hmethod, htarget, hhost⟩ := h hr
    have hroute : routeResponse w.routeConfig ctx = routeResponse w.routeConfig ctx' := by
      rw [routeResponse, routeResponse, htarget, hhost]
    rw [dispatch, dispatch, hmethod, htarget]
    by_cases hget : ctx'.method = ascii "GET"
    · by_cases hm : ctx'.target = kMetricsPath
      · simp [hr, hget, hm]
      · simp [hr, hget, hm, recordRequest, hroute]
    · simp [hr, hget]
  · simp only [dispatch, hr, ne_eq, not_false_eq_true, if_true, implies_true, and_self]

/-- **A request that arrives in pieces.**  The response is the one to the first piece, whatever the
others are.  It is also the response to the whole request, but for the counters that `/metrics`
shows, when the head is in the first piece and nothing says how long the body is or there is none. -/
theorem response_of_first_piece {L : Llhttp} (hL : L.Incremental) (w : Worker) (conn : Connection)
    (piece : ByteString) (pieces : List ByteString) (hlen : piece.length ≤ requestBufferSize) :
    (w.handleConnection L { conn with arrivals := (piece :: pieces).map .data }).response
        = w.responseTo L conn piece ∧
      ∀ (urls : List ByteString) (ls : List HeaderLine) (bodies : List ByteString),
        (L.execute L.init (piece :: pieces).flatten).callbacks
            = headCallbacks urls ls ++ bodyCallbacks bodies →
        (L.execute L.init (piece :: pieces).flatten).errno.Accepted →
        .headersComplete ∈ (L.execute L.init piece).callbacks →
        (LastWrite.lastSome RequestContext.lengthOf
            (savedHeaders ([], []) (headCallbacks urls ls)) = none ∨ bodies = []) →
        (w.handleConnection L { conn with arrivals := (piece :: pieces).map .data }).response.map
            Response.statusCode
          = (w.responseTo L conn (piece :: pieces).flatten).map Response.statusCode ∧
        (urls.flatten ≠ kMetricsPath →
          (w.handleConnection L { conn with arrivals := (piece :: pieces).map .data }).response
            = w.responseTo L conn (piece :: pieces).flatten) := by
  have hfirst :
      (w.handleConnection L { conn with arrivals := (piece :: pieces).map .data }).response
        = w.responseTo L conn piece :=
    w.handleConnection_response L conn hlen (pieces.map .data)
  refine ⟨hfirst, ?_⟩
  intro urls ls bodies hwhole haccepted hhead hframe
  rw [hfirst]
  rw [List.flatten_cons] at hwhole haccepted ⊢
  obtain ⟨hresult, hfields⟩ := parse_of_head_received hL (Http1Codec.new {}) {} hwhole
    haccepted hhead hframe
  have hagree : ((Http1Codec.new {} : Http1Codec L).parse piece {}).1 = .kSuccess → _ :=
    fun hr => hfields (hresult.symm.trans hr)
  have hdispatch := dispatch_recordRequest w piece.length (piece ++ pieces.flatten).length
    fun hr => ⟨(hagree hr).1, (hagree hr).2.1.trans (hagree hr).2.2.1.symm, (hagree hr).2.2.2⟩
  simp only [responseTo, respond, ← hresult]
  split_ifs
  · refine ⟨congrArg some hdispatch.1, ?_⟩
    intro hne
    refine congrArg some (hdispatch.2 ?_)
    intro hr
    rwa [(hagree hr).2.2.1]
  · exact ⟨rfl, fun _ => rfl⟩

end Worker

def defaultWorker : Worker where
  routeConfig := defaultSnapshot (.insertion fun _ => false)

def chunkedGetHead : ByteString :=
  ascii "GET / HTTP/1.1\r\nHost: h\r\nTransfer-Encoding: chunked\r\n\r\n"

def chunkedGetLines : List HeaderLine :=
  [hostLine (ascii "h"), chunkedLine]

def llhttpOnChunkedGet : Llhttp :=
  .replay (ascii "GET")
    [(55, headCallbacks [ascii "/"] chunkedGetLines), (60, [.messageComplete])]

/-- The empty body of a chunked request arrives late. -/
theorem response_of_first_piece_chunked :
    (defaultWorker.handleConnection llhttpOnChunkedGet
        { arrivals := [chunkedGetHead, ascii "0\r\n\r\n"].map .data }).response
      = defaultWorker.responseTo llhttpOnChunkedGet { arrivals := [] }
          [chunkedGetHead, ascii "0\r\n\r\n"].flatten :=
  ((Worker.response_of_first_piece (incremental_replay _ _) defaultWorker { arrivals := [] }
    chunkedGetHead [ascii "0\r\n\r\n"] (by decide +kernel)).2 [ascii "/"] chunkedGetLines []
    (by decide +kernel) (Or.inl rfl) (by decide +kernel) (Or.inr rfl)).2 (by decide +kernel)

def requestRoot : ByteString :=
  ascii "GET / HTTP/1.1\r\nHost: h\r\n\r\n"

def llhttpOnRoot : Llhttp :=
  .replay (ascii "GET")
    [(1, [.messageBegin]), (6, [.url (ascii "/")]), (21, [.headerField (ascii "Host")]),
      (25, [.headerValue (ascii "h")]), (27, [.headersComplete, .messageComplete])]

/-- Cut behind its first line, `GET /` is answered with 400 instead of 200. -/
theorem cut_request_rejected :
    llhttpOnRoot.Incremental ∧
      (llhttpOnRoot.execute llhttpOnRoot.init requestRoot).callbacks
        = headCallbacks [ascii "/"] [hostLine (ascii "h")] ++ bodyCallbacks [] ∧
      [requestRoot.take 16, requestRoot.drop 16].flatten = requestRoot ∧
      (defaultWorker.handleConnection llhttpOnRoot
        { arrivals := [.data (requestRoot.take 16), .data (requestRoot.drop 16)] }).response.map
          Response.statusCode = some 400 ∧
      (defaultWorker.handleConnection llhttpOnRoot
        { arrivals := [.data requestRoot] }).response.map Response.statusCode = some 200 := by
  refine ⟨incremental_replay _ _, ?_, ?_, ?_, ?_⟩ <;> decide +kernel

end Netp2.Runtime
