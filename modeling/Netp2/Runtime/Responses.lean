import Netp2.Protocol.HeaderLimits
import Netp2.Runtime.Spine

/-!
# The status of a response

`respond_statusCode_mem` lists the status codes that `handle_connection` can send.  431 is not among
them, although `parse_error_to_http_status` gives it to both header limits: a request that crosses
one is answered with 500 (`limits_reported_iff`).
-/

namespace Netp2.Runtime

open ByteString Netp2.Protocol

namespace Worker

variable {L : Llhttp} (w : Worker) (conn : Connection)

lemma routeResponse_statusCode_mem (snapshot : Routing.RouteSnapshot) (ctx : RequestContext) :
    (routeResponse snapshot ctx).statusCode ∈ [200, 404] := by
  simp only [routeResponse]
  split_ifs <;> simp

/-- **The status codes that are sent.** -/
theorem respond_statusCode_mem (requestView : ByteString) :
    (w.respond L requestView).statusCode ∈ [200, 400, 404, 405, 500] := by
  have hparse := (Http1Codec.new {} : Http1Codec L).parse_mem requestView {}
  rw [respond]
  generalize (Http1Codec.new {} : Http1Codec L).parse requestView {} = parsed at hparse ⊢
  obtain ⟨parseResult, ctx, codec⟩ := parsed
  have hstatus : parseErrorToHttpStatus parseResult ∈ [200, 400, 404, 405, 500] := by
    simp only [List.mem_cons, List.not_mem_nil, or_false] at hparse
    rcases hparse with rfl | rfl | rfl | rfl | rfl <;> decide
  have hroute := routeResponse_statusCode_mem w.routeConfig ctx
  simp only [dispatch]
  split_ifs
  · exact hstatus
  · simp
  · simp
  · simp only [List.mem_cons, List.not_mem_nil, or_false] at hroute ⊢
    rcases hroute with h | h <;> simp [h]

/-- A request that crosses a header limit is answered with 431. -/
def AnswersLimits (L : Llhttp) : Prop :=
  ExceedsLimits {} (L.execute L.init (asyncReadSome conn.arrivals).2.1).callbacks →
    (w.handleConnection L conn).response.map Response.statusCode = some 431

lemma respond_of_exceedsLimits {requestView : ByteString}
    (h : ExceedsLimits {} (L.execute L.init requestView).callbacks) :
    (w.respond L requestView).statusCode = 500 := by
  have hinternal := (Http1Codec.new {} : Http1Codec L).parse_of_exceedsLimits requestView {} h
  rw [respond]
  generalize (Http1Codec.new {} : Http1Codec L).parse requestView {} = parsed at hinternal ⊢
  obtain ⟨parseResult, ctx, codec⟩ := parsed
  obtain rfl : parseResult = .kInternalError := hinternal
  rfl

end Worker

/-- **When a header limit is reported as what it is.**  `parse` does it, and `handle_connection`
answers with 431, exactly when no limit is crossed in the first place. -/
theorem limits_reported_iff (L : Llhttp) :
    (∀ (c : Http1Codec L) (buffer : ByteString) (ctx : RequestContext),
      c.ReportsLimits buffer ctx ↔
        ¬ExceedsLimits c.impl.config (L.execute c.parser buffer).callbacks) ∧
    (∀ (w : Worker) (conn : Connection), w.Admits conn →
      (asyncReadSome conn.arrivals).1 ≠ some .other →
        (w.AnswersLimits conn L ↔
          ¬ExceedsLimits {} (L.execute L.init (asyncReadSome conn.arrivals).2.1).callbacks)) := by
  refine ⟨fun c buffer ctx => c.reportsLimits_iff_fits buffer ctx, ?_⟩
  intro w conn hadmits hread
  refine ⟨?_, fun hfits hexceeds => absurd hexceeds hfits⟩
  intro hanswers hexceeds
  have hanswer := hanswers hexceeds
  rw [w.handleConnection_responseTo L conn hread, Worker.responseTo, if_pos hadmits,
    Option.map_some, Worker.respond_of_exceedsLimits _ hexceeds] at hanswer
  exact absurd hanswer (by decide)

/-- A request within the limits. -/
theorem limits_reported_single :
    (Http1Codec.new {} : Http1Codec llhttpOnRoot).ReportsLimits requestRoot {} ∧
      defaultWorker.AnswersLimits { arrivals := [.data requestRoot] } llhttpOnRoot := by
  have hfits : ¬ExceedsLimits {} (llhttpOnRoot.execute () requestRoot).callbacks := by
    have hrun : ((Impl.beginParse { config := {} } {}).runCallbacks
        (llhttpOnRoot.execute () requestRoot).callbacks).1 = none := by
      decide +kernel
    intro h
    obtain ⟨failed, hfailed⟩ := Impl.failed_of_exceedsLimits { config := {} } {} h
    exact absurd (hrun.symm.trans hfailed) (by simp)
  have hread : asyncReadSome [.data requestRoot] = (none, requestRoot, []) := by
    decide +kernel
  have hconnection := (limits_reported_iff llhttpOnRoot).2 defaultWorker
    { arrivals := [.data requestRoot] } (by decide) (by rw [hread]; decide)
  rw [hread] at hconnection
  exact ⟨((limits_reported_iff llhttpOnRoot).1 _ requestRoot {}).mpr hfits,
    hconnection.mpr hfits⟩

/-- A `Host` header and a hundred others. -/
def manyHeaders : List (ByteString × ByteString) :=
  (ascii "Host", ascii "h") :: (List.range 100).map fun i => (ascii "X-" ++ decimal i, ascii "v")

def manyHeadersRequest : ByteString :=
  ascii "GET / HTTP/1.1\r\n"
    ++ manyHeaders.flatMap (fun h => h.1 ++ ascii ": " ++ h.2 ++ ascii "\r\n")
    ++ ascii "\r\n"

def manyHeadersCallbacks : List Callback :=
  [.messageBegin, .url (ascii "/")]
    ++ manyHeaders.flatMap fun h => [.headerField h.1, .headerValue h.2]

def llhttpOnManyHeaders : Llhttp :=
  .replay (ascii "GET") [(manyHeadersRequest.length,
    manyHeadersCallbacks ++ [.headersComplete, .messageComplete])]

/-- One header more than the default limit: the answer is 500. -/
theorem many_headers_internal_error :
    (llhttpOnManyHeaders.execute () manyHeadersRequest).errno = .hpeOk ∧
      ExceedsHeaderCount {} (llhttpOnManyHeaders.execute () manyHeadersRequest).callbacks ∧
      ((Http1Codec.new {} : Http1Codec llhttpOnManyHeaders).parse manyHeadersRequest {}).1
        = .kInternalError ∧
      (defaultWorker.handleConnection llhttpOnManyHeaders
        { arrivals := [.data manyHeadersRequest] }).response.map Response.statusCode = some 500 := by
  have hcallbacks : (llhttpOnManyHeaders.execute () manyHeadersRequest).callbacks
      = manyHeadersCallbacks ++ .headersComplete :: [.messageComplete] := by
    decide +kernel
  have hcount : ExceedsHeaderCount {}
      (llhttpOnManyHeaders.execute () manyHeadersRequest).callbacks :=
    ⟨_, _, hcallbacks, by decide +kernel⟩
  have hread : asyncReadSome [.data manyHeadersRequest] = (none, manyHeadersRequest, []) := by
    rw [asyncReadSome, if_pos]
    decide +kernel
  refine ⟨rfl, hcount, ?_, ?_⟩
  · exact Http1Codec.parse_of_exceedsLimits _ _ _ (Or.inr hcount)
  · have hadmits : defaultWorker.Admits { arrivals := [.data manyHeadersRequest] } := by decide
    rw [Worker.handleConnection_responseTo _ _ _ (by rw [hread]; decide), Worker.responseTo,
      if_pos hadmits, hread, Option.map_some, Worker.respond_of_exceedsLimits _ (Or.inr hcount)]

end Netp2.Runtime
