import Netp2.Routing.PathSegments
import Netp2.Runtime.Linearization

/-!
# The gateway as it is delivered

The constructor of the spine publishes two rules, for `/proxy/mock` and for `/`, and `main` never
reloads them.  The first one serves what is below `/proxy/mock`, and the second one only the paths
without segments, whatever the host (`matched_defaultSnapshot`).

`answered_as_delivered` is what a client can count on then: which requests are answered with which
status code and which body.  Only the body of `/metrics` depends on what else the gateway does.
-/

namespace Netp2.Runtime

open ByteString LastWrite StepRun Netp2.Observability Netp2.Protocol Netp2.Routing

/-! ## The default routes -/

def ruleProxy : RouteRule where
  hostPattern := ascii "*"
  pathPrefix := ascii "/proxy/mock"
  target := { clusterName := ascii "mock-upstream" }
  priority := 10

def ruleRoot : RouteRule where
  hostPattern := ascii "*"
  pathPrefix := ascii "/"
  target := { clusterName := ascii "root-service" }
  priority := 100

/-- The paths without segments, and those below `/proxy/mock`. -/
def ServedByDefault (path : ByteString) : Prop :=
  splitPath path = [] ∨ [ascii "proxy", ascii "mock"] <+: splitPath path

instance (path : ByteString) : Decidable (ServedByDefault path) :=
  inferInstanceAs (Decidable (_ ∨ _))

lemma defaultSnapshot_eq (S : PrioritySort) :
    defaultSnapshot S = finalized S [ruleProxy, ruleRoot] := rfl

lemma segments_ruleProxy : ruleProxy.segments = [ascii "proxy", ascii "mock"] := by
  decide +kernel

lemma segments_ruleRoot : ruleRoot.segments = [] := by
  decide +kernel

lemma applies_ruleProxy_iff (path : ByteString) :
    Applies path ruleProxy ↔ [ascii "proxy", ascii "mock"] <+: splitPath path := by
  rw [Applies, segments_ruleProxy]
  exact and_iff_left fun _ => List.cons_ne_nil _ _

lemma applies_ruleRoot_iff (path : ByteString) : Applies path ruleRoot ↔ splitPath path = [] := by
  rw [Applies, segments_ruleRoot]
  simp

/-- **What the default routes serve**, for any host and any client. -/
lemma matched_defaultSnapshot (S : PrioritySort) (host path clientIp : ByteString) :
    ((defaultSnapshot S).matchRoute host path clientIp).matched = true ↔ ServedByDefault path := by
  rw [defaultSnapshot_eq, matchRoute_matched, finalized_isSome_iff, ServedByDefault,
    ← applies_ruleRoot_iff, ← applies_ruleProxy_iff]
  constructor
  · rintro ⟨r, hr, -⟩
    obtain ⟨hmem, happ, -⟩ := isCandidate_iff_applies.mp hr
    rcases List.mem_pair.mp hmem with rfl | rfl
    · exact .inr happ
    · exact .inl happ
  · have heligible : ∀ r ∈ [ruleProxy, ruleRoot], Eligible host clientIp r := by
      intro r hr
      rcases List.mem_pair.mp hr with rfl | rfl <;>
        exact ⟨by simp [hostMatches, ruleProxy, ruleRoot], .inl rfl⟩
    have hfound : ∀ r ∈ [ruleProxy, ruleRoot], Applies path r →
        ∃ c, IsCandidate [ruleProxy, ruleRoot] path c ∧ Eligible host clientIp c := by
      intro r hr happ
      obtain ⟨c, hc, -⟩ := exists_candidate hr happ
      exact ⟨c, hc, heligible c (isCandidate_iff_applies.mp hc).1⟩
    rintro (hroot | hproxy)
    · exact hfound ruleRoot (by simp) hroot
    · exact hfound ruleProxy (by simp) hproxy

/-- The upstream looks at nothing but whether the target is the root. -/
lemma mockUpstreamCall_eq (path : ByteString) :
    mockUpstreamCall path = if path = ascii "/" then kLegacyPhaseABody else kMockUpstreamBody := by
  rw [mockUpstreamCall]
  by_cases hroot : path = ascii "/"
  · rw [if_pos (.inl hroot), if_pos hroot]
  · simp [hroot]

lemma routeResponse_default (S : PrioritySort) (ctx : RequestContext) :
    Worker.routeResponse (defaultSnapshot S) ctx =
      if ServedByDefault ctx.target then
        { statusCode := 200
          reason := ascii "OK"
          body := if ctx.target = ascii "/" then kLegacyPhaseABody else kMockUpstreamBody }
      else
        notFound := by
  simp only [Worker.routeResponse, matched_defaultSnapshot, mockUpstreamCall_eq, notFound]

/-! ## What is answered -/

/-- The status codes of errors are not those of other responses. -/
lemma statusCode_of_error {parseResult : ParseError} (h : parseResult ≠ .kSuccess) :
    parseErrorToHttpStatus parseResult ∉ [200, 404, 405] := by
  cases parseResult <;> simp_all [parseErrorToHttpStatus]

/-- **What a worker with the default routes answers**, by the result of the parse. -/
structure Delivered (parseResult : ParseError) (ctx : RequestContext) (r : Response) : Prop where
  notFound_iff : r.statusCode = 404 ↔ parseResult = .kSuccess ∧ ctx.method = ascii "GET" ∧
    ctx.target ≠ kMetricsPath ∧ ¬ServedByDefault ctx.target
  ok_iff : r.statusCode = 200 ↔ parseResult = .kSuccess ∧ ctx.method = ascii "GET" ∧
    (ctx.target = kMetricsPath ∨ ServedByDefault ctx.target)
  notAllowed_iff : r.statusCode = 405 ↔ parseResult = .kSuccess ∧ ctx.method ≠ ascii "GET"
  error : parseResult ≠ .kSuccess → r.statusCode = parseErrorToHttpStatus parseResult ∧
    r.body = parseErrorToString parseResult
  body : r.statusCode = 200 → ctx.target ≠ kMetricsPath →
    r.body = if ctx.target = ascii "/" then kLegacyPhaseABody else kMockUpstreamBody

lemma delivered_dispatch {w : Worker} {S : PrioritySort} (hw : w.routeConfig = defaultSnapshot S)
    (parseResult : ParseError) (ctx : RequestContext) :
    Delivered parseResult ctx (w.dispatch parseResult ctx) := by
  by_cases hparse : parseResult = .kSuccess
  · by_cases hget : ctx.method = ascii "GET"
    · by_cases htarget : ctx.target = kMetricsPath
      · constructor <;> simp [Worker.dispatch, hparse, hget, htarget]
      · have hr : w.dispatch parseResult ctx = Worker.routeResponse (defaultSnapshot S) ctx := by
          simp [Worker.dispatch, hparse, hget, htarget, hw]
        rw [hr, routeResponse_default]
        by_cases hserved : ServedByDefault ctx.target <;>
          constructor <;> simp [hparse, hget, htarget, hserved, notFound]
    · constructor <;> simp [Worker.dispatch, hparse, hget]
  · have hcode := statusCode_of_error hparse
    simp only [List.mem_cons, List.not_mem_nil, or_false, not_or] at hcode
    constructor <;> simp [Worker.dispatch, hparse, hcode]

open RuntimeSpine

lemma routesAfter_of_not_reloaded {w : Worker} {actions : List SpineAction}
    (h : ∀ snapshot, .reloadRouteConfig snapshot ∉ actions) :
    routesAfter w actions = w.routeConfig := by
  rw [routesAfter]
  cases hlast : lastSome published actions with
  | none => rfl
  | some snapshot =>
      obtain ⟨a, ha, hpublish⟩ := exists_of_lastSome hlast
      cases a with
      | reloadRouteConfig snapshot' => exact absurd ha (h snapshot')
      | _ => exact absurd hpublish (by simp [published])

/-- **What a client can count on.**  If the routes are not reloaded, then in every run each response
is the one that `Delivered` says for its request, whatever the other connections do. -/
theorem answered_as_delivered (L : Llhttp) (S : PrioritySort) (w : Worker)
    (hw : w.routeConfig = defaultSnapshot S) (actions : List SpineAction)
    (hreload : ∀ snapshot, .reloadRouteConfig snapshot ∉ actions) (k : ℕ) (view : ByteString)
    (r : Response) (hview : (reached L w actions).requestOf k = some view)
    (hresponse : (reached L w actions).responseOf k = some r) :
    Delivered ((Http1Codec.new {} : Http1Codec L).parse view {}).1
      ((Http1Codec.new {} : Http1Codec L).parse view {}).2.1 r := by
  obtain ⟨before, arrivals, after, rfl, hread, hanswer⟩ := exists_readAfter hview
  have hroutes : ((reached L w before).worker.recordRequest view.length).routeConfig
      = defaultSnapshot S := by
    refine (routeConfig_reached w before).trans ?_
    rw [routesAfter_of_not_reloaded, hw]
    exact fun snapshot hsnapshot => hreload snapshot (List.mem_append_left _ hsnapshot)
  have hr := hanswer r hresponse
  rw [Worker.answer_of_read L hread.succeeds, ← hread.view_eq, Option.some.injEq] at hr
  rw [← hr]
  exact delivered_dispatch hroutes _ _

/-- The first of two connections asks for the root. -/
theorem answered_as_delivered_two :
    Delivered ((Http1Codec.new {} : Http1Codec llhttpOnRoot).parse requestRoot {}).1
      ((Http1Codec.new {} : Http1Codec llhttpOnRoot).parse requestRoot {}).2.1
      { statusCode := 200, reason := ascii "OK", body := kLegacyPhaseABody } :=
  answered_as_delivered llhttpOnRoot (.insertion fun _ => false) defaultWorker rfl twoConnections
    (by simp [twoConnections]) 0 requestRoot _ (by decide +kernel) (by decide +kernel)

end Netp2.Runtime
