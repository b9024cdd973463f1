import Netp2.Routing.PathSegments
import Netp2.Runtime.Spine

/-!
# Query strings

The target of a request is what `handle_connection` compares with the metrics path and hands to
`match`, its query string included.  So a query takes part in routing.

`dispatch_of_get` reads the choice that `handle_connection` makes for a GET request off the code,
and `query_ignored_iff` says when a query leaves it alone: for the metrics path never, and for a
route when the same rules apply with and without it (`sameRules_query_iff`), or when nothing comes
of the difference.
-/

namespace Netp2.Runtime

open ByteString Netp2.Observability Netp2.Protocol Netp2.Routing

/-! ## The choice -/

/-- What a GET request is answered with. -/
inductive Choice where
  | metrics
  | route (target : RouteTarget) (matchedRuleId : ByteString)
  | notFound
  deriving DecidableEq, Repr

/-- The last three branches of `handle_connection`. -/
def choiceOf (routeSnapshot : RouteSnapshot) (host target clientIp : ByteString) : Choice :=
  if target = kMetricsPath then .metrics
  else
    let routeMatch := routeSnapshot.matchRoute host target clientIp
    if routeMatch.matched then .route routeMatch.target routeMatch.matchedRuleId else .notFound

def Choice.response (w : Worker) (target : ByteString) : Choice → Response
  | .metrics =>
      { statusCode := 200
        reason := ascii "OK"
        body := w.metrics.renderPrometheus
        contentType := ascii "text/plain; version=0.0.4; charset=utf-8" }
  | .route _ _ => { statusCode := 200, reason := ascii "OK", body := mockUpstreamCall target }
  | .notFound => { statusCode := 404, reason := ascii "Not Found", body := kNotFoundBody }

/-- **The response to a GET request** follows from the choice. -/
theorem dispatch_of_get (w : Worker) {ctx : RequestContext} (hget : ctx.method = ascii "GET") :
    w.dispatch .kSuccess ctx
      = (choiceOf w.routeConfig ctx.host ctx.target (ascii "127.0.0.1")).response w ctx.target := by
  rw [Worker.dispatch, if_neg (by simp), if_neg (by simp [hget]), choiceOf]
  split_ifs with hmetrics
  · rfl
  · rw [Worker.routeResponse]
    cases hmatch : (w.routeConfig.matchRoute ctx.host ctx.target (ascii "127.0.0.1")).matched <;>
      simp [hmatch, Choice.response]

/-- What a selected rule comes to. -/
def Choice.ofRule : Option RouteRule → Choice
  | some r => .route r.target (r.hostPattern ++ r.pathPrefix)
  | none => .notFound

lemma choiceOf_of_ne {s : RouteSnapshot} {host target clientIp : ByteString}
    (h : target ≠ kMetricsPath) :
    choiceOf s host target clientIp = Choice.ofRule (s.selectedRule host target clientIp) := by
  rw [choiceOf, if_neg h]
  cases hsel : s.selectedRule host target clientIp with
  | some r =>
      rw [matchRoute_of_selectedRule_some hsel]
      rfl
  | none =>
      obtain ⟨reason, heq, -⟩ := matchRoute_of_selectedRule_none hsel
      rw [heq]
      rfl

lemma query_ne_metricsPath (path query : ByteString) :
    path ++ question :: query ≠ kMetricsPath := by
  intro h
  have hmem : question ∈ kMetricsPath := h ▸ List.mem_append_right path List.mem_cons_self
  exact absurd hmem (by decide)

/-! ## One choice for two paths -/

section

variable {steps : List BuildStep} {host path path' clientIp : ByteString}

/-- Both paths have a rule to select or neither, and whatever is selected for them comes to the same
choice. -/
def SameOutcome (rules : List RouteRule) (host path path' clientIp : ByteString) : Prop :=
  ((∃ r, Selectable rules host path clientIp r) ↔ ∃ r, Selectable rules host path' clientIp r) ∧
    ∀ r r', Selectable rules host path clientIp r → Selectable rules host path' clientIp r' →
      r.target = r'.target ∧ r.hostPattern ++ r.pathPrefix = r'.hostPattern ++ r'.pathPrefix

lemma selectedRule_isSome_iff_selectable (S : PrioritySort) :
    ((RouteSnapshot.build S (steps ++ [.finalize])).selectedRule host path clientIp).isSome ↔
      ∃ r, Selectable (addedRules steps) host path clientIp r := by
  constructor
  · intro h
    obtain ⟨r, hr⟩ := Option.isSome_iff_exists.mp h
    exact ⟨r, selectable_of_selectedRule hr⟩
  · rintro ⟨r, hcand, helig, -⟩
    exact selectedRule_isSome_iff.mpr ⟨r, hcand, helig⟩

lemma choice_eq_of_sameOutcome (S : PrioritySort)
    (h : SameOutcome (addedRules steps) host path path' clientIp) :
    Choice.ofRule ((RouteSnapshot.build S (steps ++ [.finalize])).selectedRule host path clientIp)
      = Choice.ofRule
        ((RouteSnapshot.build S (steps ++ [.finalize])).selectedRule host path' clientIp) := by
  obtain ⟨hiff, hagree⟩ := h
  rw [← selectedRule_isSome_iff_selectable S, ← selectedRule_isSome_iff_selectable S] at hiff
  cases hsel : (RouteSnapshot.build S (steps ++ [.finalize])).selectedRule host path clientIp with
  | none =>
      rw [hsel] at hiff
      rw [Option.not_isSome_iff_eq_none.mp fun h => absurd (hiff.mpr h) (by simp)]
  | some r =>
      rw [hsel] at hiff
      obtain ⟨r', hsel'⟩ := Option.isSome_iff_exists.mp (hiff.mp rfl)
      obtain ⟨htarget, hid⟩ :=
        hagree r r' (selectable_of_selectedRule hsel) (selectable_of_selectedRule hsel')
      rw [hsel', Choice.ofRule, Choice.ofRule, htarget, hid]

/-- Sorts one list as `S` does and every other as `S'`. -/
def sortOneAs (rules : List RouteRule) (S S' : PrioritySort) : PrioritySort where
  sort l := if l = rules then S.sort l else S'.sort l
  perm l := by split_ifs; exacts [S.perm l, S'.perm l]
  sorted l := by split_ifs; exacts [S.sorted l, S'.sorted l]

lemma sortOneAs_self (rules : List RouteRule) (S S' : PrioritySort) :
    (sortOneAs rules S S').sort rules = S.sort rules :=
  if_pos rfl

lemma sortOneAs_of_ne {rules l : List RouteRule} (h : l ≠ rules) (S S' : PrioritySort) :
    (sortOneAs rules S S').sort l = S'.sort l :=
  if_neg h

lemma selectedRule_eq (S : PrioritySort) (steps : List BuildStep)
    (host path clientIp : ByteString) :
    (RouteSnapshot.build S (steps ++ [.finalize])).selectedRule host path clientIp
      = (S.sort (scanCandidates (addedRules steps) path)).find? (eligible host clientIp) := by
  rw [RouteSnapshot.selectedRule, findLongestPrefixRules_eq]

/-- **Different candidates are sorted independently**: any two selectable rules are selected for
their paths under some order of equal priorities. -/
lemma exists_sort_selecting {r r' : RouteRule}
    (hdiffer : scanCandidates (addedRules steps) path ≠ scanCandidates (addedRules steps) path')
    (hr : Selectable (addedRules steps) host path clientIp r)
    (hr' : Selectable (addedRules steps) host path' clientIp r') :
    ∃ S, (RouteSnapshot.build S (steps ++ [.finalize])).selectedRule host path clientIp = some r ∧
      (RouteSnapshot.build S (steps ++ [.finalize])).selectedRule host path' clientIp
        = some r' := by
  refine ⟨sortOneAs (scanCandidates (addedRules steps) path) (.insertion (· = r))
    (.insertion (· = r')), ?_, ?_⟩
  · rw [selectedRule_eq, sortOneAs_self, ← selectedRule_eq]
    exact selectedRule_insertion hr
  · rw [selectedRule_eq, sortOneAs_of_ne hdiffer.symm, ← selectedRule_eq]
    exact selectedRule_insertion hr'

/-- **When two paths are routed alike**, whatever `std::sort` does with equal priorities. -/
theorem sameChoice_iff :
    (∀ S, Choice.ofRule
          ((RouteSnapshot.build S (steps ++ [.finalize])).selectedRule host path clientIp)
        = Choice.ofRule
          ((RouteSnapshot.build S (steps ++ [.finalize])).selectedRule host path' clientIp)) ↔
      SameRules (addedRules steps) path path' ∨
        SameOutcome (addedRules steps) host path path' clientIp := by
  constructor
  · intro h
    rw [or_iff_not_imp_left, sameRules_iff_candidates]
    intro hdiffer
    refine ⟨?_, ?_⟩
    · have hone := h (.insertion fun _ => false)
      rw [← selectedRule_isSome_iff_selectable (.insertion fun _ => false),
        ← selectedRule_isSome_iff_selectable (.insertion fun _ => false)]
      revert hone
      cases (RouteSnapshot.build (.insertion fun _ => false) (steps ++ [.finalize])).selectedRule
          host path clientIp <;>
        cases (RouteSnapshot.build (.insertion fun _ => false)
          (steps ++ [.finalize])).selectedRule host path' clientIp <;>
        simp [Choice.ofRule]
    · intro r r' hr hr'
      obtain ⟨S, hsel, hsel'⟩ := exists_sort_selecting hdiffer hr hr'
      have hS := h S
      rw [hsel, hsel'] at hS
      simpa [Choice.ofRule] using hS
  · rintro (hsame | houtcome) S
    · rw [selectedRule_eq, selectedRule_eq, sameRules_iff_candidates.mp hsame]
    · exact choice_eq_of_sameOutcome S houtcome

end

/-- **When a query does not take part in routing.**  A GET request for the path with the query is
handled like one for the path alone, whatever `std::sort` does with equal priorities, exactly when
the path is not the metrics path, and the same rules apply with and without the query or nothing
comes of the difference.  How a GET request is handled is what `handle_connection` does: its
response is that of the choice. -/
theorem query_ignored_iff (steps : List BuildStep) (host path query clientIp : ByteString) :
    ((∀ S, choiceOf (RouteSnapshot.build S (steps ++ [.finalize])) host (path ++ question :: query)
          clientIp
        = choiceOf (RouteSnapshot.build S (steps ++ [.finalize])) host path clientIp) ↔
      path ≠ kMetricsPath ∧
        (SameRules (addedRules steps) (path ++ question :: query) path ∨
          SameOutcome (addedRules steps) host (path ++ question :: query) path clientIp)) ∧
    ∀ (w : Worker) (ctx : RequestContext), ctx.method = ascii "GET" →
      w.dispatch .kSuccess ctx
        = (choiceOf w.routeConfig ctx.host ctx.target (ascii "127.0.0.1")).response w
            ctx.target := by
  have hquery := query_ne_metricsPath path query
  refine ⟨?_, fun w ctx hget => dispatch_of_get w hget⟩
  by_cases hpath : path = kMetricsPath
  · simp only [hpath, ne_eq, not_true_eq_false, false_and, iff_false]
    intro h
    have hone := h (.insertion fun _ => false)
    rw [← hpath, choiceOf_of_ne hquery, choiceOf, if_pos hpath] at hone
    revert hone
    cases (RouteSnapshot.build (.insertion fun _ => false) (steps ++ [.finalize])).selectedRule
      host (path ++ question :: query) clientIp <;> simp [Choice.ofRule]
  · simp only [choiceOf_of_ne hquery, choiceOf_of_ne hpath, sameChoice_iff, ne_eq, hpath,
      not_false_eq_true, true_and]

def statusRule : RouteRule where
  hostPattern := ascii "*"
  pathPrefix := ascii "/status"
  target := { clusterName := ascii "status-cluster" }

def statusWorker : Worker where
  routeConfig :=
    RouteSnapshot.build (.insertion fun _ => false) [.addRule statusRule, .finalize]

def getOf (target : ByteString) : RequestContext where
  method := ascii "GET"
  target := target
  host := ascii "h"

/-- `/status` is routed, `/status?full` is not found; and neither is `/metrics?full`. -/
theorem query_hides_route :
    choiceOf statusWorker.routeConfig (ascii "h") (ascii "/status") (ascii "127.0.0.1")
      = .route statusRule.target (ascii "*/status") ∧
    choiceOf statusWorker.routeConfig (ascii "h") (ascii "/status" ++ question :: ascii "full")
        (ascii "127.0.0.1")
      = .notFound ∧
    choiceOf statusWorker.routeConfig (ascii "h") (ascii "/metrics") (ascii "127.0.0.1")
      = .metrics ∧
    choiceOf statusWorker.routeConfig (ascii "h") (ascii "/metrics" ++ question :: ascii "full")
        (ascii "127.0.0.1")
      = .notFound ∧
    (statusWorker.dispatch .kSuccess (getOf (ascii "/status"))).statusCode = 200 ∧
    (statusWorker.dispatch .kSuccess (getOf (ascii "/status?full"))).statusCode = 404 := by
  refine ⟨?_, ?_, ?_, ?_, ?_, ?_⟩ <;> decide +kernel

end Netp2.Runtime
