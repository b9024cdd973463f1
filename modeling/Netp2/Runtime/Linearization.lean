import Netp2.Library.LastWrite
import Netp2.Routing.RuleScan
import Netp2.Runtime.Accounting

/-!
# Every connection is answered as if it were alone

The connections of a worker take turns, and between two turns of one connection anything may happen
to the others, to the routes and to the metrics.  Still each of them is answered in one moment: that
of its read.  What it is sent is what `handleConnection` sends on the worker of that moment
(`answered_at_read`).

The body of `/metrics` is left out of this.  Here it is rendered in one moment too, as
`handleConnection` does it alone, but other workers may count while the counters are read; what can
be said of it then is in `MetricsEndpoint.lean`.

The routes of that moment are those published last before it, so a reload takes effect between two
requests and never within one (`answered_by_published_rules`).
-/

namespace Netp2.Runtime

open ByteString LastWrite StepRun Netp2.Observability Netp2.Protocol Netp2.Routing

/-- The response of a connection, from the moment it is built. -/
def Phase.builtResponse : Phase → Option Response
  | .upstream _ built | .posted _ built | .writing _ built | .written _ built =>
      some built.response
  | _ => none

/-! ## One piece -/

section Piece

variable (L : Llhttp) (w : Worker)

/-- What a connection is sent that is read now and that nothing comes between. -/
def Worker.answer (arrivals : List Arrival) : Option Response :=
  (w.handleConnection L { arrivals := arrivals }).response

/-- The connection waits to be read, and the read succeeds. -/
def Reads (phase : Phase) (wakeup : Wakeup) (arrivals : List Arrival) : Prop :=
  phase = .reading ∧ wakeup = .read arrivals ∧ (asyncReadSome arrivals).1 ≠ some .other

/-- **What one piece can do to the answer of a connection.**  It leaves the answer alone, or it is
the read. -/
inductive Answers (phase : Phase) (wakeup : Wakeup) (phase' : Phase) : Prop
  | kept (hview : phase'.requestView = phase.requestView)
      (hbuilt : ∀ r, phase'.builtResponse = some r → phase.builtResponse = some r)
  | read {arrivals} (hreads : Reads phase wakeup arrivals)
      (hview : phase'.requestView = some (asyncReadSome arrivals).2.1)
      (hbuilt : phase'.builtResponse = w.answer L arrivals)

variable {w}

/-- The answer of a connection that is read and passes its checks. -/
lemma Worker.answer_of_read {arrivals : List Arrival}
    (hread : (asyncReadSome arrivals).1 ≠ some .other) :
    w.answer L arrivals = some ((w.recordRequest (asyncReadSome arrivals).2.1.length).respond L
      (asyncReadSome arrivals).2.1) := by
  have hadmits : w.Admits { arrivals := arrivals } := fun _ => ⟨rfl, rfl, rfl⟩
  rw [answer, w.handleConnection_responseTo L _ hread, responseTo, if_pos hadmits]

lemma answers_advance (phase : Phase) (wakeup : Wakeup) :
    Answers L w phase wakeup (advance L w phase wakeup).2.1 := by
  fun_cases advance L w phase wakeup
  case case5 arrivals readError requestView unread hsome hread w' built phase' =>
      have hread' : (asyncReadSome arrivals).1 ≠ some .other := by
        rw [hsome]
        exact hread
      refine .read ⟨rfl, rfl, hread'⟩ ?_ ?_
      · rw [hsome]
        simp only [phase']
        split_ifs <;> rfl
      · rw [Worker.answer_of_read L hread', hsome]
        simp only [phase', built]
        split_ifs <;> rfl
  -- whoever leaves has no response any more, and nobody else changes it
  all_goals
    refine .kept rfl ?_
    intro r h
    first
      | exact h
      | exact absurd h (by simp [Phase.builtResponse])

end Piece

/-! ## One step of the worker -/

/-- What an action wakes connection `k` for. -/
def SpineAction.wakes (k : ℕ) : SpineAction → Option Wakeup
  | .handle j wakeup => if j = k then some wakeup else none
  | _ => none

@[simp] lemma SpineAction.wakes_handle (k : ℕ) (wakeup : Wakeup) :
    (SpineAction.handle k wakeup).wakes k = some wakeup := if_pos rfl

lemma SpineAction.eq_of_wakes {a : SpineAction} {k : ℕ} {wakeup : Wakeup}
    (h : a.wakes k = some wakeup) : a = .handle k wakeup := by
  cases a with
  | handle j woken =>
      simp only [wakes, Option.ite_none_right_eq_some, Option.some.injEq] at h
      rw [h.1, h.2]
  | _ => exact absurd h (by simp [wakes])

namespace RuntimeSpine

variable {L : Llhttp} {s : RuntimeSpine} {k : ℕ} {phase : Phase}

/-- Where a connection is after an action, by what the action wakes it for. -/
def next (L : Llhttp) (w : Worker) (phase : Phase) : Option Wakeup → Phase
  | none => phase
  | some wakeup => (advance L w phase wakeup).2.1

/-- **A connection moves when it is woken**, and at no other time. -/
lemma connection_step (hk : s.connections[k]? = some phase) (a : SpineAction) :
    (step L s a).2.connections[k]? = some (next L s.worker phase (a.wakes k)) := by
  have hlt : k < s.connections.length := (List.getElem?_eq_some_iff.mp hk).1
  cases a with
  | acceptFails aborted =>
      simp only [step]
      split_ifs <;> exact hk
  | accept socketOnExecutor =>
      simp only [step]
      split_ifs
      · exact hk
      · exact hk
      · rw [List.getElem?_append_left hlt]
        exact hk
  | elsewhere metrics =>
      simp only [step]
      split_ifs <;> exact hk
  | handle j wakeup =>
      by_cases hjk : j = k
      · subst hjk
        simp only [step, hk, SpineAction.wakes_handle]
        exact List.getElem?_set_self hlt
      · have hwakes : (SpineAction.handle j wakeup).wakes k = none := if_neg hjk
        rw [hwakes]
        cases hj : s.connections[j]? with
        | none => simp only [step, hj, hk, next]
        | some other =>
            simp only [step, hj]
            exact (List.getElem?_set_ne hjk).trans hk
  | _ => exact hk

/-- Whoever was not there before has just been accepted. -/
lemma connection_new (hk : s.connections[k]? = none) {a : SpineAction}
    (h : (step L s a).2.connections[k]? = some phase) : phase = .spawned := by
  have hold : s.connections[k]? ≠ some phase := by simp [hk]
  cases a with
  | acceptFails aborted =>
      simp only [step] at h
      split_ifs at h <;> exact absurd h hold
  | accept socketOnExecutor =>
      simp only [step] at h
      split_ifs at h
      · exact absurd h hold
      · exact absurd h hold
      · rw [List.getElem?_append] at h
        split_ifs at h
        · exact absurd h hold
        · simpa using List.mem_of_getElem? h
  | elsewhere metrics =>
      simp only [step] at h
      split_ifs at h <;> exact absurd h hold
  | handle j wakeup =>
      have hlength : (step L s (.handle j wakeup)).2.connections.length
          = s.connections.length := by
        cases hj : s.connections[j]? with
        | none => simp only [step, hj]
        | some other => simp only [step, hj, List.length_set]
      have hlt := (List.getElem?_eq_some_iff.mp h).1
      rw [hlength] at hlt
      exact absurd hlt (Nat.not_lt.mpr (List.getElem?_eq_none_iff.mp hk))
  | _ => exact absurd h hold

end RuntimeSpine

/-! ## A run -/

namespace RuntimeSpine

variable (L : Llhttp)

/-- In this event connection `k` is read; `view` and `answer` are its request and what it would be
sent if nothing came between. -/
def ReadOf (k : ℕ) (view : ByteString) (answer : Option Response) (e : SpineEvent) : Prop :=
  ∃ arrivals, e.input = .handle k (.read arrivals) ∧ e.pre.connections[k]? = some .reading ∧
    (asyncReadSome arrivals).1 ≠ some .other ∧ view = (asyncReadSome arrivals).2.1 ∧
    answer = e.pre.worker.answer L arrivals

/-- Every request comes from a read, and every response is the answer to it. -/
def Answered (h : List SpineEvent) (s : RuntimeSpine) : Prop :=
  ∀ k phase view, s.connections[k]? = some phase → phase.requestView = some view →
    ∃ e ∈ h, ∃ answer, ReadOf L k view answer e ∧
      ∀ r, phase.builtResponse = some r → answer = some r

variable {L} {h : List SpineEvent} {s : RuntimeSpine}

/-- **What one step can do to a connection with a request.**  It had the request before, and no
other response, or the step is its read. -/
lemma answers_step (s : RuntimeSpine) (a : SpineAction) {k : ℕ} {phase : Phase} {view : ByteString}
    (hk : (step L s a).2.connections[k]? = some phase) (hview : phase.requestView = some view) :
    (∃ old, s.connections[k]? = some old ∧ old.requestView = some view ∧
        ∀ r, phase.builtResponse = some r → old.builtResponse = some r) ∨
      ∃ arrivals, a = .handle k (.read arrivals) ∧ s.connections[k]? = some .reading ∧
        (asyncReadSome arrivals).1 ≠ some .other ∧ view = (asyncReadSome arrivals).2.1 ∧
        phase.builtResponse = s.worker.answer L arrivals := by
  cases hold : s.connections[k]? with
  | none =>
      -- a new connection has no request
      rw [connection_new hold hk] at hview
      exact absurd hview (by simp [Phase.requestView])
  | some old =>
      obtain rfl := Option.some.inj ((connection_step hold a).symm.trans hk)
      cases hwakes : a.wakes k with
      | none =>
          rw [hwakes, next] at hview
          exact .inl ⟨old, rfl, hview, fun _ hr => hr⟩
      | some wakeup =>
          rw [hwakes, next] at hview
          obtain rfl := SpineAction.eq_of_wakes hwakes
          cases answers_advance L (w := s.worker) old wakeup with
          | kept hsameView hbuilt => exact .inl ⟨old, rfl, hsameView ▸ hview, hbuilt⟩
          | @read arrivals hreads hnewView hbuilt =>
              obtain ⟨rfl, rfl, hsome⟩ := hreads
              rw [hnewView, Option.some.injEq] at hview
              exact .inr ⟨arrivals, rfl, rfl, hsome, hview.symm, hbuilt⟩

/-- **The step lemma.** -/
theorem answered_step (ha : Answered L h s) (a : SpineAction) :
    Answered L (h ++ [event (step L) s a]) (step L s a).2 := by
  intro k phase view hk hview
  rcases answers_step s a hk hview with
    ⟨old, hold, hview, hbuilt⟩ | ⟨arrivals, rfl, hwaits, hsome, hview, hbuilt⟩
  · obtain ⟨e, he, answer, hread, hanswer⟩ := ha k old view hold hview
    exact ⟨e, List.mem_append_left _ he, answer, hread, fun r hr => hanswer r (hbuilt r hr)⟩
  · refine ⟨_, List.mem_append_right _ List.mem_cons_self, s.worker.answer L arrivals,
      ⟨arrivals, rfl, hwaits, hsome, hview, rfl⟩, ?_⟩
    intro r hr
    rw [← hbuilt, hr]

variable (L) in
theorem answered_reached (w : Worker) (actions : List SpineAction) :
    Answered L (history L w actions) (reached L w actions) := by
  have hstart : Answered L [] (start w) := fun _ _ _ hk => absurd hk (by simp [start])
  exact invariant_trace hstart (fun _ _ a ha => answered_step ha a) actions

/-! ## The routes in force -/

/-- What an action publishes. -/
def published : SpineAction → Option RouteSnapshot
  | .reloadRouteConfig snapshot => some snapshot
  | _ => none

/-- The routes published last, or those that the worker began with. -/
def routesAfter (w : Worker) (actions : List SpineAction) : RouteSnapshot :=
  (lastSome published actions).getD w.routeConfig

lemma routeConfig_advance (L : Llhttp) (w : Worker) (phase : Phase) (wakeup : Wakeup) :
    (advance L w phase wakeup).2.2.routeConfig = w.routeConfig := by
  fun_cases advance L w phase wakeup <;> rfl

lemma routeConfig_step (L : Llhttp) (s : RuntimeSpine) (a : SpineAction) :
    (step L s a).2.worker.routeConfig = (published a).getD s.worker.routeConfig := by
  cases a with
  | stop => rfl
  | acceptFails aborted =>
      simp only [step]
      split_ifs <;> rfl
  | accept socketOnExecutor =>
      simp only [step]
      split_ifs <;> rfl
  | handle k wakeup =>
      cases hk : s.connections[k]? with
      | none =>
          simp only [step, hk]
          rfl
      | some phase =>
          simp only [step, hk]
          exact routeConfig_advance L s.worker phase wakeup
  | reloadRouteConfig snapshot => rfl
  | elsewhere metrics =>
      simp only [step]
      split_ifs <;> rfl

lemma reached_concat (w : Worker) (actions : List SpineAction) (a : SpineAction) :
    reached L w (actions ++ [a]) = (step L (reached L w actions) a).2 :=
  final_concat _ actions a

lemma routeConfig_reached (w : Worker) (actions : List SpineAction) :
    (reached L w actions).worker.routeConfig = routesAfter w actions := by
  induction actions using List.reverseRecOn with
  | nil => rfl
  | append_singleton actions a ih =>
      have hone : lastSome published [a] = published a := by simp [lastSome]
      rw [reached_concat, routeConfig_step, ih, routesAfter, routesAfter, lastSome_append, hone]
      cases published a <;> rfl

/-! ## A connection is read once -/

/-- The request of a connection, once it is counted. -/
def requestOf (s : RuntimeSpine) (k : ℕ) : Option ByteString :=
  s.connections[k]?.bind Phase.requestView

/-- The response of a connection, once it is built. -/
def responseOf (s : RuntimeSpine) (k : ℕ) : Option Response :=
  s.connections[k]?.bind Phase.builtResponse

lemma requestOf_step {k : ℕ} {view : ByteString} (h : s.requestOf k = some view)
    (a : SpineAction) : (step L s a).2.requestOf k = some view := by
  obtain ⟨phase, hk, hview⟩ := Option.bind_eq_some_iff.mp h
  rw [requestOf, connection_step hk, Option.bind_some]
  cases a.wakes k with
  | none => exact hview
  | some wakeup =>
      cases answers_advance L (w := s.worker) phase wakeup with
      | kept hsame => exact hsame.trans hview
      | read hreads =>
          rw [hreads.1] at hview
          exact absurd hview (by simp [Phase.requestView])

lemma requestOf_final {k : ℕ} {view : ByteString} (h : s.requestOf k = some view)
    (actions : List SpineAction) : (final (step L) s actions).requestOf k = some view := by
  induction actions generalizing s with
  | nil => exact h
  | cons a actions ih => exact ih (requestOf_step h a)

variable {w : Worker} {actions : List SpineAction}

/-- These actions read connection `k`, and then it has the request `view`. -/
structure ReadAfter (L : Llhttp) (w : Worker) (k : ℕ) (before : List SpineAction)
    (arrivals : List Arrival) (view : ByteString) : Prop where
  waits : (reached L w before).connections[k]? = some .reading
  succeeds : (asyncReadSome arrivals).1 ≠ some .other
  view_eq : view = (asyncReadSome arrivals).2.1

lemma ReadAfter.requestOf {k : ℕ} {before : List SpineAction} {arrivals : List Arrival}
    {view : ByteString} (h : ReadAfter L w k before arrivals view) :
    (reached L w (before ++ [.handle k (.read arrivals)])).requestOf k = some view := by
  have hlt : k < (reached L w before).connections.length :=
    (List.getElem?_eq_some_iff.mp h.waits).1
  have hsome : (asyncReadSome arrivals).1 ≠ some .other := h.succeeds
  rw [reached_concat, RuntimeSpine.requestOf]
  simp only [step, h.waits, advance, hsome, if_false]
  rw [List.getElem?_set_self hlt, Option.bind_some, h.view_eq]
  split_ifs <;> rfl

/-- **A connection is read once**: after its read it does not wait to be read. -/
lemma ReadAfter.length_le {k : ℕ} {before before' after after' : List SpineAction}
    {arrivals arrivals' : List Arrival} {view view' : ByteString}
    (h : ReadAfter L w k before arrivals view) (h' : ReadAfter L w k before' arrivals' view')
    (heq : before ++ .handle k (.read arrivals) :: after
      = before' ++ .handle k (.read arrivals') :: after') : before'.length ≤ before.length := by
  by_contra hlt
  -- then the second read comes after the first one has been made
  have hprefix : before ++ [.handle k (.read arrivals)] <+: before' := by
    have hfirst : before ++ [.handle k (.read arrivals)]
        <+: before' ++ .handle k (.read arrivals') :: after' := by
      rw [← heq]
      exact ⟨after, by simp⟩
    exact List.prefix_of_prefix_length_le hfirst (List.prefix_append _ _)
      (by simpa using not_le.mp hlt)
  obtain ⟨more, rfl⟩ := hprefix
  have hread : (reached L w (before ++ [.handle k (.read arrivals)] ++ more)).requestOf k
      = some view := by
    rw [reached, final_append]
    exact requestOf_final h.requestOf more
  rw [RuntimeSpine.requestOf, h'.waits] at hread
  exact absurd hread (by simp [Phase.requestView])

lemma ReadAfter.unique {k : ℕ} {before before' after after' : List SpineAction}
    {arrivals arrivals' : List Arrival} {view view' : ByteString}
    (h : ReadAfter L w k before arrivals view) (h' : ReadAfter L w k before' arrivals' view')
    (heq : before ++ .handle k (.read arrivals) :: after
      = before' ++ .handle k (.read arrivals') :: after') : before' = before := by
  have hlen : before'.length = before.length :=
    le_antisymm (h.length_le h' heq) (h'.length_le h heq.symm)
  exact (List.append_inj heq.symm hlen).1

/-- A request that is counted was read, and the response to it is the answer at its read. -/
lemma exists_readAfter {k : ℕ} {view : ByteString}
    (hview : (reached L w actions).requestOf k = some view) :
    ∃ before arrivals after, actions = before ++ .handle k (.read arrivals) :: after ∧
      ReadAfter L w k before arrivals view ∧
      ∀ r, (reached L w actions).responseOf k = some r →
        (reached L w before).worker.answer L arrivals = some r := by
  obtain ⟨phase, hk, hphase⟩ := Option.bind_eq_some_iff.mp hview
  obtain ⟨e, he, answer, ⟨arrivals, hinput, hwaits, hsucceeds, hviewEq, hanswer⟩, hbuilt⟩ :=
    answered_reached L w actions k phase view hk hphase
  obtain ⟨before, a, after, rfl, rfl⟩ := mem_trace he
  obtain rfl : a = .handle k (.read arrivals) := hinput
  refine ⟨before, arrivals, after, rfl, ⟨hwaits, hsucceeds, hviewEq⟩, ?_⟩
  intro r hr
  rw [responseOf, hk] at hr
  exact hanswer.symm.trans (hbuilt r hr)

end RuntimeSpine

open RuntimeSpine

/-- The request, as the codec of the connection parses it. -/
def parsed (L : Llhttp) (requestView : ByteString) : ParseError × RequestContext :=
  let (parseResult, ctx, _) := (Http1Codec.new {} : Http1Codec L).parse requestView {}
  (parseResult, ctx)

/-- The request is one for `/metrics`. -/
def AsksMetrics (L : Llhttp) (requestView : ByteString) : Prop :=
  (parsed L requestView).1 = .kSuccess ∧ (parsed L requestView).2.method = ascii "GET" ∧
    (parsed L requestView).2.target = kMetricsPath

instance (L : Llhttp) (requestView : ByteString) : Decidable (AsksMetrics L requestView) :=
  inferInstanceAs (Decidable (_ ∧ _))

/-- The responses to a request are the same, but for the body of `/metrics`. -/
structure SameAnswer (L : Llhttp) (requestView : ByteString) (r r' : Response) : Prop where
  statusCode : r.statusCode = r'.statusCode
  reason : r.reason = r'.reason
  contentType : r.contentType = r'.contentType
  body : ¬AsksMetrics L requestView → r.body = r'.body

/-- **Every connection is answered in one moment.**  A request that has been counted was read at one
point of the run and at no other.  The response to it, if it has been built by now, is the one that
`handleConnection` gives on the worker of that point, whatever the other connections have done since
and whatever has been published since, except perhaps for the body of `/metrics`; and the routes of
that worker are those published last before the read. -/
theorem answered_at_read (L : Llhttp) (w : Worker) (actions : List SpineAction) (k : ℕ)
    (view : ByteString) (hview : (reached L w actions).requestOf k = some view) :
    ∃ before arrivals after, actions = before ++ .handle k (.read arrivals) :: after ∧
      ReadAfter L w k before arrivals view ∧
      (∀ r, (reached L w actions).responseOf k = some r → ∃ r',
        ((reached L w before).worker.handleConnection L { arrivals := arrivals }).response
          = some r' ∧ SameAnswer L view r r') ∧
      (reached L w before).worker.routeConfig = routesAfter w before ∧
      ∀ before' arrivals' after' view',
        actions = before' ++ .handle k (.read arrivals') :: after' →
          ReadAfter L w k before' arrivals' view' → before' = before := by
  obtain ⟨before, arrivals, after, rfl, hread, hanswer⟩ := exists_readAfter hview
  refine ⟨before, arrivals, after, rfl, hread, ?_, routeConfig_reached w before, ?_⟩
  · intro r hr
    exact ⟨r, hanswer r hr, rfl, rfl, rfl, fun _ => rfl⟩
  · intro before' arrivals' after' view' heq hread'
    exact hread.unique hread' heq

/-- The routes are taken away before the read, and are back before the response is written. -/
def takenAway : List SpineAction :=
  [.accept true, .handle 0 (.start true true),
    .reloadRouteConfig (finalized (.insertion fun _ => false) []),
    .handle 0 (.read [.data requestRoot]), .reloadRouteConfig defaultWorker.routeConfig,
    .handle 0 (.resume true), .handle 0 (.write true)]

theorem answered_at_read_takenAway :
    ∃ before arrivals after r r', takenAway = before ++ .handle 0 (.read arrivals) :: after ∧
      (reached llhttpOnRoot defaultWorker before).worker.routeConfig
        = routesAfter defaultWorker before ∧
      (reached llhttpOnRoot defaultWorker takenAway).responseOf 0 = some r ∧
      ((reached llhttpOnRoot defaultWorker before).worker.handleConnection llhttpOnRoot
        { arrivals := arrivals }).response = some r' ∧
      r.body = r'.body := by
  have hbuilt : ((reached llhttpOnRoot defaultWorker takenAway).responseOf 0).isSome = true := by
    decide +kernel
  obtain ⟨r, hr⟩ := Option.isSome_iff_exists.mp hbuilt
  obtain ⟨before, arrivals, after, hsplit, -, hanswer, hroutes, -⟩ :=
    answered_at_read llhttpOnRoot defaultWorker takenAway 0 requestRoot (by decide +kernel)
  obtain ⟨r', hr', hsame⟩ := hanswer r hr
  exact ⟨before, arrivals, after, r, r', hsplit, hroutes, hr, hr', hsame.body (by decide +kernel)⟩

/-! ## A reload is atomic -/

def notFound : Response where
  statusCode := 404
  reason := ascii "Not Found"
  body := kNotFoundBody

/-- The answer of a plain scan of the rules. -/
def scanResponse (rules : List RouteRule) (ctx : RequestContext) : Response :=
  if rules.any fun r =>
      IsCandidate rules ctx.target r ∧ eligible ctx.host (ascii "127.0.0.1") r then
    { statusCode := 200, reason := ascii "OK", body := mockUpstreamCall ctx.target }
  else
    notFound

/-- The snapshot has been finalized after its last rule. -/
def Compiled (s : RouteSnapshot) : Prop :=
  ∃ S, s = finalized S s.rules

lemma compiled_finalized (S : PrioritySort) (rules : List RouteRule) :
    Compiled (finalized S rules) := by
  have hrules : (finalized S rules).rules = rules := by
    rw [finalized, RouteSnapshot.build, foldl_step_rules]
    simp [addedRules]
  exact ⟨S, by rw [hrules]⟩

lemma routeResponse_of_compiled {s : RouteSnapshot} (hs : Compiled s) (ctx : RequestContext) :
    Worker.routeResponse s ctx = scanResponse s.rules ctx := by
  obtain ⟨S, hS⟩ := hs
  have hmatched : (s.matchRoute ctx.host ctx.target (ascii "127.0.0.1")).matched
      = s.rules.any fun r =>
          IsCandidate s.rules ctx.target r ∧ eligible ctx.host (ascii "127.0.0.1") r := by
    rw [matchRoute_matched, Bool.eq_iff_iff, List.any_eq_true]
    rw [hS, finalized_isSome_iff, ← hS]
    simp only [decide_eq_true_eq, eligible_iff]
    constructor
    · rintro ⟨r, hr, heligible⟩
      exact ⟨r, hr.1, hr, heligible⟩
    · rintro ⟨r, -, hr, heligible⟩
      exact ⟨r, hr, heligible⟩
  simp only [Worker.routeResponse, scanResponse, hmatched, notFound]

lemma compiled_routesAfter {w : Worker} {actions : List SpineAction}
    (hw : Compiled w.routeConfig)
    (hpublished : ∀ snapshot, .reloadRouteConfig snapshot ∈ actions → Compiled snapshot) :
    Compiled (routesAfter w actions) := by
  rw [routesAfter]
  cases hlast : lastSome published actions with
  | none => exact hw
  | some snapshot =>
      obtain ⟨a, ha, hpublish⟩ := exists_of_lastSome hlast
      cases a with
      | reloadRouteConfig snapshot' =>
          obtain rfl : snapshot' = snapshot := Option.some.inj hpublish
          exact hpublished snapshot' ha
      | _ => exact absurd hpublish (by simp [published])

/-- What `handleConnection` sends to a request that asks for a route. -/
lemma answer_of_route {L : Llhttp} {w : Worker} {arrivals : List Arrival} {ctx : RequestContext}
    {c : Http1Codec L} (hread : (asyncReadSome arrivals).1 ≠ some .other)
    (hparse : (Http1Codec.new {} : Http1Codec L).parse (asyncReadSome arrivals).2.1 {}
      = (.kSuccess, ctx, c))
    (hget : ctx.method = ascii "GET") (htarget : ctx.target ≠ kMetricsPath) :
    w.answer L arrivals = some (Worker.routeResponse w.routeConfig ctx) := by
  rw [Worker.answer_of_read L hread, Worker.respond, hparse]
  simp [Worker.dispatch, hget, htarget, Worker.recordRequest]

/-- **A reload is atomic.**  If only finalized snapshots are published, a request for a route is
answered as a plain scan of one list of rules says: that of the snapshot published last before the
request was read. -/
theorem answered_by_published_rules (L : Llhttp) (w : Worker) (actions : List SpineAction)
    (hw : Compiled w.routeConfig)
    (hpublished : ∀ snapshot, .reloadRouteConfig snapshot ∈ actions → Compiled snapshot)
    (k : ℕ) (view : ByteString) (r : Response) (ctx : RequestContext) (c : Http1Codec L)
    (hview : (reached L w actions).requestOf k = some view)
    (hresponse : (reached L w actions).responseOf k = some r)
    (hparse : (Http1Codec.new {} : Http1Codec L).parse view {} = (.kSuccess, ctx, c))
    (hget : ctx.method = ascii "GET") (htarget : ctx.target ≠ kMetricsPath) :
    ∃ before arrivals after, actions = before ++ .handle k (.read arrivals) :: after ∧
      ReadAfter L w k before arrivals view ∧
      r = scanResponse (routesAfter w before).rules ctx := by
  obtain ⟨before, arrivals, after, rfl, hread, hanswer⟩ := exists_readAfter hview
  refine ⟨before, arrivals, after, rfl, hread, ?_⟩
  have hcompiled : Compiled (routesAfter w before) := by
    refine compiled_routesAfter hw ?_
    intro snapshot hsnapshot
    exact hpublished snapshot (List.mem_append_left _ hsnapshot)
  rw [hread.view_eq] at hparse
  have hr := hanswer r hresponse
  rw [answer_of_route hread.succeeds hparse hget htarget, routeConfig_reached,
    routeResponse_of_compiled hcompiled] at hr
  exact (Option.some.inj hr).symm

/-- The root is not found, although it is there before and after. -/
theorem answered_by_published_rules_takenAway :
    ∃ before arrivals after, takenAway = before ++ .handle 0 (.read arrivals) :: after ∧
      notFound = scanResponse (routesAfter defaultWorker before).rules
        ((Http1Codec.new {} : Http1Codec llhttpOnRoot).parse requestRoot {}).2.1 := by
  have hpublished : ∀ snapshot, .reloadRouteConfig snapshot ∈ takenAway → Compiled snapshot := by
    intro snapshot hsnapshot
    simp only [takenAway, List.mem_cons, SpineAction.reloadRouteConfig.injEq, reduceCtorEq,
      false_or, or_false, List.not_mem_nil] at hsnapshot
    rcases hsnapshot with rfl | rfl <;> exact compiled_finalized _ _
  have hsuccess : ((Http1Codec.new {} : Http1Codec llhttpOnRoot).parse requestRoot {}).1
      = .kSuccess := by
    decide +kernel
  obtain ⟨before, arrivals, after, hsplit, -, hr⟩ :=
    answered_by_published_rules llhttpOnRoot defaultWorker takenAway (compiled_finalized _ _)
      hpublished 0 requestRoot notFound _ _ (by decide +kernel) (by decide +kernel)
      (Prod.ext hsuccess rfl) (by decide +kernel) (by decide +kernel)
  exact ⟨before, arrivals, after, hsplit, hr⟩

end Netp2.Runtime
