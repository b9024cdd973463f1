import Netp2.Config.ConfigSnapshot
import Netp2.Runtime.Linearization

/-!
# The routes in memory

The spine has its routes in a `ConfigSnapshotManager`.  `handle_connection` loads them into a local
`std::shared_ptr`, matches the request with what it points to, and lets go of it when the response
is built: at once, or after the wait for the upstream if a rule has matched.  Meanwhile other
threads make snapshots, copy their handles, and publish new ones or null.

The spine of `Serving` has its routes as a value.  `SharedSpine` is the same spine with its routes
in memory, and here the load and the match are two steps, as anything may be published between them.
`toSpine` and `seen` say which spine, and which steps, that is with the routes as a value.
-/

namespace Netp2.Runtime

open ByteString Netp2.Config Netp2.Observability Netp2.Protocol Netp2.Routing RefCount StepRun

/-! ## The last branch of `handle_connection` -/

section Branch

variable (L : Llhttp)

/-- Whether `handle_connection` gets to its last branch. -/
def asksRoute (requestView : ByteString) : Bool :=
  let (parseResult, ctx) := parsed L requestView
  parseResult = .kSuccess ∧ ctx.method = ascii "GET" ∧ ctx.target ≠ kMetricsPath

def routeMatched (snapshot : RouteSnapshot) (requestView : ByteString) : Bool :=
  let (_, ctx) := parsed L requestView
  (snapshot.matchRoute ctx.host ctx.target (ascii "127.0.0.1")).matched

/-- The response of the last branch. -/
def routeBuilt (snapshot : RouteSnapshot) (requestView : ByteString) : BuiltResponse where
  response := Worker.routeResponse snapshot (parsed L requestView).2
  statusCode_mem := by
    have hroute := Worker.routeResponse_statusCode_mem snapshot (parsed L requestView).2
    simp only [List.mem_cons, List.not_mem_nil, or_false] at hroute ⊢
    rcases hroute with h | h <;> simp [h]

end Branch

/-! ## The spine with its routes in memory -/

/-- Where a connection waits, or that it has loaded the routes and not matched with them yet.  The
local `route_snapshot` is there from the load until the wait for the upstream is over. -/
inductive SharedPhase where
  | outside (phase : Phase)
  | matching (requestView : ByteString) (routeSnapshot : Option ℕ)
  | upstream (requestView : ByteString) (built : BuiltResponse) (routeSnapshot : Option ℕ)

namespace SharedPhase

def routeSnapshot : SharedPhase → Option ℕ
  | outside _ => none
  | matching _ routeSnapshot => routeSnapshot
  | upstream _ _ routeSnapshot => routeSnapshot

end SharedPhase

/-- The routes in `worker` are not used; those of the spine are in `routes`, with the heap and the
handles of other threads. -/
structure SharedSpine where
  worker : Worker
  isOpen : Bool := true
  accepting : Bool := true
  connections : List SharedPhase := []
  routes : Shared RouteSnapshot

/-- The steps.  `routes` is what any thread does with handles outside of `handle_connection`; to
reload is to publish one of them. -/
inductive SharedAction where
  | stop
  | acceptFails (aborted : Bool)
  | accept (socketOnExecutor : Bool)
  | handle (k : ℕ) (wakeup : Wakeup)
  | matchRoute (k : ℕ)
  | elsewhere (metrics : MetricsRegistry)
  | routes (a : Action RouteSnapshot)

/-- The request for a route that a piece of `handle_connection` reads, if it does. -/
def loads (L : Llhttp) : Phase → Wakeup → Option ByteString
  | .reading, .read arrivals =>
      let (readError, requestView, _) := asyncReadSome arrivals
      if readError ≠ some .other ∧ asksRoute L requestView then some requestView else none
  | _, _ => none

namespace SharedSpine

variable (L : Llhttp)

/-- The constructor makes a snapshot and publishes it. -/
def start (w : Worker) : SharedSpine where
  worker := (RuntimeSpine.start w).worker
  routes := Config.reached [.make w.routeConfig, .publish 0]

/-- The piece of `handle_connection` that runs when the waiting is over, up to the load if there
is one. -/
def handle (s : SharedSpine) (k : ℕ) (wakeup : Wakeup) : SharedSpine :=
  match s.connections[k]? with
  | some (.outside phase) =>
      match loads L phase wakeup with
      | some requestView =>
          let (loaded, heap) := s.routes.manager.load s.routes.heap
          { s with
            worker := s.worker.recordRequest requestView.length
            connections := s.connections.set k (.matching requestView loaded)
            routes := { s.routes with heap := heap } }
      | none =>
          let (_, phase, w) := advance L s.worker phase wakeup
          { s with worker := w, connections := s.connections.set k (.outside phase) }
  | some (.upstream requestView built routeSnapshot) =>
      match wakeup with
      | .resume _ =>
          { s with
            connections := s.connections.set k (.outside (.posted requestView built))
            routes := { s.routes with heap := s.routes.heap.drop routeSnapshot } }
      | _ => s
  -- who has just loaded the routes does not wait for anything
  | some (.matching _ _) => s
  | none => s

/-- The piece behind the load.  It fails where it meets a null pointer, or one to a snapshot that
has been destroyed. -/
def matchRoute (s : SharedSpine) (k : ℕ) : Option SharedSpine :=
  match s.connections[k]? with
  | some (.matching requestView routeSnapshot) =>
      (s.routes.heap.deref routeSnapshot).map fun snapshot =>
        let built := routeBuilt L snapshot requestView
        if routeMatched L snapshot requestView then
          { s with
            connections := s.connections.set k (.upstream requestView built routeSnapshot) }
        else
          { s with
            connections := s.connections.set k (.outside (.posted requestView built))
            routes := { s.routes with heap := s.routes.heap.drop routeSnapshot } }
  | _ => some s

def step (s : SharedSpine) : SharedAction → Option SharedSpine
  | .stop => some { s with isOpen := false }
  | .acceptFails aborted =>
      if s.accepting ∧ (aborted ∨ !s.isOpen) then some { s with accepting := false } else some s
  | .accept socketOnExecutor =>
      if !s.accepting then
        some s
      else if s.worker.enableExecutorAffinityChecks ∧ !socketOnExecutor then
        some { s with worker := s.worker.countViolation }
      else
        some { s with
          worker := s.worker.recordAccept
          connections := s.connections ++ [.outside .spawned] }
  | .handle k wakeup => some (s.handle L k wakeup)
  | .matchRoute k => s.matchRoute L k
  | .elsewhere metrics =>
      let w := { s.worker with metrics := metrics }
      if w.shard = s.worker.shard then some { s with worker := w } else some s
  | .routes a => some { s with routes := (s.routes.step a).2 }

/-- One step after the other, until one fails. -/
def run (s : SharedSpine) : List SharedAction → Option SharedSpine
  | [] => some s
  | a :: actions => (step L s a).bind fun s => run s actions

end SharedSpine

/-! ## The same spine with its routes as a value -/

/-- Where the last branch leads to. -/
def routePhase (L : Llhttp) (snapshot : RouteSnapshot) (requestView : ByteString) : Phase :=
  let built := routeBuilt L snapshot requestView
  if routeMatched L snapshot requestView then .upstream requestView built
  else .posted requestView built

namespace SharedPhase

/-- What is loaded decides where the connection goes next. -/
def toPhase (L : Llhttp) (heap : Heap RouteSnapshot) : SharedPhase → Phase
  | outside phase => phase
  | matching requestView routeSnapshot =>
      routePhase L ((heap.deref routeSnapshot).getD {}) requestView
  | upstream requestView built _ => .upstream requestView built

end SharedPhase

namespace SharedSpine

variable (L : Llhttp)

/-- The published routes.  Null counts as a snapshot without rules. -/
def routeConfig (s : SharedSpine) : RouteSnapshot :=
  (s.routes.heap.deref s.routes.manager.current).getD {}

def toSpine (s : SharedSpine) : RuntimeSpine where
  worker := { s.worker with routeConfig := s.routeConfig }
  isOpen := s.isOpen
  accepting := s.accepting
  connections := s.connections.map (SharedPhase.toPhase L s.routes.heap)

/-- What a step comes to, with the routes as a value.  A match has been decided by the load. -/
def seen (s : SharedSpine) : SharedAction → List SpineAction
  | .stop => [.stop]
  | .acceptFails aborted => [.acceptFails aborted]
  | .accept socketOnExecutor => [.accept socketOnExecutor]
  | .handle k wakeup =>
      match s.connections[k]? with
      | some (.matching _ _) => []
      | _ => [.handle k wakeup]
  | .matchRoute _ => []
  | .elsewhere metrics => [.elsewhere metrics]
  | .routes (.publish k) =>
      [.reloadRouteConfig ((s.routes.heap.deref (s.routes.handle k)).getD {})]
  | .routes _ => []

def seenRun (s : SharedSpine) : List SharedAction → List SpineAction
  | [] => []
  | a :: actions => s.seen a ++ ((step L s a).elim [] fun s => seenRun s actions)

end SharedSpine

/-! ## One piece of `handle_connection` -/

section Piece

variable {L : Llhttp}

lemma asksRoute_iff {requestView : ByteString} : asksRoute L requestView = true ↔
    (parsed L requestView).1 = .kSuccess ∧ (parsed L requestView).2.method = ascii "GET" ∧
      (parsed L requestView).2.target ≠ kMetricsPath :=
  decide_eq_true_iff

lemma respond_eq (w : Worker) (requestView : ByteString) :
    w.respond L requestView = w.dispatch (parsed L requestView).1 (parsed L requestView).2 := rfl

lemma build_of_asksRoute {requestView : ByteString} (h : asksRoute L requestView = true)
    (w : Worker) : w.build L requestView = routeBuilt L w.routeConfig requestView := by
  obtain ⟨hparse, hget, htarget⟩ := asksRoute_iff.mp h
  simp [Worker.build, routeBuilt, respond_eq, Worker.dispatch, hparse, hget, htarget]

lemma callsUpstream_eq (w : Worker) (requestView : ByteString) :
    w.callsUpstream L requestView
      = (asksRoute L requestView && routeMatched L w.routeConfig requestView) := by
  rw [Bool.eq_iff_iff, Bool.and_eq_true, asksRoute_iff, and_assoc, and_assoc]
  exact decide_eq_true_iff

/-- Only the last branch looks at the routes. -/
lemma build_of_not_asksRoute {requestView : ByteString} (h : ¬asksRoute L requestView = true)
    (w : Worker) (routes : RouteSnapshot) :
    Worker.build L { w with routeConfig := routes } requestView = w.build L requestView := by
  rw [asksRoute_iff] at h
  simp only [Worker.build, respond_eq, Worker.dispatch, BuiltResponse.mk.injEq]
  split_ifs with hparse hget htarget
  · rfl
  · rfl
  · rfl
  · exact absurd ⟨not_not.mp hparse, not_not.mp hget, htarget⟩ h

/-- **The load is the piece that reads a request for a route**, and the routes decide where it
leads to. -/
lemma advance_of_loads {phase : Phase} {wakeup : Wakeup} {requestView : ByteString}
    (h : loads L phase wakeup = some requestView) (w : Worker) :
    (advance L w phase wakeup).2
      = (routePhase L w.routeConfig requestView, w.recordRequest requestView.length) := by
  cases phase with
  | reading =>
      cases wakeup with
      | read arrivals =>
          simp only [loads, Option.ite_none_right_eq_some, Option.some.injEq] at h
          obtain ⟨⟨hread, hasks⟩, rfl⟩ := h
          simp only [advance, hread, if_false, build_of_asksRoute hasks, callsUpstream_eq, hasks,
            Bool.true_and]
          rfl
      | _ => exact absurd h (by simp [loads])
  | _ => exact absurd h (by simp [loads])

/-- A piece that reads no request for a route leads nowhere else with other routes. -/
lemma advance_of_not_loads {phase : Phase} {wakeup : Wakeup} (h : loads L phase wakeup = none)
    (w : Worker) (routes : RouteSnapshot) :
    (advance L { w with routeConfig := routes } phase wakeup).2
      = ((advance L w phase wakeup).2.1,
        { (advance L w phase wakeup).2.2 with routeConfig := routes }) := by
  cases phase with
  | reading =>
      cases wakeup with
      | read arrivals =>
          by_cases hread : (asyncReadSome arrivals).1 = some .other
          · simp only [advance, hread, if_true]
          · have hasks : ¬asksRoute L (asyncReadSome arrivals).2.1 = true := by
              intro hasks
              exact Option.some_ne_none _ (h.symm.trans (if_pos ⟨hread, hasks⟩)).symm
            have hbuild := build_of_not_asksRoute hasks
              (w.recordRequest (asyncReadSome arrivals).2.1.length) routes
            simp only [advance, hread, if_false, callsUpstream_eq, hasks, Bool.false_and,
              Bool.false_eq_true]
            rw [← hbuild]
            rfl
      | _ => rfl
  | spawned =>
      cases wakeup with
      | start socketOnExecutor coroutineOnExecutor =>
          simp only [advance]
          split_ifs <;> rfl
      | _ => rfl
  | posted requestView built =>
      cases wakeup with
      | resume coroutineOnExecutor =>
          simp only [advance]
          split_ifs <;> rfl
      | _ => rfl
  | writing requestView built =>
      cases wakeup with
      | write succeeds => cases succeeds <;> rfl
      | _ => rfl
  | upstream requestView built => cases wakeup <;> rfl
  | written requestView built => cases wakeup <;> rfl
  | left requestView => cases wakeup <;> rfl

def Phase.waitsUpstream : Phase → Bool
  | .upstream _ _ => true
  | _ => false

lemma waitsUpstream_advance {phase : Phase} {wakeup : Wakeup} (h : loads L phase wakeup = none)
    (hphase : phase.waitsUpstream = false) (w : Worker) :
    (advance L w phase wakeup).2.1.waitsUpstream = false := by
  fun_cases advance L w phase wakeup
  case case5 arrivals readError requestView unread hsome hread w' built phase' =>
      have hasks : ¬asksRoute L requestView = true := by
        intro hasks
        rw [loads, hsome] at h
        exact Option.some_ne_none _ (h.symm.trans (if_pos ⟨hread, hasks⟩)).symm
      simp only [phase', callsUpstream_eq, hasks, Bool.false_and]
      rfl
  case case11 => exact hphase
  all_goals rfl

end Piece

end Netp2.Runtime
