import Netp2.Runtime.SharedRoutes

/-!
# Routes are there while they are used

A run of the spine with its routes in memory is a run of the spine with its routes as a value: the
load decides, and the match and all that other threads do with their handles is not noticed
(`Follows`).  What carries this is that the references are counted, and that nothing is destroyed
that a connection has loaded (`Sound`).

`shared_routes` holds of every interleaving.  `handle_connection` never looks at a snapshot that has
been destroyed; only a null pointer can stop it.
-/

namespace Netp2.Runtime

open ByteString Netp2.Config Netp2.Protocol Netp2.Routing RefCount StepRun

/-! ## What a connection holds on to -/

namespace SharedPhase

variable {L : Llhttp}

/-- A connection that waits for the upstream has a snapshot that its request matches. -/
def Holds (L : Llhttp) (heap : Heap RouteSnapshot) : SharedPhase → Prop
  | outside phase => phase.waitsUpstream = false
  | matching _ _ => True
  | upstream requestView built routeSnapshot =>
      ∃ snapshot, heap.deref routeSnapshot = some snapshot ∧
        routeMatched L snapshot requestView ∧ built = routeBuilt L snapshot requestView

/-- What has been loaded for a match is not null. -/
def Loaded : SharedPhase → Prop
  | matching _ routeSnapshot => routeSnapshot ≠ none
  | _ => True

variable {heap heap' : Heap RouteSnapshot} {c : SharedPhase}

lemma toPhase_of_deref (h : heap'.deref c.routeSnapshot = heap.deref c.routeSnapshot) :
    c.toPhase L heap' = c.toPhase L heap := by
  cases c with
  | matching requestView routeSnapshot => exact congrArg (fun o => routePhase L (o.getD {}) _) h
  | _ => rfl

lemma Holds.of_deref (hc : c.Holds L heap)
    (h : heap'.deref c.routeSnapshot = heap.deref c.routeSnapshot) : c.Holds L heap' := by
  cases c with
  | outside phase => exact hc
  | matching requestView routeSnapshot => trivial
  | upstream requestView built routeSnapshot =>
      obtain ⟨snapshot, hsnapshot, hmatched⟩ := hc
      exact ⟨snapshot, h.trans hsnapshot, hmatched⟩

end SharedPhase

namespace SharedSpine

variable {L : Llhttp} {s s' : SharedSpine}

def held (s : SharedSpine) : List (Option ℕ) :=
  s.connections.map SharedPhase.routeSnapshot

/-- The references to an address: those of connections, and those of others. -/
def references (s : SharedSpine) (p : ℕ) : ℕ :=
  s.held.count (some p) + s.routes.references p

/-- **The references are counted**, those of connections included. -/
structure Sound (L : Llhttp) (s : SharedSpine) : Prop where
  counted : Counted s.routes.heap s.references
  holds : ∀ c ∈ s.connections, c.Holds L s.routes.heap

lemma references_of_mem {c : SharedPhase} (hc : c ∈ s.connections) {p : ℕ}
    (hp : c.routeSnapshot = some p) : 0 < s.references p := by
  have hmem : some p ∈ s.held := List.mem_map.mpr ⟨c, hc, hp⟩
  have hcount := List.count_pos_iff.mpr hmem
  rw [references]
  omega

/-- Whoever does not take part in a step finds its snapshot as it was. -/
lemma deref_of_mem (h : Counted s.routes.heap s.references)
    (h' : Counted s'.routes.heap s'.references)
    (hvalues : s.routes.heap.map Block.value <+: s'.routes.heap.map Block.value) {c : SharedPhase}
    (hc : c ∈ s.connections) (hc' : c ∈ s'.connections) :
    s'.routes.heap.deref c.routeSnapshot = s.routes.heap.deref c.routeSnapshot := by
  cases href : c.routeSnapshot with
  | none => rfl
  | some p => exact h.deref_kept h' hvalues (references_of_mem hc href) (references_of_mem hc' href)

/-- A step with the routes in memory, and what it comes to without. -/
structure Follows (L : Llhttp) (s s' : SharedSpine) (seen : List SpineAction) : Prop where
  sound : Sound L s'
  toSpine_eq : s'.toSpine L = final (RuntimeSpine.step L) (s.toSpine L) seen

/-- **A connection moves on**, and the others stay where they are. -/
lemma moves {k : ℕ} {c : SharedPhase} (c' : SharedPhase) (w : Worker)
    (heap : Heap RouteSnapshot)
    (hs : Sound L s) (hk : s.connections[k]? = some c)
    (hcounted : ∀ n : ℕ → ℕ, (∀ p, n p + hits c.routeSnapshot p
      = s.references p + hits c'.routeSnapshot p) → Counted heap n)
    (hvalues : heap.map Block.value = s.routes.heap.map Block.value)
    (hholds : c'.Holds L heap) :
    let s' := { s with
      worker := w, connections := s.connections.set k c', routes := { s.routes with heap := heap } }
    Sound L s' ∧ (s'.toSpine L).connections
      = (s.toSpine L).connections.set k (c'.toPhase L heap) := by
  intro s'
  have hheld : s'.held = s.held.set k c'.routeSnapshot := List.map_set ..
  have hcounted' : Counted s'.routes.heap s'.references := by
    refine hcounted _ ?_
    intro p
    have hold : s.held[k]? = some c.routeSnapshot := by simp [held, hk]
    have hset := count_set_add_hits hold c'.routeSnapshot p
    have hreferences : s'.routes.references p = s.routes.references p := rfl
    rw [references, references, hheld, hreferences]
    omega
  have hderef : ∀ j x, s.connections[j]? = some x → j ≠ k →
      heap.deref x.routeSnapshot = s.routes.heap.deref x.routeSnapshot := by
    intro j x hj hjk
    refine deref_of_mem hs.counted hcounted' (hvalues ▸ List.prefix_rfl)
      (List.mem_of_getElem? hj) ?_
    refine List.mem_of_getElem? (i := j) ?_
    rw [List.getElem?_set_ne hjk.symm, hj]
  have hlt : k < s.connections.length := (List.getElem?_eq_some_iff.mp hk).1
  refine ⟨⟨hcounted', ?_⟩, ?_⟩
  · intro x hx
    obtain ⟨j, hj⟩ := List.mem_iff_getElem?.mp hx
    by_cases hjk : j = k
    · subst hjk
      rw [List.getElem?_set_self hlt, Option.some.injEq] at hj
      exact hj ▸ hholds
    · rw [List.getElem?_set_ne (Ne.symm hjk)] at hj
      exact (hs.holds x (List.mem_of_getElem? hj)).of_deref (hderef j x hj hjk)
  · refine List.ext_getElem? ?_
    intro j
    by_cases hjk : j = k
    · subst hjk
      simp [toSpine, s', hlt]
    · simp only [toSpine, s', List.getElem?_map, List.getElem?_set_ne (Ne.symm hjk)]
      cases hj : s.connections[j]? with
      | none => rfl
      | some x => exact congrArg some (SharedPhase.toPhase_of_deref (hderef j x hj hjk))

/-! ## One step -/

lemma set_of_getElem? {α : Type} {xs : List α} {k : ℕ} {x : α} (h : xs[k]? = some x) :
    xs.set k x = xs := by
  obtain ⟨hlt, rfl⟩ := List.getElem?_eq_some_iff.mp h
  exact List.set_getElem_self hlt

/-- What `handle` does with the routes as a value. -/
lemma step_handle {t : RuntimeSpine} {k : ℕ} {phase : Phase} (hk : t.connections[k]? = some phase)
    (wakeup : Wakeup) :
    (RuntimeSpine.step L t (.handle k wakeup)).2
      = { t with
          worker := (advance L t.worker phase wakeup).2.2
          connections := t.connections.set k (advance L t.worker phase wakeup).2.1 } := by
  simp only [RuntimeSpine.step, hk]

lemma connections_toSpine {k : ℕ} {c : SharedPhase} (hk : s.connections[k]? = some c) :
    (s.toSpine L).connections[k]? = some (c.toPhase L s.routes.heap) := by
  simp [toSpine, hk]

/-- The published snapshot stays as it is, as long as it is published. -/
lemma routeConfig_kept (h : Counted s.routes.heap s.references)
    (h' : Counted s'.routes.heap s'.references)
    (hvalues : s.routes.heap.map Block.value <+: s'.routes.heap.map Block.value)
    (hcurrent : s'.routes.manager.current = s.routes.manager.current) :
    s'.routeConfig = s.routeConfig := by
  rw [routeConfig, routeConfig, hcurrent]
  cases href : s.routes.manager.current with
  | none => rfl
  | some p =>
      have hp := Shared.references_of_current href
      have hp' := Shared.references_of_current (hcurrent.trans href)
      rw [h.deref_kept h' hvalues (Nat.lt_of_lt_of_le hp (Nat.le_add_left _ _))
        (Nat.lt_of_lt_of_le hp' (Nat.le_add_left _ _))]

lemma follows_refl (hs : Sound L s) : Follows L s s [] := ⟨hs, rfl⟩

/-- The routes are loaded: one more reference to what is published. -/
lemma follows_load (hs : Sound L s) {k : ℕ} {phase : Phase} {wakeup : Wakeup}
    {requestView : ByteString} (hk : s.connections[k]? = some (.outside phase))
    (hloads : loads L phase wakeup = some requestView) :
    Follows L s (s.handle L k wakeup) [.handle k wakeup] := by
  have hhandle : s.handle L k wakeup = { s with
      worker := s.worker.recordRequest requestView.length
      connections := s.connections.set k (.matching requestView s.routes.manager.current)
      routes := { s.routes with heap := s.routes.heap.retain s.routes.manager.current } } := by
    simp only [handle, hk, hloads, ConfigSnapshotManager.load]
  obtain ⟨hsound, hconnections⟩ := moves (.matching requestView s.routes.manager.current)
    (s.worker.recordRequest requestView.length)
    (s.routes.heap.retain s.routes.manager.current) hs hk
    (fun n hn => hs.counted.retain
      (fun p hp => Nat.lt_of_lt_of_le (Shared.references_of_current hp) (Nat.le_add_left _ _))
      fun p => hn p) (Heap.map_value_retain _ _) trivial
  have hroutes := routeConfig_kept hs.counted hsound.counted
    (by rw [Heap.map_value_retain]) rfl
  rw [hhandle]
  refine ⟨hsound, ?_⟩
  rw [final, final, step_handle (connections_toSpine hk), SharedPhase.toPhase,
    advance_of_loads hloads]
  -- what is loaded is what is published
  refine (RuntimeSpine.mk.injEq ..).mpr ⟨?_, rfl, rfl, hconnections.trans ?_⟩
  · rw [hroutes]
    rfl
  · exact congrArg (fun routes => (s.toSpine L).connections.set k (routePhase L routes _)) hroutes

/-- A piece that does not load the routes does not touch them. -/
lemma follows_advance (hs : Sound L s) {k : ℕ} {phase : Phase} {wakeup : Wakeup}
    (hk : s.connections[k]? = some (.outside phase)) (hloads : loads L phase wakeup = none) :
    Follows L s (s.handle L k wakeup) [.handle k wakeup] := by
  have hhandle : s.handle L k wakeup = { s with
      worker := (advance L s.worker phase wakeup).2.2
      connections := s.connections.set k (.outside (advance L s.worker phase wakeup).2.1)
      routes := { s.routes with heap := s.routes.heap } } := by
    simp only [handle, hk, hloads]
  have hwaits : phase.waitsUpstream = false := hs.holds _ (List.mem_of_getElem? hk)
  obtain ⟨hsound, hconnections⟩ := moves
    (.outside (advance L s.worker phase wakeup).2.1)
    (advance L s.worker phase wakeup).2.2 s.routes.heap hs hk
    (fun n hn => hs.counted.of_eq hn) rfl (waitsUpstream_advance hloads hwaits s.worker)
  rw [hhandle]
  refine ⟨hsound, ?_⟩
  rw [final, final, step_handle (connections_toSpine hk), SharedPhase.toPhase]
  simp only [toSpine, advance_of_not_loads hloads s.worker s.routeConfig]
  exact (RuntimeSpine.mk.injEq ..).mpr ⟨rfl, rfl, rfl, hconnections⟩

/-- **The snapshot is let go of** by a connection whose response is built. -/
lemma follows_drop (requestView : ByteString) (built : BuiltResponse) (hs : Sound L s) {k : ℕ}
    {c : SharedPhase} (hk : s.connections[k]? = some c) :
    let s' := { s with
      connections := s.connections.set k (.outside (.posted requestView built))
      routes := { s.routes with heap := s.routes.heap.drop c.routeSnapshot } }
    Sound L s' ∧ s'.toSpine L = { s.toSpine L with
      connections := (s.toSpine L).connections.set k (.posted requestView built) } := by
  intro s'
  obtain ⟨hsound, hconnections⟩ := moves (.outside (.posted requestView built))
    s.worker (s.routes.heap.drop c.routeSnapshot) hs hk
    (fun n hn => hs.counted.drop fun p => (hn p).symm) (Heap.map_value_drop _ _) rfl
  have hroutes := routeConfig_kept hs.counted hsound.counted (by rw [Heap.map_value_drop]) rfl
  refine ⟨hsound, (RuntimeSpine.mk.injEq ..).mpr ⟨?_, rfl, rfl, hconnections⟩⟩
  rw [hroutes]
  rfl

lemma follows_handle (hs : Sound L s) (k : ℕ) (wakeup : Wakeup) :
    Follows L s (s.handle L k wakeup) (s.seen (.handle k wakeup)) := by
  cases hk : s.connections[k]? with
  | none =>
      simp only [handle, seen, hk]
      refine ⟨hs, ?_⟩
      simp [final, RuntimeSpine.step, toSpine, hk]
  | some c =>
      cases c with
      | outside phase =>
          simp only [seen, hk]
          cases hloads : loads L phase wakeup with
          | none => exact follows_advance hs hk hloads
          | some requestView => exact follows_load hs hk hloads
      | matching requestView routeSnapshot =>
          simp only [handle, seen, hk]
          exact follows_refl hs
      | upstream requestView built routeSnapshot =>
          have hwaits := connections_toSpine (L := L) hk
          cases wakeup with
          | resume coroutineOnExecutor =>
              obtain ⟨hsound, htoSpine⟩ := follows_drop requestView built hs hk
              simp only [handle, seen, hk]
              refine ⟨hsound, htoSpine.trans ?_⟩
              rw [final, final, step_handle hwaits]
              rfl
          | _ =>
              simp only [handle, seen, hk]
              refine ⟨hs, ?_⟩
              rw [final, final, step_handle hwaits]
              exact (RuntimeSpine.mk.injEq ..).mpr
                ⟨rfl, rfl, rfl, (set_of_getElem? hwaits).symm⟩

/-- **The match**, after any number of steps of others, has the result that the load decided. -/
lemma follows_matchRoute (hs : Sound L s) {k : ℕ} (h : s.matchRoute L k = some s') :
    Follows L s s' [] := by
  cases hk : s.connections[k]? with
  | none =>
      simp only [matchRoute, hk, Option.some.injEq] at h
      exact h ▸ follows_refl hs
  | some c =>
      cases c with
      | matching requestView routeSnapshot =>
          simp only [matchRoute, hk, Option.map_eq_some_iff] at h
          obtain ⟨snapshot, hsnapshot, hresult⟩ := h
          have hphase : (s.toSpine L).connections[k]?
              = some (routePhase L snapshot requestView) := by
            rw [connections_toSpine hk, SharedPhase.toPhase, hsnapshot]
            rfl
          by_cases hmatched : routeMatched L snapshot requestView = true
          · rw [if_pos hmatched] at hresult
            obtain ⟨hsound, hconnections⟩ := moves
              (.upstream requestView (routeBuilt L snapshot requestView) routeSnapshot)
              s.worker s.routes.heap hs hk
              (fun n hn => hs.counted.of_eq fun p => Nat.add_right_cancel (hn p)) rfl
              ⟨snapshot, hsnapshot, hmatched, rfl⟩
            subst hresult
            refine ⟨hsound, (RuntimeSpine.mk.injEq ..).mpr ⟨rfl, rfl, rfl, hconnections.trans ?_⟩⟩
            rw [routePhase, if_pos hmatched] at hphase
            exact set_of_getElem? hphase
          · rw [if_neg hmatched] at hresult
            obtain ⟨hsound, htoSpine⟩ := follows_drop requestView
              (routeBuilt L snapshot requestView) hs hk
            subst hresult
            refine ⟨hsound, htoSpine.trans ?_⟩
            rw [routePhase, if_neg hmatched] at hphase
            exact (RuntimeSpine.mk.injEq ..).mpr ⟨rfl, rfl, rfl, set_of_getElem? hphase⟩
      | _ =>
          simp only [matchRoute, hk, Option.some.injEq] at h
          exact h ▸ follows_refl hs

/-- **Whatever is done to handles outside of `handle_connection`**, only a publish is noticed. -/
lemma follows_routes (hs : Sound L s) (a : Action RouteSnapshot) :
    Follows L s { s with routes := (s.routes.step a).2 } (s.seen (.routes a)) := by
  let s' : SharedSpine := { s with routes := (s.routes.step a).2 }
  have hcounted : Counted s'.routes.heap s'.references :=
    Shared.counted_step_beside hs.counted a
  have hvalues : s.routes.heap.map Block.value <+: s'.routes.heap.map Block.value := by
    rw [Shared.values_step]
    exact List.prefix_append _ _
  have hderef : ∀ c ∈ s.connections, (s.routes.step a).2.heap.deref c.routeSnapshot
      = s.routes.heap.deref c.routeSnapshot := by
    intro c hc
    have hc' : c ∈ s'.connections := hc
    exact deref_of_mem hs.counted hcounted hvalues hc hc'
  refine ⟨⟨hcounted, fun c hc => (hs.holds c hc).of_deref (hderef c hc)⟩, ?_⟩
  have hconnections : s.connections.map (SharedPhase.toPhase L (s.routes.step a).2.heap)
      = s.connections.map (SharedPhase.toPhase L s.routes.heap) :=
    List.map_congr_left fun c hc => SharedPhase.toPhase_of_deref (hderef c hc)
  have hkept := routeConfig_kept hs.counted hcounted hvalues
  cases a with
  | publish k =>
      refine (RuntimeSpine.mk.injEq ..).mpr ⟨?_, rfl, rfl, hconnections⟩
      -- the handle is copied into the manager before it is emptied
      have hpublished : (s.routes.step (.publish k)).2.heap.deref (s.routes.handle k)
          = s.routes.heap.deref (s.routes.handle k) := by
        cases href : s.routes.handle k with
        | none => rfl
        | some p =>
            have hp := Shared.references_of_handle href
            have hp' : 0 < (s.routes.step (.publish k)).2.references p :=
              Shared.references_of_current href
            exact hs.counted.deref_kept hcounted hvalues
              (Nat.lt_of_lt_of_le hp (Nat.le_add_left _ _))
              (Nat.lt_of_lt_of_le hp' (Nat.le_add_left _ _))
      exact congrArg (fun routes : Option RouteSnapshot =>
        ({ s.worker with routeConfig := routes.getD {} } : Worker)) hpublished
  | _ =>
      refine (RuntimeSpine.mk.injEq ..).mpr ⟨?_, rfl, rfl, hconnections⟩
      exact congrArg (fun routes => ({ s.worker with routeConfig := routes } : Worker)) (hkept rfl)

/-- **A connection is accepted**, and it holds no snapshot yet. -/
lemma follows_accept (hs : Sound L s) {socketOnExecutor : Bool}
    (h : step L s (.accept socketOnExecutor) = some s') :
    Follows L s s' [.accept socketOnExecutor] := by
  have hvalue : final (RuntimeSpine.step L) (s.toSpine L) [.accept socketOnExecutor]
      = if !s.accepting then
          s.toSpine L
        else if s.worker.enableExecutorAffinityChecks ∧ !socketOnExecutor then
          toSpine L { s with worker := s.worker.countViolation }
        else
          toSpine L { s with
            worker := s.worker.recordAccept
            connections := s.connections ++ [.outside .spawned] } := by
    rw [final, final, RuntimeSpine.step, apply_ite Prod.snd, apply_ite Prod.snd]
    simp only [toSpine, List.map_append]
    rfl
  simp only [step] at h
  split_ifs at h with hends hcheck
  · obtain rfl := Option.some.inj h
    exact ⟨hs, by rw [hvalue, if_pos hends]⟩
  · obtain rfl := Option.some.inj h
    exact ⟨⟨hs.counted, hs.holds⟩, by rw [hvalue, if_neg hends, if_pos hcheck]⟩
  · obtain rfl := Option.some.inj h
    refine ⟨⟨hs.counted.of_eq ?_, ?_⟩, by rw [hvalue, if_neg hends, if_neg hcheck]⟩
    · intro p
      simp [references, held, SharedPhase.routeSnapshot]
    · intro c hc
      rcases List.mem_append.mp hc with hc | hc
      · exact hs.holds c hc
      · obtain rfl := List.mem_singleton.mp hc
        rfl

theorem follows_step (hs : Sound L s) {a : SharedAction} (h : step L s a = some s') :
    Follows L s s' (s.seen a) := by
  cases a with
  | handle k wakeup =>
      obtain rfl := Option.some.inj h
      exact follows_handle hs k wakeup
  | matchRoute k => exact follows_matchRoute hs h
  | routes a =>
      obtain rfl := Option.some.inj h
      exact follows_routes hs a
  | stop =>
      obtain rfl := Option.some.inj h
      exact ⟨⟨hs.counted, hs.holds⟩, rfl⟩
  | acceptFails aborted =>
      have hvalue : final (RuntimeSpine.step L) (s.toSpine L) [.acceptFails aborted]
          = if s.accepting ∧ (aborted ∨ !s.isOpen) then { s.toSpine L with accepting := false }
            else s.toSpine L := by
        rw [final, final, RuntimeSpine.step, apply_ite Prod.snd]
        rfl
      simp only [step] at h
      split_ifs at h with hends
      · obtain rfl := Option.some.inj h
        exact ⟨⟨hs.counted, hs.holds⟩, by rw [seen, hvalue, if_pos hends]; rfl⟩
      · obtain rfl := Option.some.inj h
        exact ⟨hs, by rw [seen, hvalue, if_neg hends]⟩
  | elsewhere metrics =>
      have hvalue : final (RuntimeSpine.step L) (s.toSpine L) [.elsewhere metrics]
          = if { s.worker with metrics := metrics }.shard = s.worker.shard then
              toSpine L { s with worker := { s.worker with metrics := metrics } }
            else s.toSpine L := by
        rw [final, final, RuntimeSpine.step, apply_ite Prod.snd]
        rfl
      simp only [step] at h
      split_ifs at h with hshard
      · obtain rfl := Option.some.inj h
        exact ⟨⟨hs.counted, hs.holds⟩, by rw [seen, hvalue, if_pos hshard]⟩
      · obtain rfl := Option.some.inj h
        exact ⟨hs, by rw [seen, hvalue, if_neg hshard]⟩
  | accept socketOnExecutor => exact follows_accept hs h

/-! ## Every run -/

lemma sound_start (w : Worker) : Sound L (start w) where
  counted := (invariant_reached [.make w.routeConfig, .publish 0]).counted.of_eq fun _ =>
    Nat.zero_add _
  holds _ hc := absurd hc List.not_mem_nil

theorem follows_run (hs : Sound L s) {actions : List SharedAction}
    (h : run L s actions = some s') : Follows L s s' (seenRun L s actions) := by
  induction actions generalizing s with
  | nil =>
      obtain rfl := Option.some.inj h
      exact follows_refl hs
  | cons a actions ih =>
      obtain ⟨t, hstep, hrun⟩ := Option.bind_eq_some_iff.mp h
      have hfirst := follows_step hs hstep
      have hrest := ih hfirst.sound hrun
      refine ⟨hrest.sound, ?_⟩
      rw [hrest.toSpine_eq, hfirst.toSpine_eq, seenRun, hstep, final_append]
      rfl

/-- What a connection refers to has not been destroyed. -/
lemma deref_routeSnapshot (hs : Sound L s) {c : SharedPhase} (hc : c ∈ s.connections)
    {p : ℕ} (hp : c.routeSnapshot = some p) :
    ∃ snapshot, s.routes.heap.deref (some p) = some snapshot := by
  have hreferences := references_of_mem hc hp
  obtain ⟨b, hb, -⟩ := hs.counted.alive hreferences
  exact ⟨b.value, by rw [hs.counted.deref_eq hreferences, List.getElem?_map, hb]; rfl⟩

/-- So a step fails at null alone. -/
lemma step_eq_none_iff (hs : Sound L s) (a : SharedAction) :
    step L s a = none ↔ ∃ k requestView, a = .matchRoute k ∧
      s.connections[k]? = some (.matching requestView none) := by
  constructor
  · intro h
    cases a with
    | matchRoute k =>
        cases hk : s.connections[k]? with
        | none => simp [step, matchRoute, hk] at h
        | some c =>
            cases c with
            | matching requestView routeSnapshot =>
                simp only [step, matchRoute, hk, Option.map_eq_none_iff] at h
                cases routeSnapshot with
                | none => exact ⟨k, requestView, rfl, hk⟩
                | some p =>
                    obtain ⟨snapshot, hsnapshot⟩ :=
                      deref_routeSnapshot hs (List.mem_of_getElem? hk) rfl
                    exact absurd (hsnapshot.symm.trans h) (Option.some_ne_none _)
            | _ => simp [step, matchRoute, hk] at h
    | stop => exact absurd h (Option.some_ne_none _)
    | handle k wakeup => exact absurd h (Option.some_ne_none _)
    | routes a => exact absurd h (Option.some_ne_none _)
    | _ =>
        simp only [step] at h
        split_ifs at h
  · rintro ⟨k, requestView, rfl, hk⟩
    simp only [step, matchRoute, hk]
    rfl

lemma run_eq_none_iff (hs : Sound L s) (actions : List SharedAction) :
    run L s actions = none ↔ ∃ before k after t requestView,
      actions = before ++ .matchRoute k :: after ∧ run L s before = some t ∧
        t.connections[k]? = some (.matching requestView none) := by
  induction actions generalizing s with
  | nil => simp [run]
  | cons a actions ih =>
      cases hstep : step L s a with
      | none =>
          obtain ⟨k, requestView, rfl, hk⟩ := (step_eq_none_iff hs a).mp hstep
          simp only [run, hstep, Option.bind_none, true_iff]
          exact ⟨[], k, actions, s, requestView, rfl, rfl, hk⟩
      | some t =>
          rw [run, hstep, Option.bind_some, ih (follows_step hs hstep).sound]
          constructor
          · rintro ⟨before, k, after, u, requestView, rfl, hrun, hk⟩
            exact ⟨a :: before, k, after, u, requestView, rfl, by rw [run, hstep]; exact hrun, hk⟩
          · rintro ⟨before, k, after, u, requestView, hsplit, hrun, hk⟩
            cases before with
            | nil =>
                obtain ⟨rfl, rfl⟩ := List.cons.inj hsplit
                obtain rfl := Option.some.inj hrun
                have hfails := (step_eq_none_iff hs _).mpr ⟨k, requestView, rfl, hk⟩
                exact absurd (hstep.symm.trans hfails) (Option.some_ne_none _)
            | cons b before =>
                obtain ⟨rfl, rfl⟩ := List.cons.inj hsplit
                rw [run, hstep] at hrun
                exact ⟨before, k, after, u, requestView, rfl, hrun, hk⟩

/-! ## Without null -/

/-- Every publish of the run is of a handle that is not null. -/
def PublishesSnapshots (L : Llhttp) (s : SharedSpine) : List SharedAction → Prop
  | [] => True
  | a :: actions => (∀ k, a = .routes (.publish k) → s.routes.handle k ≠ none) ∧
      ∀ t, step L s a = some t → PublishesSnapshots L t actions

/-- There is a snapshot wherever the routes are looked for. -/
structure NonNull (s : SharedSpine) : Prop where
  current : s.routes.manager.current ≠ none
  loaded : ∀ c ∈ s.connections, c.Loaded

lemma NonNull.set (hs : NonNull s) {k : ℕ} {c : SharedPhase} (hc : c.Loaded) :
    ∀ x ∈ s.connections.set k c, x.Loaded := by
  intro x hx
  rcases List.mem_or_eq_of_mem_set hx with hx | rfl
  · exact hs.loaded x hx
  · exact hc

lemma nonNull_handle (hs : NonNull s) (k : ℕ) (wakeup : Wakeup) :
    NonNull (s.handle L k wakeup) := by
  fun_cases handle L s k wakeup
  -- the load
  case case1 phase hk requestView loaded heap hload hloads =>
      obtain rfl : s.routes.manager.current = loaded := congrArg Prod.fst hload
      exact ⟨hs.current, hs.set hs.current⟩
  all_goals first
    | exact hs
    | exact ⟨hs.current, hs.set trivial⟩

lemma nonNull_matchRoute (hs : NonNull s) {k : ℕ} (h : s.matchRoute L k = some s') :
    NonNull s' := by
  cases hk : s.connections[k]? with
  | none =>
      simp only [matchRoute, hk, Option.some.injEq] at h
      exact h ▸ hs
  | some c =>
      cases c with
      | matching requestView routeSnapshot =>
          simp only [matchRoute, hk, Option.map_eq_some_iff] at h
          obtain ⟨snapshot, -, rfl⟩ := h
          split_ifs <;> exact ⟨hs.current, hs.set trivial⟩
      | _ =>
          simp only [matchRoute, hk, Option.some.injEq] at h
          exact h ▸ hs

lemma nonNull_step (hs : NonNull s) {a : SharedAction}
    (hpublish : ∀ k, a = .routes (.publish k) → s.routes.handle k ≠ none)
    (h : step L s a = some s') : NonNull s' := by
  cases a with
  | handle k wakeup => exact Option.some.inj h ▸ nonNull_handle hs k wakeup
  | matchRoute k => exact nonNull_matchRoute hs h
  | stop => exact Option.some.inj h ▸ ⟨hs.current, hs.loaded⟩
  | acceptFails aborted =>
      simp only [step] at h
      split_ifs at h <;> exact Option.some.inj h ▸ ⟨hs.current, hs.loaded⟩
  | accept socketOnExecutor =>
      simp only [step] at h
      split_ifs at h
      · exact Option.some.inj h ▸ hs
      · exact Option.some.inj h ▸ ⟨hs.current, hs.loaded⟩
      · refine Option.some.inj h ▸ ⟨hs.current, ?_⟩
        intro c hc
        rcases List.mem_append.mp hc with hc | hc
        · exact hs.loaded c hc
        · exact List.mem_singleton.mp hc ▸ trivial
  | elsewhere metrics =>
      simp only [step] at h
      split_ifs at h <;> exact Option.some.inj h ▸ ⟨hs.current, hs.loaded⟩
  | routes a =>
      refine Option.some.inj h ▸ ⟨?_, hs.loaded⟩
      cases a with
      | publish k => exact hpublish k rfl
      | _ => exact hs.current

/-- Without null no run fails. -/
lemma run_isSome (hs : Sound L s) (hn : NonNull s) {actions : List SharedAction}
    (hpublish : PublishesSnapshots L s actions) : (run L s actions).isSome := by
  induction actions generalizing s with
  | nil => rfl
  | cons a actions ih =>
      obtain ⟨hfirst, hrest⟩ := hpublish
      cases hstep : step L s a with
      | none =>
          obtain ⟨k, requestView, rfl, hk⟩ := (step_eq_none_iff hs a).mp hstep
          exact absurd rfl (hn.loaded _ (List.mem_of_getElem? hk))
      | some t =>
          rw [run, hstep, Option.bind_some]
          exact ih (follows_step hs hstep).sound (nonNull_step hn hfirst hstep) (hrest t hstep)

end SharedSpine

open SharedSpine

/-- **The routes in memory.**  Whatever connections, reloads and other threads do, and in whatever
order:
* a run fails exactly where a connection comes to match with a null pointer that it has loaded, and
  it never does if null is not published;
* otherwise it is a run of the spine with its routes as a value, in which each request is read and
  answered at its load;
* what a connection has loaded is alive, and one that waits for the upstream has the snapshot that
  its request matches and that its response comes from;
* a snapshot has as many references as there are handles of others, connections between their load
  and their response that have loaded it, and the one in the manager if it is published; and it has
  been destroyed, and then once, exactly if there are none. -/
theorem shared_routes (L : Llhttp) (w : Worker) (actions : List SharedAction) :
    (run L (start w) actions = none ↔ ∃ before k after s requestView,
      actions = before ++ .matchRoute k :: after ∧ run L (start w) before = some s ∧
        s.connections[k]? = some (.matching requestView none)) ∧
    (PublishesSnapshots L (start w) actions → (run L (start w) actions).isSome) ∧
    ∀ s, run L (start w) actions = some s →
      s.toSpine L = RuntimeSpine.reached L w (seenRun L (start w) actions) ∧
      (∀ c ∈ s.connections, c.Holds L s.routes.heap ∧ ∀ p, c.routeSnapshot = some p →
        ∃ snapshot, s.routes.heap.deref (some p) = some snapshot) ∧
      ∀ p b, s.routes.heap[p]? = some b →
        b.useCount = s.held.count (some p) + s.routes.references p ∧
        b.destructions = if s.held.count (some p) + s.routes.references p = 0 then 1 else 0 := by
  have hstart : Sound L (start w) := sound_start w
  refine ⟨run_eq_none_iff hstart actions, ?_, ?_⟩
  · exact run_isSome hstart ⟨nofun, nofun⟩
  · intro s hrun
    obtain ⟨hsound, htoSpine⟩ := follows_run hstart hrun
    refine ⟨htoSpine, ?_, ?_⟩
    · intro c hc
      exact ⟨hsound.holds c hc, fun p hp => deref_routeSnapshot hsound hc hp⟩
    · intro p b hb
      exact ⟨hsound.counted.useCount p b hb, hsound.counted.destructions p b hb⟩

/-- A snapshot without rules is published while the root is matched with the first one. -/
def replaced : List SharedAction :=
  [.accept true, .handle 0 (.start true true), .handle 0 (.read [.data requestRoot]),
    .routes (.make (finalized (.insertion fun _ => false) [])), .routes (.publish 1),
    .matchRoute 0]

/-- The first snapshot is there for as long as the connection waits for the upstream. -/
example :
    let counts := fun s : SharedSpine => s.routes.heap.map fun b => (b.useCount, b.destructions)
    (run llhttpOnRoot (start defaultWorker) replaced).map counts = some [(1, 0), (1, 0)] ∧
      (run llhttpOnRoot (start defaultWorker) (replaced ++ [.handle 0 (.resume true)])).map counts
        = some [(0, 1), (1, 0)] := by
  decide +kernel

end Netp2.Runtime
