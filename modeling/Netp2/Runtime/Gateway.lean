import Netp2.Runtime.Linearization

/-!
# The workers of a gateway

The workers of a `GatewayRuntime` run on threads of their own and share nothing but the metrics
registry, in which each of them has its shard.  `Gateway` is the registry with all the workers, and
a step is a step of one worker on the registry as it is.

For one worker the others are what `RuntimeSpine` has `elsewhere` for: as they keep to their shards,
each worker runs as it would among strangers (`Composed.projected`).  So what is proved of one spine
holds of each spine of a gateway: its shard accounts for its connections, and the totals in the
registry are sums over all connections of all workers (`gateway_accounted`).

A step of a worker records and renders in one moment.  `Scraping.lean` takes the steps apart.
-/

namespace Netp2.Runtime

open StepRun Netp2.Observability Netp2.Protocol

/-- The step is one that the worker takes itself. -/
def SpineAction.isOwn : SpineAction → Bool
  | .elsewhere _ => false
  | _ => true

/-- The worker sees the registry as it is. -/
def RuntimeSpine.sync (metrics : MetricsRegistry) (s : RuntimeSpine) : RuntimeSpine :=
  { s with worker := { s.worker with metrics := metrics } }

structure Gateway where
  metrics : MetricsRegistry
  spines : List RuntimeSpine := []

namespace Gateway

/-- One round of the loop in the constructor of `GatewayRuntime`, and the binding of the thread. -/
def addWorker (w : Worker) (g : Gateway) : Gateway :=
  let s := RuntimeSpine.start { w with metrics := g.metrics }
  { metrics := s.worker.metrics, spines := g.spines ++ [s] }

/-- A gateway in a process whose registry may have other shards. -/
def new (w : Worker) : ℕ → Gateway
  | 0 => { metrics := w.metrics }
  | n + 1 => (new w n).addWorker w

/-- What worker `i` does; the registry may be changed by workers only. -/
def step (L : Llhttp) (g : Gateway) (a : ℕ × SpineAction) :
    Option (ℕ × MetricsRecord) × Gateway :=
  match g.spines[a.1]? with
  | none => (none, g)
  | some s =>
      if a.2.isOwn then
        let (record, s) := RuntimeSpine.step L (s.sync g.metrics) a.2
        (record, { metrics := s.worker.metrics, spines := g.spines.set a.1 s })
      else
        (none, g)

def reached (L : Llhttp) (w : Worker) (n : ℕ) (actions : List (ℕ × SpineAction)) : Gateway :=
  final (step L) (new w n) actions

end Gateway

/-! ## A worker keeps to its shard -/

/-- The registry after a step is the one before it, but for a record in the shard of the worker. -/
inductive Touches (w : Worker) (metrics : MetricsRegistry) : Prop
  | same (h : metrics = w.metrics)
  | recorded (m : MetricsRecord) (h : metrics = m.call w.metrics w.tlsWorkerShard)

lemma touches_record (w : Worker) (m : MetricsRecord) : Touches w (w.record m).metrics :=
  .recorded m rfl

lemma touches_advance (L : Llhttp) (w : Worker) (phase : Phase) (wakeup : Wakeup) :
    Touches w (advance L w phase wakeup).2.2.metrics := by
  fun_cases advance L w phase wakeup
  case case5 w' _ _ =>
      simp only [w', Worker.recordRequest_eq]
      exact touches_record w _
  case case9 built =>
      simp only [Worker.recordResponse_eq]
      exact touches_record w _
  all_goals exact .same rfl

lemma touches_step (L : Llhttp) (s : RuntimeSpine) {a : SpineAction} (ha : a.isOwn = true) :
    Touches s.worker (s.step L a).2.worker.metrics := by
  cases a with
  | stop => exact .same rfl
  | acceptFails aborted =>
      simp only [RuntimeSpine.step]
      split_ifs <;> exact .same rfl
  | accept socketOnExecutor =>
      simp only [RuntimeSpine.step]
      split_ifs
      · exact .same rfl
      · exact .same rfl
      · exact .recorded .accept rfl
  | handle k wakeup =>
      cases hk : s.connections[k]? with
      | none =>
          simp only [RuntimeSpine.step, hk]
          exact .same rfl
      | some phase =>
          simp only [RuntimeSpine.step, hk]
          exact touches_advance L s.worker phase wakeup
  | reloadRouteConfig snapshot => exact .same rfl
  | elsewhere metrics => exact absurd ha (by simp [SpineAction.isOwn])

lemma tlsWorkerShard_step (L : Llhttp) (s : RuntimeSpine) (a : SpineAction) :
    (s.step L a).2.worker.tlsWorkerShard = s.worker.tlsWorkerShard := by
  cases a with
  | handle k wakeup =>
      cases hk : s.connections[k]? with
      | none => simp only [RuntimeSpine.step, hk]
      | some phase =>
          simp only [RuntimeSpine.step, hk]
          fun_cases advance L s.worker phase wakeup <;> rfl
  | acceptFails aborted =>
      simp only [RuntimeSpine.step]
      split_ifs <;> rfl
  | accept socketOnExecutor =>
      simp only [RuntimeSpine.step]
      split_ifs <;> rfl
  | elsewhere metrics =>
      simp only [RuntimeSpine.step]
      split_ifs <;> rfl
  | _ => rfl

/-- Other shards do not change. -/
lemma Touches.getElem? {w : Worker} {metrics : MetricsRegistry} (h : Touches w metrics) {i j : ℕ}
    (hi : w.tlsWorkerShard = some i) (hj : j ≠ i) : metrics.shards[j]? = w.metrics.shards[j]? := by
  cases h with
  | same h => rw [h]
  | recorded m h =>
      rw [h, MetricsRecord.call_eq, hi]
      exact List.getElem?_modify_ne _ _ hj.symm

lemma Touches.length_eq {w : Worker} {metrics : MetricsRegistry} (h : Touches w metrics) :
    metrics.shards.length = w.metrics.shards.length := by
  cases h with
  | same h => rw [h]
  | recorded m h =>
      rw [h, MetricsRecord.call_eq]
      cases w.tlsWorkerShard with
      | none => rfl
      | some i => exact List.length_modify _ _ _

/-- What worker `i` begins with: the shards of the workers before it are there. -/
def Worker.nth (w : Worker) (i : ℕ) : Worker :=
  { w with metrics := { shards := w.metrics.shards ++ List.replicate i (some {}) } }

namespace RuntimeSpine

@[simp] lemma sync_sync (metrics metrics' : MetricsRegistry) (s : RuntimeSpine) :
    (s.sync metrics).sync metrics' = s.sync metrics' := rfl

lemma sync_self (s : RuntimeSpine) : s.sync s.worker.metrics = s := rfl

/-- As long as its own shard is the same, a worker sees any change as `elsewhere`. -/
lemma step_elsewhere (L : Llhttp) (s : RuntimeSpine) {i : ℕ} {metrics : MetricsRegistry}
    (hi : s.worker.tlsWorkerShard = some i)
    (hshard : metrics.shards[i]? = s.worker.metrics.shards[i]?) :
    (s.step L (.elsewhere metrics)).2 = s.sync metrics := by
  have hsame : ({ s.worker with metrics := metrics } : Worker).shard = s.worker.shard := by
    simp only [Worker.shard, hi, Option.bind_some, hshard]
  simp only [step, hsame, if_true]
  rfl

end RuntimeSpine

namespace Gateway

variable {L : Llhttp} {w : Worker} {n : ℕ}

/-- The actions of worker `i`. -/
def actionsOf (i : ℕ) (actions : List (ℕ × SpineAction)) : List SpineAction :=
  (actions.filterMap fun a => if a.1 = i then some a.2 else none).filter SpineAction.isOwn

lemma actionsOf_concat (i : ℕ) (actions : List (ℕ × SpineAction)) (a : ℕ × SpineAction) :
    actionsOf i (actions ++ [a])
      = actionsOf i actions ++ if a.1 = i ∧ a.2.isOwn then [a.2] else [] := by
  rw [actionsOf, List.filterMap_append, List.filter_append]
  by_cases hi : a.1 = i <;> cases ha : a.2.isOwn <;> simp [actionsOf, hi, ha]

/-- **The workers are composed of spines.**  The shards are those that were there before and one for
each worker, and each worker, on the registry as it is, is in a state that its own actions reach
among strangers. -/
structure Composed (L : Llhttp) (w : Worker) (n : ℕ) (actions : List (ℕ × SpineAction))
    (g : Gateway) : Prop where
  length_spines : g.spines.length = n
  length_shards : g.metrics.shards.length = w.metrics.shards.length + n
  foreign : ∀ j < w.metrics.shards.length, g.metrics.shards[j]? = w.metrics.shards[j]?
  bound : ∀ i s, g.spines[i]? = some s →
    s.worker.tlsWorkerShard = some (w.metrics.shards.length + i)
  projected : ∀ i s, g.spines[i]? = some s → ∃ as,
    s.sync g.metrics = RuntimeSpine.reached L (w.nth i) as ∧
      as.filter SpineAction.isOwn = actionsOf i actions

/-! ### The constructor -/

lemma new_eq (w : Worker) (n : ℕ) :
    (new w n).metrics = (w.nth n).metrics ∧
      (new w n).spines = (List.range n).map fun i => RuntimeSpine.start (w.nth i) := by
  induction n with
  | zero => simp [new, Worker.nth]
  | succ n ih =>
      obtain ⟨hmetrics, hspines⟩ := ih
      have hstart : RuntimeSpine.start { w with metrics := (new w n).metrics }
          = RuntimeSpine.start (w.nth n) := by
        rw [hmetrics]
        rfl
      constructor
      · rw [new, addWorker, hstart]
        simp [RuntimeSpine.start, Worker.nth, List.replicate_succ']
      · rw [new, addWorker, hstart, hspines, List.range_succ, List.map_append]
        rfl

lemma composed_new (L : Llhttp) (w : Worker) (n : ℕ) : Composed L w n [] (new w n) := by
  obtain ⟨hmetrics, hspines⟩ := new_eq w n
  have hspine : ∀ i s, (new w n).spines[i]? = some s →
      i < n ∧ RuntimeSpine.start (w.nth i) = s := by
    intro i s hs
    rw [hspines, List.getElem?_map] at hs
    obtain ⟨j, hj, rfl⟩ := Option.map_eq_some_iff.mp hs
    obtain ⟨hlt, rfl⟩ := List.getElem?_eq_some_iff.mp hj
    rw [List.length_range] at hlt
    simp [hlt]
  refine ⟨by simp [hspines], by simp [hmetrics, Worker.nth], ?_, ?_, ?_⟩
  · intro j hj
    rw [hmetrics, Worker.nth, List.getElem?_append_left hj]
  · intro i s hs
    obtain ⟨-, rfl⟩ := hspine i s hs
    simp [RuntimeSpine.start, Worker.nth]
  · intro i s hs
    obtain ⟨hlt, rfl⟩ := hspine i s hs
    refine ⟨[.elsewhere (new w n).metrics], ?_, rfl⟩
    have hbound : (RuntimeSpine.start (w.nth i)).worker.tlsWorkerShard
        = some (w.metrics.shards.length + i) := by
      simp [RuntimeSpine.start, Worker.nth]
    refine (RuntimeSpine.step_elsewhere L _ hbound ?_).symm
    -- its shard is as new, on both sides
    rw [hmetrics]
    simp [RuntimeSpine.start, Worker.nth, hlt]

/-! ### A step -/

variable {actions : List (ℕ × SpineAction)} {g : Gateway}

/-- An action that is nobody's own changes nothing. -/
lemma Composed.idle (hg : Composed L w n actions g) {j : ℕ} {a : SpineAction}
    (hnone : ∀ s, g.spines[j]? = some s → a.isOwn = false) :
    Composed L w n (actions ++ [(j, a)]) g := by
  refine ⟨hg.length_spines, hg.length_shards, hg.foreign, hg.bound, ?_⟩
  intro i s hs
  obtain ⟨as, hreached, hown⟩ := hg.projected i s hs
  refine ⟨as, hreached, ?_⟩
  rw [actionsOf_concat, if_neg, List.append_nil, hown]
  rintro ⟨rfl, ha⟩
  exact absurd ((hnone s hs).symm.trans ha) (by decide)

/-- **A worker makes a step of its own**; for the others it is one of somebody elsewhere. -/
lemma Composed.own (hg : Composed L w n actions g) {j : ℕ} {s : RuntimeSpine} {a : SpineAction}
    (hj : g.spines[j]? = some s) (ha : a.isOwn = true) :
    Composed L w n (actions ++ [(j, a)]) (g.step L (j, a)).2 := by
  have htouches := touches_step L (s.sync g.metrics) ha
  have hbound : (s.sync g.metrics).worker.tlsWorkerShard
      = some (w.metrics.shards.length + j) := hg.bound j s hj
  have hlt : j < g.spines.length := (List.getElem?_eq_some_iff.mp hj).1
  simp only [Gateway.step, hj, ha, if_true]
  refine ⟨?_, ?_, ?_, ?_, ?_⟩
  · rw [List.length_set, hg.length_spines]
  · rw [htouches.length_eq]
    exact hg.length_shards
  · intro k hk
    rw [htouches.getElem? hbound (by omega)]
    exact hg.foreign k hk
  · intro i t ht
    by_cases hij : j = i
    · subst hij
      rw [List.getElem?_set_self hlt, Option.some.injEq] at ht
      rw [← ht, tlsWorkerShard_step, hbound]
    · rw [List.getElem?_set_ne hij] at ht
      exact hg.bound i t ht
  · intro i t ht
    by_cases hij : j = i
    · subst hij
      rw [List.getElem?_set_self hlt, Option.some.injEq] at ht
      obtain ⟨as, hreached, hown⟩ := hg.projected j s hj
      refine ⟨as ++ [a], ?_, ?_⟩
      · rw [← ht, RuntimeSpine.sync_self, RuntimeSpine.reached_concat, hreached]
      · rw [List.filter_append, hown, actionsOf_concat, if_pos ⟨rfl, ha⟩]
        simp [ha]
    · rw [List.getElem?_set_ne hij] at ht
      obtain ⟨as, hreached, hown⟩ := hg.projected i t ht
      generalize ((s.sync g.metrics).step L a).2.worker.metrics = metrics at htouches ⊢
      have hother : (t.sync g.metrics).worker.tlsWorkerShard
          = some (w.metrics.shards.length + i) := hg.bound i t ht
      refine ⟨as ++ [.elsewhere metrics], ?_, ?_⟩
      · rw [RuntimeSpine.reached_concat, ← hreached,
          RuntimeSpine.step_elsewhere L _ hother (htouches.getElem? hbound (by omega)),
          RuntimeSpine.sync_sync]
      · rw [List.filter_append, hown, actionsOf_concat, if_neg (fun h => hij h.1)]
        rfl

/-- **The step lemma.** -/
theorem Composed.step (hg : Composed L w n actions g) (a : ℕ × SpineAction) :
    Composed L w n (actions ++ [a]) (g.step L a).2 := by
  obtain ⟨j, a⟩ := a
  cases hj : g.spines[j]? with
  | none =>
      simp only [Gateway.step, hj]
      exact hg.idle (by simp [hj])
  | some s =>
      by_cases ha : a.isOwn = true
      · exact hg.own hj ha
      · simp only [Gateway.step, hj, ha]
        exact hg.idle fun _ _ => by simpa using ha

variable (L w n actions) in
theorem composed_reached : Composed L w n actions (reached L w n actions) := by
  induction actions using List.reverseRecOn with
  | nil => exact composed_new L w n
  | append_singleton actions a ih =>
      rw [reached, final_concat]
      exact ih.step a

/-! ### The totals -/

/-- What the connections of a worker contribute to a counter. -/
def charge (c : Counter) (s : RuntimeSpine) : ℕ :=
  (s.connections.map (Phase.charge c)).sum

/-- **Each shard accounts for the connections of its worker.** -/
lemma Composed.exists_shard (hg : Composed L w n actions g) {i : ℕ} {s : RuntimeSpine}
    (hs : g.spines[i]? = some s) :
    ∃ shard, g.metrics.shards[w.metrics.shards.length + i]? = some (some shard) ∧
      ∀ c : Counter, (c.get shard).toNat ≡ charge c s [MOD 2 ^ 64] := by
  obtain ⟨as, hreached, -⟩ := hg.projected i s hs
  have ha := RuntimeSpine.accounted_reached L (w.nth i) as
  rw [← hreached] at ha
  obtain ⟨shard, hshard, hcounted⟩ := ha.counted
  have hbound : (s.sync g.metrics).worker.tlsWorkerShard = some (w.metrics.shards.length + i) :=
    hg.bound i s hs
  rw [Worker.shard, hbound, Option.bind_some] at hshard
  have hjoin : g.metrics.shards[w.metrics.shards.length + i]?.join = some shard := hshard
  refine ⟨shard, Option.join_eq_some_iff.mp hjoin, fun c => ?_⟩
  exact (hcounted c).trans (congrArg (· % 2 ^ 64) (ha.total_eq c))

/-- The sum over the shards, part by part: those that were there before, and those of the
workers. -/
lemma Composed.sum_modEq (hg : Composed L w n actions g) (c : Counter) :
    (g.metrics.shards.reduceOption.map fun shard => (c.get shard).toNat).sum
      ≡ (w.metrics.shards.reduceOption.map fun shard => (c.get shard).toNat).sum
        + (g.spines.map (charge c)).sum [MOD 2 ^ 64] := by
  have hspines := Ledger.sum_reduceOption (charge c) (g.spines.map some)
  simp only [List.reduceOption, List.filterMap_map, Function.comp_def, id_eq,
    List.filterMap_some, List.length_map, List.getElem?_map] at hspines
  rw [Ledger.sum_reduceOption, Ledger.sum_reduceOption, hspines, hg.length_shards,
    Finset.sum_range_add, hg.length_spines]
  refine Nat.ModEq.add ?_ (Nat.ModEq.sum ?_)
  · refine Nat.ModEq.sum ?_
    intro j hj
    rw [hg.foreign j (Finset.mem_range.mp hj)]
  · intro i hi
    have hlt : i < g.spines.length := by
      rw [hg.length_spines]
      exact Finset.mem_range.mp hi
    have hs := List.getElem?_eq_getElem hlt
    obtain ⟨shard, hshard, hcounted⟩ := hg.exists_shard hs
    rw [hs, hshard]
    exact hcounted c

/-- A total is what it was before the gateway, plus what the workers contribute. -/
lemma Composed.total_modEq (hg : Composed L w n actions g) (c : Counter) :
    (g.metrics.total c.get).toNat
      ≡ (w.metrics.total c.get).toNat + (g.spines.map (charge c)).sum [MOD 2 ^ 64] := by
  rw [MetricsRegistry.toNat_total, MetricsRegistry.toNat_total]
  have hsum := hg.sum_modEq c
  exact (Nat.mod_modEq _ _).trans (hsum.trans ((Nat.mod_modEq _ _).symm.add_right _))

end Gateway

open Gateway

/-- **A gateway is the sum of its workers.**  In every state that the workers reach, whatever each
of them does and in whatever order: each worker is in a state that its own actions reach when it
runs alone, among strangers that leave its shard alone; its shard holds what its own connections
contribute, and the shards that were there before hold what they held; and each total in the
registry is what it was before the gateway, plus what all connections of all workers contribute. -/
theorem gateway_accounted (L : Llhttp) (w : Worker) (n : ℕ) (actions : List (ℕ × SpineAction)) :
    (∀ i s, (Gateway.reached L w n actions).spines[i]? = some s → ∃ as,
      s.sync (Gateway.reached L w n actions).metrics = RuntimeSpine.reached L (w.nth i) as ∧
        as.filter SpineAction.isOwn = actionsOf i actions) ∧
    (∀ i s, (Gateway.reached L w n actions).spines[i]? = some s → ∃ shard,
      (Gateway.reached L w n actions).metrics.shards[w.metrics.shards.length + i]?
          = some (some shard) ∧
        ∀ c : Counter, (c.get shard).toNat ≡ charge c s [MOD 2 ^ 64]) ∧
    (∀ j < w.metrics.shards.length,
      (Gateway.reached L w n actions).metrics.shards[j]? = w.metrics.shards[j]?) ∧
    ∀ c : Counter, ((Gateway.reached L w n actions).metrics.total c.get).toNat
      ≡ (w.metrics.total c.get).toNat
        + ((Gateway.reached L w n actions).spines.map (charge c)).sum [MOD 2 ^ 64] := by
  have hg := composed_reached L w n actions
  exact ⟨hg.projected, fun i s hs => hg.exists_shard hs, hg.foreign, hg.total_modEq⟩

end Netp2.Runtime
