import Netp2.Runtime.Gateway

/-!
# Affinity violations

A worker that checks executors counts the checks that fail, and drops what they fail for: a socket
that was just accepted, or a connection in one of its turns.

`total_affinity_violation_count` adds up the counters of the workers.  `violations_counted` says
that this is the number of failed checks, that no connection fails two, and that one which fails
is not answered.
-/

namespace Netp2.Runtime

open StepRun Netp2.Observability Netp2.Protocol

/-- The wakeup ends in an executor check that fails. -/
def Phase.failsCheck : Phase → Wakeup → Bool
  | .spawned, .start socketOnExecutor coroutineOnExecutor =>
      !(socketOnExecutor && coroutineOnExecutor)
  | .posted _ _, .resume coroutineOnExecutor => !coroutineOnExecutor
  | _, _ => false

/-- An executor check is made and fails. -/
def RuntimeSpine.checkFails (s : RuntimeSpine) : SpineAction → Bool
  | .accept socketOnExecutor =>
      s.accepting && s.worker.enableExecutorAffinityChecks && !socketOnExecutor
  | .handle k wakeup =>
      s.worker.enableExecutorAffinityChecks &&
        (s.connections[k]?.map (Phase.failsCheck · wakeup)).getD false
  | _ => false

/-! ## One step of a worker -/

section Step

variable (L : Llhttp)

/-- **What a failed check does**, and what a step without one leaves alone. -/
inductive Checks (w : Worker) (phase : Phase) (wakeup : Wakeup) :
    Option MetricsRecord × Phase × Worker → Prop
  | fails {view w'} (hchecks : w.enableExecutorAffinityChecks = true)
      (hfails : phase.failsCheck wakeup = true)
      (hcount : w'.affinityViolationCount = w.affinityViolationCount + 1)
      (hleft : ∀ v, phase ≠ .left v) : Checks w phase wakeup (none, .left view, w')
  | passes {record phase' w'}
      (hpasses : w.enableExecutorAffinityChecks = true → phase.failsCheck wakeup = false)
      (hcount : w'.affinityViolationCount = w.affinityViolationCount)
      (hleft : ∀ v, phase = .left v → phase' = .left v) :
      Checks w phase wakeup (record, phase', w')

lemma checks_advance (w : Worker) (phase : Phase) (wakeup : Wakeup) :
    Checks w phase wakeup (advance L w phase wakeup) := by
  fun_cases advance L w phase wakeup
  case case1 hfails => exact .fails hfails.1 (by simp_all [Phase.failsCheck]) rfl (by simp)
  case case2 hfails => exact .fails hfails.1 (by simp_all [Phase.failsCheck]) rfl (by simp)
  case case3 hsocket hstart =>
      refine .passes ?_ rfl (by simp)
      intro hchecks
      simp_all [Phase.failsCheck]
  case case7 hfails => exact .fails hfails.1 (by simp_all [Phase.failsCheck]) rfl (by simp)
  case case8 hpasses =>
      refine .passes ?_ rfl (by simp)
      intro hchecks
      simp_all [Phase.failsCheck]
  case case11 hspawned hreading hupstream hposted hwriting =>
      refine .passes ?_ rfl fun _ h => h
      intro _
      cases phase with
      | spawned =>
          cases wakeup with
          | start => exact (hspawned _ _ rfl rfl).elim
          | _ => rfl
      | posted =>
          cases wakeup with
          | resume => exact (hposted _ _ _ rfl rfl).elim
          | _ => rfl
      | _ => rfl
  all_goals exact .passes (fun _ => rfl) rfl (by simp)

/-- The counter of a worker counts the checks that fail. -/
lemma affinityViolationCount_step (s : RuntimeSpine) (a : SpineAction) :
    (s.step L a).2.worker.affinityViolationCount
      = s.worker.affinityViolationCount + if s.checkFails a then 1 else 0 := by
  cases a with
  | stop => simp [RuntimeSpine.step, RuntimeSpine.checkFails]
  | acceptFails aborted =>
      simp only [RuntimeSpine.step]
      split_ifs <;> simp_all [RuntimeSpine.checkFails]
  | accept socketOnExecutor =>
      simp only [RuntimeSpine.step]
      split_ifs <;> simp_all [RuntimeSpine.checkFails, Worker.countViolation, Worker.recordAccept]
  | handle k wakeup =>
      cases hk : s.connections[k]? with
      | none => simp [RuntimeSpine.step, RuntimeSpine.checkFails, hk]
      | some phase =>
          have hchecks := checks_advance L s.worker phase wakeup
          simp only [RuntimeSpine.step, RuntimeSpine.checkFails, hk]
          generalize advance L s.worker phase wakeup = next at hchecks ⊢
          cases hchecks with
          | fails hon hfails hcount => simp [hon, hfails, hcount]
          | passes hpasses hcount =>
              cases hon : s.worker.enableExecutorAffinityChecks with
              | false => simp [hcount]
              | true => simp [hpasses hon, hcount]
  | reloadRouteConfig snapshot => simp [RuntimeSpine.step, RuntimeSpine.checkFails]
  | elsewhere metrics =>
      simp only [RuntimeSpine.step]
      split_ifs <;> simp_all [RuntimeSpine.checkFails]

/-- The connection has ended without a response. -/
def RuntimeSpine.HasLeft (s : RuntimeSpine) (k : ℕ) : Prop :=
  ∃ view, s.connections[k]? = some (.left view)

/-- Who has left stays away. -/
lemma hasLeft_step {s : RuntimeSpine} {k : ℕ} (h : s.HasLeft k) (a : SpineAction) :
    (s.step L a).2.HasLeft k := by
  obtain ⟨view, hk⟩ := h
  rw [RuntimeSpine.HasLeft, RuntimeSpine.connection_step hk]
  cases a.wakes k with
  | none => exact ⟨view, rfl⟩
  | some wakeup =>
      rw [RuntimeSpine.next]
      generalize hnext : advance L s.worker (.left view) wakeup = next
      cases hnext ▸ checks_advance L s.worker (.left view) wakeup with
      | fails _ _ _ hleft => exact absurd rfl (hleft view)
      | passes _ _ hleft => exact ⟨view, congrArg some (hleft view rfl)⟩

/-- A check that fails for a connection ends it, and it had not ended before. -/
lemma hasLeft_of_checkFails {s : RuntimeSpine} {k : ℕ} {wakeup : Wakeup}
    (h : s.checkFails (.handle k wakeup) = true) :
    ¬s.HasLeft k ∧ (s.step L (.handle k wakeup)).2.HasLeft k := by
  cases hk : s.connections[k]? with
  | none => simp [RuntimeSpine.checkFails, hk] at h
  | some phase =>
      have hlt : k < s.connections.length := (List.getElem?_eq_some_iff.mp hk).1
      have hchecks := checks_advance L s.worker phase wakeup
      simp only [RuntimeSpine.checkFails, hk, Option.map_some, Option.getD_some,
        Bool.and_eq_true] at h
      simp only [RuntimeSpine.HasLeft, RuntimeSpine.step, hk, List.getElem?_set_self hlt]
      generalize advance L s.worker phase wakeup = next at hchecks ⊢
      cases hchecks with
      | @fails view w' hon hfails hcount hleft =>
          refine ⟨?_, view, rfl⟩
          rintro ⟨v, hv⟩
          exact hleft v (Option.some.inj hv)
      | passes hpasses => exact absurd ((hpasses h.1).symm.trans h.2) (by decide)

end Step

/-! ## The workers of a gateway -/

def SpineAction.handles (k : ℕ) : SpineAction → Bool
  | .handle j _ => j == k
  | _ => false

lemma SpineAction.eq_of_handles {a : SpineAction} {k : ℕ} (h : a.handles k = true) :
    ∃ wakeup, a = .handle k wakeup := by
  cases a with
  | handle j wakeup => exact ⟨wakeup, by rw [beq_iff_eq.mp h]⟩
  | _ => exact absurd h (by simp [handles])

namespace Gateway

def workerCount (g : Gateway) : ℕ :=
  g.spines.length

def totalAffinityViolationCount (g : Gateway) : UInt64 :=
  g.spines.foldl (fun total s => total + s.worker.affinityViolationCount) 0

/-- A worker makes an executor check that fails. -/
def checkFails (g : Gateway) (a : ℕ × SpineAction) : Bool :=
  (g.spines[a.1]?.map (RuntimeSpine.checkFails · a.2)).getD false

abbrev GatewayEvent := Event Gateway (ℕ × SpineAction) (Option (ℕ × MetricsRecord))

def history (L : Llhttp) (w : Worker) (n : ℕ) (actions : List (ℕ × SpineAction)) :
    List GatewayEvent :=
  trace (step L) (new w n) actions

/-- The checks that fail. -/
def failures (h : List GatewayEvent) : ℕ :=
  h.countP fun e => e.pre.checkFails e.input

/-- The checks that fail for connection `k` of worker `i`. -/
def failuresOf (i k : ℕ) (h : List GatewayEvent) : ℕ :=
  h.countP fun e => e.pre.checkFails e.input && (e.input.1 == i && e.input.2.handles k)

/-- The counters and the connections against the history. -/
structure Checked (base : ℕ) (h : List GatewayEvent) (g : Gateway) : Prop where
  counted : (g.spines.map fun s => s.worker.affinityViolationCount.toNat).sum
    ≡ base + failures h [MOD 2 ^ 64]
  ended : ∀ i k, failuresOf i k h = 0 ∨
    failuresOf i k h = 1 ∧ ∃ s, g.spines[i]? = some s ∧ s.HasLeft k

variable {L : Llhttp} {base : ℕ} {h : List GatewayEvent} {g : Gateway}

lemma failures_concat (h : List GatewayEvent) (e : GatewayEvent) :
    failures (h ++ [e]) = failures h + if e.pre.checkFails e.input then 1 else 0 := by
  rw [failures, List.countP_append, List.countP_singleton]
  rfl

lemma failuresOf_concat (i k : ℕ) (h : List GatewayEvent) (e : GatewayEvent) :
    failuresOf i k (h ++ [e]) = failuresOf i k h
      + if e.pre.checkFails e.input && (e.input.1 == i && e.input.2.handles k) then 1 else 0 := by
  rw [failuresOf, List.countP_append, List.countP_singleton]
  rfl

/-- A step of a worker that is there. -/
lemma step_own {i : ℕ} {s : RuntimeSpine} {a : SpineAction} (hi : g.spines[i]? = some s)
    (ha : a.isOwn = true) :
    (g.step L (i, a)).2.spines = g.spines.set i ((s.sync g.metrics).step L a).2 := by
  simp only [step, hi, ha, if_true]

/-- A step that is not taken fails no check. -/
lemma Checked.idle (hc : Checked base h g) {a : ℕ × SpineAction} (hpasses : g.checkFails a = false)
    (hspines : (g.step L a).2.spines = g.spines) :
    Checked base (h ++ [event (step L) g a]) (g.step L a).2 where
  counted := by
    rw [failures_concat, hspines, event, hpasses]
    exact hc.counted
  ended i k := by
    rw [failuresOf_concat, hspines, event, hpasses]
    exact hc.ended i k

section Own

variable {j : ℕ} {s : RuntimeSpine} {a : SpineAction}

lemma checkFails_own (hj : g.spines[j]? = some s) :
    g.checkFails (j, a) = (s.sync g.metrics).checkFails a := by
  rw [checkFails, hj]
  rfl

/-- A worker's own step adds to the total what it adds to the counter of the worker. -/
lemma Checked.counted_own (hc : Checked base h g) (hj : g.spines[j]? = some s)
    (ha : a.isOwn = true) :
    ((g.step L (j, a)).2.spines.map fun s => s.worker.affinityViolationCount.toNat).sum
      ≡ base + failures (h ++ [event (Gateway.step L) g (j, a)]) [MOD 2 ^ 64] := by
  have hsum := Ledger.sum_map_set
    (fun s : RuntimeSpine => s.worker.affinityViolationCount.toNat) hj
    ((s.sync g.metrics).step L a).2
  have hone : (if (s.sync g.metrics).checkFails a then (1 : UInt64) else 0).toNat
      = if (s.sync g.metrics).checkFails a then 1 else 0 := by
    split_ifs <;> rfl
  simp only [affinityViolationCount_step, UInt64.toNat_add, hone] at hsum
  rw [failures_concat, event, checkFails_own hj, step_own hj ha, ← Nat.add_assoc]
  refine Nat.ModEq.add_right_cancel' s.worker.affinityViolationCount.toNat ?_
  rw [hsum, Nat.add_assoc, Nat.add_comm (ite _ _ _)]
  exact hc.counted.add (Nat.mod_modEq _ _)

/-- A connection that fails in a worker's own step has not failed before, as it would have left. -/
lemma Checked.ended_own (hc : Checked base h g) (hj : g.spines[j]? = some s)
    (ha : a.isOwn = true) (i k : ℕ) :
    failuresOf i k (h ++ [event (Gateway.step L) g (j, a)]) = 0 ∨
      failuresOf i k (h ++ [event (Gateway.step L) g (j, a)]) = 1 ∧
        ∃ t, (g.step L (j, a)).2.spines[i]? = some t ∧ t.HasLeft k := by
  have hlt : j < g.spines.length := (List.getElem?_eq_some_iff.mp hj).1
  rw [failuresOf_concat, event, checkFails_own hj, step_own hj ha]
  by_cases hnew : ((s.sync g.metrics).checkFails a && (j == i && a.handles k)) = true
  · rw [if_pos hnew]
    simp only [Bool.and_eq_true, beq_iff_eq] at hnew
    obtain ⟨hcheck, rfl, hhandles⟩ := hnew
    obtain ⟨wakeup, rfl⟩ := SpineAction.eq_of_handles hhandles
    obtain ⟨hhere, hgone⟩ := hasLeft_of_checkFails L hcheck
    have hzero : failuresOf j k h = 0 := by
      refine (hc.ended j k).resolve_right ?_
      rintro ⟨-, t, ht, hleft⟩
      obtain rfl : s = t := Option.some.inj (hj.symm.trans ht)
      exact hhere hleft
    exact Or.inr ⟨by rw [hzero], _, List.getElem?_set_self hlt, hgone⟩
  · rw [if_neg hnew, Nat.add_zero]
    refine (hc.ended i k).imp id ?_
    rintro ⟨hfailed, t, ht, hleft⟩
    refine ⟨hfailed, ?_⟩
    by_cases hij : j = i
    · subst hij
      obtain rfl : s = t := Option.some.inj (hj.symm.trans ht)
      exact ⟨_, List.getElem?_set_self hlt, hasLeft_step L (s := s.sync g.metrics) hleft a⟩
    · exact ⟨t, by rw [List.getElem?_set_ne hij, ht], hleft⟩

end Own

/-- **The step lemma.** -/
theorem Checked.step (hc : Checked base h g) (a : ℕ × SpineAction) :
    Checked base (h ++ [event (Gateway.step L) g a]) (g.step L a).2 := by
  obtain ⟨j, a⟩ := a
  cases hj : g.spines[j]? with
  | none => exact hc.idle (by simp [checkFails, hj]) (by simp [Gateway.step, hj])
  | some s =>
      by_cases ha : a.isOwn = true
      · exact ⟨hc.counted_own hj ha, hc.ended_own hj ha⟩
      · have hother : a.isOwn = false := by simpa using ha
        refine hc.idle ?_ (by simp [Gateway.step, hj, hother])
        cases a with
        | elsewhere metrics => simp [checkFails, hj, RuntimeSpine.checkFails]
        | _ => exact absurd rfl ha

variable (L) in
theorem checked_reached (w : Worker) (n : ℕ) (actions : List (ℕ × SpineAction)) :
    Checked (n * w.affinityViolationCount.toNat) (history L w n actions)
      (reached L w n actions) := by
  have hnew : Checked (n * w.affinityViolationCount.toNat) [] (new w n) := by
    refine ⟨?_, fun _ _ => Or.inl rfl⟩
    have hsame : (new w n).spines.map (fun s => s.worker.affinityViolationCount.toNat)
        = List.replicate n w.affinityViolationCount.toNat := by
      rw [(new_eq w n).2, List.map_map, ← List.length_range (n := n), ← List.map_const,
        List.length_range]
      rfl
    rw [hsame, List.sum_replicate]
    rfl
  exact invariant_trace hnew (fun _ _ a hc => hc.step a) actions

lemma toNat_totalAffinityViolationCount (g : Gateway) :
    g.totalAffinityViolationCount.toNat
      = (g.spines.map fun s => s.worker.affinityViolationCount.toNat).sum % 2 ^ 64 := by
  rw [totalAffinityViolationCount, toNat_foldl_add]
  exact congrArg (· % 2 ^ 64) (Nat.zero_add _)

/-! ### Without checks -/

lemma enableExecutorAffinityChecks_step (L : Llhttp) (s : RuntimeSpine) (a : SpineAction) :
    (s.step L a).2.worker.enableExecutorAffinityChecks
      = s.worker.enableExecutorAffinityChecks := by
  cases a with
  | handle k wakeup =>
      cases hk : s.connections[k]? with
      | none => simp only [RuntimeSpine.step, hk]
      | some phase =>
          simp only [RuntimeSpine.step, hk]
          fun_cases advance L s.worker phase wakeup <;> rfl
  | acceptFails aborted =>
      simp only [RuntimeSpine.step]
      split_ifs <;> rfl
  | accept socketOnExecutor =>
      simp only [RuntimeSpine.step]
      split_ifs <;> rfl
  | elsewhere metrics =>
      simp only [RuntimeSpine.step]
      split_ifs <;> rfl
  | _ => rfl

/-- All workers check, or none does. -/
lemma enableExecutorAffinityChecks_reached (L : Llhttp) (w : Worker) (n : ℕ)
    (actions : List (ℕ × SpineAction)) {i : ℕ} {s : RuntimeSpine}
    (hs : (reached L w n actions).spines[i]? = some s) :
    s.worker.enableExecutorAffinityChecks = w.enableExecutorAffinityChecks := by
  obtain ⟨as, hreached, -⟩ := (composed_reached L w n actions).projected i s hs
  have hrun : ∀ as, (RuntimeSpine.reached L (w.nth i) as).worker.enableExecutorAffinityChecks
      = w.enableExecutorAffinityChecks := by
    intro as
    induction as using List.reverseRecOn with
    | nil => rfl
    | append_singleton as a ih =>
        rw [RuntimeSpine.reached_concat, enableExecutorAffinityChecks_step, ih]
  rw [← hrun as, ← hreached]
  rfl

lemma failures_of_disabled (L : Llhttp) (w : Worker) (n : ℕ) (actions : List (ℕ × SpineAction))
    (hoff : w.enableExecutorAffinityChecks = false) : failures (history L w n actions) = 0 := by
  refine List.countP_eq_zero.mpr ?_
  intro e he
  obtain ⟨before, ⟨i, a⟩, after, -, rfl⟩ := mem_trace he
  simp only [event, checkFails, Bool.not_eq_true]
  cases hs : (final (step L) (new w n) before).spines[i]? with
  | none => rfl
  | some s =>
      have hs' : s.worker.enableExecutorAffinityChecks = false :=
        (enableExecutorAffinityChecks_reached L w n before hs).trans hoff
      cases a <;> simp [RuntimeSpine.checkFails, hs']

end Gateway

open Gateway

/-- **The violations of a gateway.**  In every state that the workers reach, whatever each of them
does and in whatever order: the total is the number of executor checks that have failed, on top of
what the workers began with; no connection fails more than one; a connection that has failed one has
no response; and without checks there are none. -/
theorem violations_counted (L : Llhttp) (w : Worker) (n : ℕ) (actions : List (ℕ × SpineAction)) :
    (Gateway.reached L w n actions).totalAffinityViolationCount.toNat
        ≡ n * w.affinityViolationCount.toNat + failures (Gateway.history L w n actions)
        [MOD 2 ^ 64] ∧
      (∀ i k, failuresOf i k (Gateway.history L w n actions) ≤ 1) ∧
      (∀ i k s, failuresOf i k (Gateway.history L w n actions) ≠ 0 →
        (Gateway.reached L w n actions).spines[i]? = some s → s.responseOf k = none) ∧
      (w.enableExecutorAffinityChecks = false →
        failures (Gateway.history L w n actions) = 0) := by
  have hc := checked_reached L w n actions
  refine ⟨?_, ?_, ?_, failures_of_disabled L w n actions⟩
  · rw [toNat_totalAffinityViolationCount]
    exact (Nat.mod_modEq _ _).trans hc.counted
  · intro i k
    rcases hc.ended i k with h | h <;> omega
  · intro i k s hfailed hs
    obtain ⟨-, t, ht, view, hleft⟩ := (hc.ended i k).resolve_left hfailed
    obtain rfl : s = t := Option.some.inj (hs.symm.trans ht)
    rw [RuntimeSpine.responseOf, hleft]
    rfl

end Netp2.Runtime
