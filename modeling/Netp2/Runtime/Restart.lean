import Netp2.Runtime.GatewayRuntime

/-!
# Starting a runtime again

`stop` clears `started_`, so `start` runs again after it, launches every thread and returns
normally.  But the acceptors stay closed and the event loops stay stopped: nothing reopens or
restarts them.  So does the cleanup of a `start` that failed.

`Stage` is what a runtime is like as seen from outside, and `atStage_step` is the simulation.  A
runtime serves after a `start` unless it was torn down before (`serves_iff_neverRestarted`).
-/

namespace Netp2.Runtime

open StepRun

namespace GatewayRuntime

/-! ## What is asked of a started runtime -/

/-- A worker that accepts connections: its thread runs an accept loop on an open acceptor. -/
structure Worker.Serving (w : Worker) : Prop where
  acceptorOpen : w.spine.acceptorOpen = true
  acceptLoop : 0 < w.spine.acceptLoops
  notStopped : w.ioStopped = false
  thread : w.joinable = true

instance (w : Worker) : Decidable w.Serving :=
  decidable_of_iff (w.spine.acceptorOpen = true ∧ 0 < w.spine.acceptLoops ∧ w.ioStopped = false ∧
      w.joinable = true)
    ⟨fun ⟨hopen, hloop, hio, hthread⟩ => ⟨hopen, hloop, hio, hthread⟩,
      fun ⟨hopen, hloop, hio, hthread⟩ => ⟨hopen, hloop, hio, hthread⟩⟩

def Action.isStop : Action → Bool
  | .stop _ => true
  | _ => false

def Action.isStart : Action → Bool
  | .start _ => true
  | _ => false

def stops (e : RuntimeEvent) : Bool :=
  e.input.isStop

def startReturned (e : RuntimeEvent) : Bool :=
  e.input.isStart && e.output = .returned

/-- A call of `start` has returned normally and no `stop` followed. -/
def Running (h : List RuntimeEvent) : Prop :=
  0 < countSince stops startReturned h

instance : DecidablePred Running :=
  fun h => inferInstanceAs (Decidable (0 < countSince stops startReturned h))

/-- The call starts the workers. -/
def Begins (r : GatewayRuntime) : Action → Prop
  | .start env => r.started = false ∧ env.Allows r.workers.length
  | _ => False

/-- The call closes the acceptors and stops the event loops. -/
def TearsDown (r : GatewayRuntime) : Action → Prop
  | .start env => r.started = false ∧ ¬env.Allows r.workers.length
  | .stop _ => r.started = true
  | .run _ => False

instance (r : GatewayRuntime) : DecidablePred r.Begins
  | .start env => inferInstanceAs (Decidable (_ ∧ env.Allows r.workers.length))
  | .stop _ => isFalse id
  | .run _ => isFalse id

instance (r : GatewayRuntime) : DecidablePred r.TearsDown
  | .start env => inferInstanceAs (Decidable (_ ∧ ¬env.Allows r.workers.length))
  | .stop _ => inferInstanceAs (Decidable (r.started = true))
  | .run _ => isFalse id

def NeverTornDown (r : GatewayRuntime) (actions : List Action) : Prop :=
  EachCall (fun before a => ¬(r.reached before).TearsDown a) actions

instance (r : GatewayRuntime) : DecidablePred r.NeverTornDown :=
  fun actions => inferInstanceAs (Decidable (EachCall _ actions))

/-- No call starts the workers after a call that tore them down. -/
def NeverRestarted (r : GatewayRuntime) (actions : List Action) : Prop :=
  EachCall (fun before a => (r.reached before).Begins a → r.NeverTornDown before) actions

instance (r : GatewayRuntime) : DecidablePred r.NeverRestarted :=
  fun actions => inferInstanceAs (Decidable (EachCall _ actions))

/-! ## The stages of a runtime -/

/-- In the last stage the runtime is started and nothing is served. -/
inductive Stage where
  | fresh
  | serving
  | down
  | idle
  deriving DecidableEq, Repr

namespace Stage

def started : Stage → Bool
  | .serving => true
  | .idle => true
  | _ => false

def torn : Stage → Bool
  | .down => true
  | .idle => true
  | _ => false

/-- One call on a runtime with `n` workers. -/
def next (n : ℕ) : Stage → Action → Stage
  | .fresh, .start env => if env.Allows n then .serving else .down
  | .down, .start env => if env.Allows n then .idle else .down
  | .serving, .stop _ => .down
  | .idle, .stop _ => .down
  | stage, _ => stage

def after (n : ℕ) (actions : List Action) : Stage :=
  actions.foldl (next n) .fresh

lemma after_concat (n : ℕ) (actions : List Action) (a : Action) :
    after n (actions ++ [a]) = (after n actions).next n a := by
  simp [after]

lemma next_start_of_started {n : ℕ} {stage : Stage} (h : stage.started = true)
    (env : Environment) : stage.next n (.start env) = stage := by
  cases stage with
  | fresh => cases h
  | down => cases h
  | serving => rfl
  | idle => rfl

lemma next_start_of_allows {n : ℕ} {stage : Stage} (h : stage.started = false)
    {env : Environment} (henv : env.Allows n) :
    stage.next n (.start env) = if stage.torn then .idle else .serving := by
  cases stage with
  | fresh => simp [next, torn, henv]
  | down => simp [next, torn, henv]
  | serving => cases h
  | idle => cases h

lemma next_start_of_not_allows {n : ℕ} {stage : Stage} (h : stage.started = false)
    {env : Environment} (henv : ¬env.Allows n) : stage.next n (.start env) = .down := by
  cases stage with
  | fresh => simp [next, henv]
  | down => simp [next, henv]
  | serving => cases h
  | idle => cases h

lemma next_stop (n : ℕ) (stage : Stage) (progress : ℕ → Progress) :
    stage.next n (.stop progress) = if stage.started then .down else stage := by
  cases stage <;> rfl

lemma next_run (n : ℕ) (stage : Stage) (progress : ℕ → Progress) :
    stage.next n (.run progress) = stage := by
  cases stage <;> rfl

/-- What a worker is like in a stage. -/
structure Describes (stage : Stage) (w : Worker) : Prop where
  acceptorOpen : w.spine.acceptorOpen = !stage.torn
  ioStopped : w.ioStopped = stage.torn
  joinable : w.joinable = stage.started
  acceptLoop : stage = .serving → 0 < w.spine.acceptLoops

end Stage

/-- The runtime is in a stage. -/
structure AtStage (n : ℕ) (stage : Stage) (r : GatewayRuntime) : Prop where
  started : r.started = stage.started
  length : r.workers.length = n
  describes : ∀ w ∈ r.workers, stage.Describes w

variable {n : ℕ} {stage : Stage} {r : GatewayRuntime}

lemma AtStage.threadsFollow (h : AtStage n stage r) : ThreadsFollow r :=
  fun w hw => (h.describes w hw).joinable.trans h.started.symm

/-! ## The simulation -/

/-- Between the calls nothing changes: an event loop has nothing to do before it has a thread and
after it was stopped, and an open acceptor keeps its accept loops. -/
lemma Stage.Describes.run_eq {w : Worker} (h : stage.Describes w) (p : Progress) :
    w.run p = w := by
  obtain ⟨hopen, hio, hthread, hloops⟩ := h
  cases stage with
  | fresh => simp [Worker.run, hthread, started]
  | down => simp [Worker.run, hio, torn]
  | idle => simp [Worker.run, hio, torn]
  | serving =>
      obtain ⟨ioStopped, ⟨acceptorOpen, acceptLoops⟩, joinable⟩ := w
      simp only [torn, started, Bool.not_false] at hopen hio hthread
      have hne : acceptLoops ≠ 0 := (hloops rfl).ne'
      simp [Worker.run, Listener.resume, hopen, hio, hthread, hne]

lemma describes_of_down {w : Worker} (h : w.Down) : Stage.down.Describes w where
  acceptorOpen := h.closed
  ioStopped := h.stopped
  joinable := h.joined
  acceptLoop := nofun

/-- A start opens no acceptor and restarts no event loop. -/
lemma Stage.Describes.launched {w : Worker} {stage' : Stage} (h : stage.Describes w)
    (htorn : stage'.torn = stage.torn) (hstarted : stage'.started = true) :
    stage'.Describes w.launched where
  acceptorOpen := by
    rw [htorn]
    exact h.acceptorOpen
  ioStopped := by
    rw [htorn]
    exact h.ioStopped
  joinable := hstarted.symm
  acceptLoop _ := Nat.succ_pos _

lemma atStage_shutDown (progress : ℕ → Progress) {ws : List Worker} (hlen : ws.length = n) :
    AtStage n .down ⟨shutDown progress ws, false⟩ where
  started := rfl
  length := (length_shutDown progress ws).trans hlen
  describes w hw := describes_of_down (down_shutDown progress ws w hw)

lemma AtStage.launched {stage' : Stage} (h : AtStage n stage r)
    (htorn : stage'.torn = stage.torn) (hstarted : stage'.started = true) :
    AtStage n stage' ⟨r.workers.map Worker.launched, true⟩ where
  started := hstarted.symm
  length := by simpa using h.length
  describes := by
    simp only [List.mem_map]
    rintro _ ⟨w, hw, rfl⟩
    exact (h.describes w hw).launched htorn hstarted

lemma atStage_start (h : AtStage n stage r) (env : Environment) :
    AtStage n (stage.next n (.start env)) (r.start env).2 := by
  have hstarts := starts_start h.threadsFollow env
  generalize r.start env = result at hstarts ⊢
  cases hstarts with
  | already hstarted =>
      rw [Stage.next_start_of_started (h.started ▸ hstarted)]
      exact h
  | launched hstarted henv =>
      rw [Stage.next_start_of_allows (h.started ▸ hstarted) (h.length ▸ henv)]
      cases htorn : stage.torn with
      | false => exact h.launched htorn.symm rfl
      | true => exact h.launched htorn.symm rfl
  | failed hstarted henv hlen =>
      rw [Stage.next_start_of_not_allows (h.started ▸ hstarted) (h.length ▸ henv)]
      exact atStage_shutDown _ (hlen.trans h.length)

lemma atStage_stop (h : AtStage n stage r) (progress : ℕ → Progress) :
    AtStage n (stage.next n (.stop progress)) (r.stop progress) := by
  rw [stop, Stage.next_stop, ← h.started]
  split_ifs
  · exact atStage_shutDown progress h.length
  · exact h

/-- **The simulation**: a call takes the runtime to the next stage. -/
theorem atStage_step (h : AtStage n stage r) (a : Action) :
    AtStage n (stage.next n a) (r.step a).2 := by
  cases a with
  | start env => exact atStage_start h env
  | stop progress => exact atStage_stop h progress
  | run progress =>
      rw [Stage.next_run]
      refine ⟨h.started, by simpa [step] using h.length, ?_⟩
      simp only [step, List.mem_mapIdx]
      rintro _ ⟨i, hi, rfl⟩
      have hw := h.describes _ (List.getElem_mem hi)
      rw [hw.run_eq]
      exact hw

lemma atStage_new {config : SpineConfig} {listening : ℕ → Option Exception}
    (hnew : new config n listening = .ok r) : AtStage n .fresh r := by
  obtain ⟨-, rfl⟩ := new_eq_ok hnew
  refine ⟨rfl, List.length_replicate, ?_⟩
  intro w hw
  rw [List.eq_of_mem_replicate hw]
  exact ⟨rfl, rfl, rfl, nofun⟩

lemma atStage_reached (hr : AtStage n .fresh r) (actions : List Action) :
    AtStage n (Stage.after n actions) (r.reached actions) := by
  induction actions using List.reverseRecOn with
  | nil => exact hr
  | append_singleton actions a ih =>
      rw [reached_concat, Stage.after_concat]
      exact atStage_step ih a

/-! ## What the stages say about the calls -/

lemma AtStage.torn_next (h : AtStage n stage r) (a : Action) :
    (stage.next n a).torn = true ↔ stage.torn = true ∨ r.TearsDown a := by
  cases a with
  | start env =>
      rw [TearsDown, h.length, h.started]
      by_cases henv : env.Allows n <;>
        cases stage <;> simp [Stage.next, Stage.torn, Stage.started, henv]
  | stop progress =>
      rw [TearsDown, h.started]
      cases stage <;> simp [Stage.next, Stage.torn, Stage.started]
  | run progress => simp [Stage.next_run, TearsDown]

/-- Nothing is served after a start in a stage that was torn down. -/
lemma AtStage.next_eq_idle (h : AtStage n stage r) {a : Action} (hbegins : r.Begins a) :
    stage.next n a = .idle ↔ stage.torn = true := by
  cases a with
  | stop progress => exact hbegins.elim
  | run progress => exact hbegins.elim
  | start env =>
      obtain ⟨hstarted, henv⟩ := hbegins
      rw [Stage.next_start_of_allows (h.started ▸ hstarted) (h.length ▸ henv)]
      cases stage.torn <;> simp

lemma AtStage.begins_of_next_eq_idle (h : AtStage n stage r) {a : Action}
    (hnext : stage.next n a = .idle) : stage = .idle ∨ r.Begins a := by
  cases a with
  | run progress => exact Or.inl (Stage.next_run n stage progress ▸ hnext)
  | stop progress =>
      rw [Stage.next_stop] at hnext
      split_ifs at hnext
      exact Or.inl hnext
  | start env =>
      rw [Begins, h.length, h.started]
      cases hstarted : stage.started with
      | true => exact Or.inl (Stage.next_start_of_started hstarted env ▸ hnext)
      | false =>
          by_cases henv : env.Allows n
          · exact Or.inr ⟨rfl, henv⟩
          · rw [Stage.next_start_of_not_allows hstarted henv] at hnext
            cases hnext

lemma neverTornDown_iff (hr : AtStage n .fresh r) (actions : List Action) :
    r.NeverTornDown actions ↔ (Stage.after n actions).torn = false := by
  induction actions using List.reverseRecOn with
  | nil => simp [NeverTornDown, eachCall_nil, Stage.after, Stage.torn]
  | append_singleton actions a ih =>
      have htorn := (atStage_reached hr actions).torn_next a
      rw [NeverTornDown, eachCall_concat, ← NeverTornDown, ih, Stage.after_concat,
        ← Bool.not_eq_true, ← Bool.not_eq_true, htorn, not_or]

lemma not_idle_of_neverRestarted (hr : AtStage n .fresh r) {actions : List Action}
    (h : r.NeverRestarted actions) : Stage.after n actions ≠ .idle := by
  induction actions using List.reverseRecOn with
  | nil => simp [Stage.after]
  | append_singleton actions a ih =>
      rw [NeverRestarted, eachCall_concat] at h
      obtain ⟨hbefore, hlast⟩ := h
      have hstage := atStage_reached hr actions
      rw [Stage.after_concat]
      intro hidle
      rcases hstage.begins_of_next_eq_idle hidle with heq | hbegins
      · exact ih hbefore heq
      · have htorn := (neverTornDown_iff hr actions).mp (hlast hbegins)
        rw [(hstage.next_eq_idle hbegins).mp hidle] at htorn
        cases htorn

/-! ## Whether the runtime is running -/

lemma running_concat (h : List RuntimeEvent) (e : RuntimeEvent) :
    Running (h ++ [e]) ↔ stops e = false ∧ (Running h ∨ startReturned e = true) := by
  rw [Running, Running, countSince_concat]
  cases stops e <;> cases startReturned e <;> simp

lemma started_step (hr : ThreadsFollow r) (a : Action) :
    (r.step a).2.started = true ↔ stops (event step r a) = false ∧
      (r.started = true ∨ startReturned (event step r a) = true) := by
  cases a with
  | stop progress => simp [step, stops, event, Action.isStop, started_stop]
  | run progress => simp [step, stops, startReturned, event, Action.isStop, Action.isStart]
  | start env =>
      have hstarts := starts_start hr env
      rcases hresult : r.start env with ⟨outcome, r'⟩
      rw [hresult] at hstarts
      simp only [step, stops, startReturned, event, Action.isStop, Action.isStart, hresult]
      cases hstarts with
      | already hstarted => simp [hstarted]
      | launched hstarted henv => simp
      | failed hstarted henv hlen => simp [hstarted]

/-- `started_` says whether a `start` returned normally and no `stop` followed. -/
lemma running_iff_started (hr : ThreadsFollow r) (hfresh : r.started = false)
    (actions : List Action) :
    Running (r.history actions) ↔ (r.reached actions).started = true := by
  induction actions using List.reverseRecOn with
  | nil => simp [Running, history, trace, reached, final, hfresh]
  | append_singleton actions a ih =>
      rw [reached_concat, started_step (threadsFollow_reached hr actions) a, ← ih, history,
        trace_concat, running_concat]
      rfl

/-! ## Serving after a start -/

lemma AtStage.serving (h : AtStage n .serving r) : ∀ w ∈ r.workers, w.Serving := by
  intro w hw
  obtain ⟨hopen, hio, hthread, hloops⟩ := h.describes w hw
  exact ⟨hopen, hloops rfl, hio, hthread⟩

/-- **Starting after stopping serves nothing.**  In every state of a run in which a `start` has
returned and no `stop` followed, all workers serve, if and only if in this run no `start` that has
something to start succeeds after a call that tore the workers down: a `stop` of a started runtime
or a `start` that failed. -/
theorem serves_iff_neverRestarted {config : SpineConfig} {workerCount : ℕ}
    {listening : ℕ → Option Exception} {r : GatewayRuntime}
    (hnew : new config workerCount listening = .ok r) (actions : List Action) :
    (∀ before after, actions = before ++ after → Running (r.history before) →
      ∀ w ∈ (r.reached before).workers, w.Serving) ↔ r.NeverRestarted actions := by
  have hr := atStage_new hnew
  have hrunning := running_iff_started (threadsFollow_new hnew) hr.started
  constructor
  · rintro hserves before a after rfl hbegins
    rw [neverTornDown_iff hr]
    by_contra htorn
    have hstage := atStage_reached hr (before ++ [a])
    have hidle := ((atStage_reached hr before).next_eq_idle hbegins).mpr (by simpa using htorn)
    rw [Stage.after_concat, hidle] at hstage
    -- there is a worker, and it does not serve
    have hlen : 0 < (r.reached (before ++ [a])).workers.length := by
      rw [hstage.length]
      exact (new_eq_ok hnew).1
    have hw := List.getElem_mem hlen
    have hserving := hserves (before ++ [a]) after (by simp) ((hrunning _).mpr hstage.started) _ hw
    have hclosed := (hstage.describes _ hw).acceptorOpen
    rw [hserving.acceptorOpen] at hclosed
    cases hclosed
  · rintro hnever before after rfl hrun
    have hstage := atStage_reached hr before
    have hnot := not_idle_of_neverRestarted hr hnever.of_append
    have hstarted := hstage.started
    rw [(hrunning before).mp hrun] at hstarted
    generalize Stage.after workerCount before = stage at hstage hnot hstarted
    cases stage with
    | fresh => cases hstarted
    | down => cases hstarted
    | idle => exact absurd rfl hnot
    | serving => exact hstage.serving

def untroubled : Environment where
  hardwareConcurrency := 2

/-- Started once, a runtime serves until it is stopped. -/
theorem serves_iff_neverRestarted_once :
    twoWorkers.NeverRestarted [.start untroubled, .stop fun _ => {}] ∧
    ∀ before after, [Action.start untroubled, .stop fun _ => {}] = before ++ after →
      Running (twoWorkers.history before) →
        ∀ w ∈ (twoWorkers.reached before).workers, w.Serving := by
  have hnew : new {} 2 (fun _ => none) = .ok twoWorkers := rfl
  have hnever : twoWorkers.NeverRestarted [.start untroubled, .stop fun _ => {}] := by decide
  exact ⟨hnever, (serves_iff_neverRestarted hnew _).mpr hnever⟩

/-- `start`, `stop`, `start`: the second start returns normally and accepts nothing. -/
theorem restarted_not_serving :
    new {} 2 (fun _ => none) = .ok twoWorkers ∧
    Running (twoWorkers.history [.start untroubled, .stop fun _ => {}, .start untroubled]) ∧
    ¬∀ w ∈ (twoWorkers.reached [.start untroubled, .stop fun _ => {}, .start untroubled]).workers,
      w.Serving :=
  ⟨rfl, by decide, by decide⟩

end GatewayRuntime

end Netp2.Runtime
