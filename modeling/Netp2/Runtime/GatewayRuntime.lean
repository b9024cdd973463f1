import Netp2.Library.StepRun

/-!
# The gateway runtime

`GatewayRuntime` owns a number of workers, each with an event loop (`io_context`), a spine that
listens, and a thread that runs the event loop.  Of a spine only the listening side is needed here:
its acceptor and the accept loops that were spawned for it.

Three things about the libraries matter.  A closed acceptor ends each accept loop that is resumed.
`run()` returns when the event loop is stopped or out of work, and a stopped event loop runs nothing
until it is restarted.  Assigning to a joinable `std::thread`, or destroying one, terminates the
process.

`start` may fail for each worker.  `threads_follow_started` says that no failure leaves a thread
behind.
-/

namespace Netp2.Runtime

open StepRun

structure SpineConfig where
  listenPort : UInt16 := 18080
  deriving DecidableEq, Repr

namespace GatewayRuntime

/-! ## One worker -/

/-- The exceptions, with their texts. -/
inductive Exception where
  | invalidArgument (what : String)
  | runtimeError (what : String)
  | systemError (what : String)
  deriving DecidableEq, Repr

/-- How a call ends. -/
inductive Outcome where
  | returned
  | threw (e : Exception)
  | terminated
  deriving DecidableEq, Repr

/-- The listening side of a `RuntimeSpine`; its constructor opens the acceptor. -/
structure Listener where
  acceptorOpen : Bool := true
  acceptLoops : ℕ := 0
  deriving DecidableEq, Repr

namespace Listener

def start (l : Listener) : Listener :=
  { l with acceptLoops := l.acceptLoops + 1 }

def stop (l : Listener) : Listener :=
  { l with acceptorOpen := false }

/-- The event loop resumes some accept loops.  They return if the acceptor is closed, else they
wait for the next connection. -/
def resume (l : Listener) (n : ℕ) : Listener :=
  if l.acceptorOpen then l else { l with acceptLoops := l.acceptLoops - n }

end Listener

structure Worker where
  ioStopped : Bool := false
  spine : Listener := {}
  joinable : Bool := false
  deriving DecidableEq, Repr

/-- What an event loop does in a while: the accept loops that it resumes, and whether all
connections are done after it. -/
structure Progress where
  resumed : ℕ := 0
  connectionsDone : Bool := false
  deriving DecidableEq, Repr

/-- What a call of `start` meets.  The functions are indexed by the workers: the errors of creating
a thread and of binding it, and the event loops between the two halves of the cleanup. -/
structure Environment where
  linux : Bool := true
  hardwareConcurrency : ℕ
  createThread : ℕ → Option String := fun _ => none
  setAffinity : ℕ → Option String := fun _ => none
  progress : ℕ → Progress := fun _ => {}

def Environment.hardwareCores (env : Environment) : ℕ :=
  if env.hardwareConcurrency = 0 then 1 else env.hardwareConcurrency

namespace Worker

/-- The thread in `run()`: it is there as long as there is work and nobody stops the event loop. -/
def run (w : Worker) (p : Progress) : Worker :=
  if w.ioStopped || !w.joinable then w
  else
    let spine := w.spine.resume p.resumed
    { w with spine := spine, ioStopped := spine.acceptLoops = 0 && p.connectionsDone }

/-- `bind_thread_to_core_or_throw`. -/
def bindThreadToCoreOrThrow (env : Environment) (coreIndex : ℕ) : Outcome :=
  match env.setAffinity coreIndex with
  | none => .returned
  | some error =>
      .threw (.runtimeError s!"pthread_setaffinity_np failed for core {coreIndex}: {error}")

/-- The body of the loop in `start`. -/
def launch (env : Environment) (i : ℕ) (w : Worker) : Outcome × Worker :=
  let w := { w with spine := w.spine.start }
  match env.createThread i with
  | some error => (.threw (.systemError error), w)
  | none =>
      if w.joinable then (.terminated, w)
      else
        let w := { w with joinable := true }
        (if env.linux then bindThreadToCoreOrThrow env i else .returned, w)

/-- Both are called for all workers, one after the other. -/
def stopSpine (w : Worker) : Worker :=
  { w with spine := w.spine.stop }

def stopIo (w : Worker) : Worker :=
  { w with ioStopped := true }

/-- The thread of a stopped event loop ends. -/
def join (w : Worker) : Worker :=
  if w.joinable then { w with joinable := false } else w

end Worker

/-- The loop in `start`, from worker `i` on. -/
def launchFrom (env : Environment) (i : ℕ) : List Worker → Outcome × List Worker
  | [] => (.returned, [])
  | w :: ws =>
      match w.launch env i with
      | (.returned, w') =>
          let (outcome, ws') := launchFrom env (i + 1) ws
          (outcome, w' :: ws')
      | (outcome, w') => (outcome, w' :: ws)

/-- The block that `start` tries. -/
def launchAll (env : Environment) (ws : List Worker) : Outcome × List Worker :=
  if env.linux && env.hardwareCores < ws.length then
    (.threw (.invalidArgument "worker_count exceeds available CPU cores on Linux"), ws)
  else
    launchFrom env 0 ws

/-- The three loops of `stop`, and of the cleanup in `start`. -/
def shutDown (progress : ℕ → Progress) (ws : List Worker) : List Worker :=
  let closed := ws.map Worker.stopSpine
  let progressed := closed.mapIdx fun i w => w.run (progress i)
  let stopped := progressed.map Worker.stopIo
  stopped.map Worker.join

end GatewayRuntime

/-! ## The runtime -/

structure GatewayRuntime where
  workers : List GatewayRuntime.Worker
  started : Bool := false
  deriving DecidableEq, Repr

namespace GatewayRuntime

/-- `listening i` is the exception of the constructor of spine `i`, which opens the socket. -/
def new (config : SpineConfig) (workerCount : ℕ) (listening : ℕ → Option Exception) :
    Except Exception GatewayRuntime :=
  if workerCount = 0 then
    .error (.invalidArgument "worker_count must be greater than 0")
  else if 1 < workerCount ∧ config.listenPort = 0 then
    .error (.invalidArgument "listen_port must be fixed when worker_count > 1")
  else
    match (List.range workerCount).findSome? listening with
    | some e => .error e
    | none => .ok { workers := List.replicate workerCount {} }

def start (r : GatewayRuntime) (env : Environment) : Outcome × GatewayRuntime :=
  if r.started then (.returned, r)
  else
    match launchAll env r.workers with
    | (.returned, workers) => (.returned, { r with workers := workers, started := true })
    | (.threw e, workers) => (.threw e, { r with workers := shutDown env.progress workers })
    | (.terminated, workers) => (.terminated, { r with workers := workers })

def stop (r : GatewayRuntime) (progress : ℕ → Progress) : GatewayRuntime :=
  if r.started then { r with workers := shutDown progress r.workers, started := false } else r

/-- The destructor: `stop`, and then the threads are destroyed. -/
def destroy (r : GatewayRuntime) (progress : ℕ → Progress) : Outcome :=
  if (r.stop progress).workers.any Worker.joinable then .terminated else .returned

/-- The calls, and what the event loops do between them. -/
inductive Action where
  | start (env : Environment)
  | stop (progress : ℕ → Progress)
  | run (progress : ℕ → Progress)

def step (r : GatewayRuntime) : Action → Outcome × GatewayRuntime
  | .start env => r.start env
  | .stop progress => (.returned, r.stop progress)
  | .run progress =>
      (.returned, { r with workers := r.workers.mapIdx fun i w => w.run (progress i) })

def reached (r : GatewayRuntime) (actions : List Action) : GatewayRuntime :=
  final step r actions

abbrev RuntimeEvent := Event GatewayRuntime Action Outcome

def history (r : GatewayRuntime) (actions : List Action) : List RuntimeEvent :=
  trace step r actions

lemma reached_concat (r : GatewayRuntime) (actions : List Action) (a : Action) :
    r.reached (actions ++ [a]) = ((r.reached actions).step a).2 :=
  final_concat r actions a

/-! ## A shutdown leaves nothing running -/

/-- What the cleanup leaves of a worker, whatever state it was in. -/
structure Worker.Down (w : Worker) : Prop where
  closed : w.spine.acceptorOpen = false
  stopped : w.ioStopped = true
  joined : w.joinable = false

@[simp] lemma Listener.acceptorOpen_resume (l : Listener) (n : ℕ) :
    (l.resume n).acceptorOpen = l.acceptorOpen := by
  rw [Listener.resume]
  split_ifs <;> rfl

@[simp] lemma Worker.joinable_run (w : Worker) (p : Progress) :
    (w.run p).joinable = w.joinable := by
  rw [Worker.run]
  split_ifs <;> rfl

@[simp] lemma Worker.acceptorOpen_run (w : Worker) (p : Progress) :
    (w.run p).spine.acceptorOpen = w.spine.acceptorOpen := by
  rw [Worker.run]
  split_ifs
  · rfl
  · exact w.spine.acceptorOpen_resume p.resumed

lemma Worker.joinable_join (w : Worker) : w.join.joinable = false := by
  cases hw : w.joinable <;> simp [Worker.join, hw]

lemma Worker.down_of_stopped {w : Worker} (hclosed : w.spine.acceptorOpen = false) :
    w.stopIo.join.Down where
  closed := by
    rw [Worker.join]
    split_ifs <;> exact hclosed
  stopped := by
    rw [Worker.join]
    split_ifs <;> rfl
  joined := w.stopIo.joinable_join

lemma down_shutDown (progress : ℕ → Progress) (ws : List Worker) :
    ∀ w ∈ shutDown progress ws, w.Down := by
  simp only [shutDown, List.map_map, List.mem_map, List.mem_mapIdx, List.getElem_map,
    List.length_map]
  rintro _ ⟨_, ⟨i, hi, rfl⟩, rfl⟩
  refine Worker.down_of_stopped ?_
  rw [Worker.acceptorOpen_run]
  rfl

lemma length_shutDown (progress : ℕ → Progress) (ws : List Worker) :
    (shutDown progress ws).length = ws.length := by
  simp [shutDown]

/-! ## What a start can do -/

/-- Nothing fails for worker `i`. -/
def Environment.AllowsWorker (env : Environment) (i : ℕ) : Prop :=
  env.createThread i = none ∧ (env.linux = true → env.setAffinity i = none)

/-- Nothing fails for `n` workers. -/
def Environment.Allows (env : Environment) (n : ℕ) : Prop :=
  (env.linux = true → n ≤ env.hardwareCores) ∧ ∀ i < n, env.AllowsWorker i

instance (env : Environment) (i : ℕ) : Decidable (env.AllowsWorker i) :=
  inferInstanceAs (Decidable (_ ∧ _))

instance (env : Environment) (n : ℕ) : Decidable (env.Allows n) :=
  inferInstanceAs (Decidable (_ ∧ _))

/-- A worker after its turn in the loop. -/
def Worker.launched (w : Worker) : Worker :=
  { w with spine := w.spine.start, joinable := true }

variable {env : Environment} {r : GatewayRuntime}

lemma Worker.launch_of_allowsWorker {w : Worker} {i : ℕ} (hw : w.joinable = false)
    (henv : env.AllowsWorker i) : w.launch env i = (.returned, w.launched) := by
  obtain ⟨hthread, haffinity⟩ := henv
  cases hlinux : env.linux with
  | false => simp [launch, hthread, hw, hlinux, launched]
  | true => simp [launch, bindThreadToCoreOrThrow, hthread, hw, hlinux, haffinity hlinux, launched]

lemma Worker.launch_of_not_allowsWorker {w : Worker} {i : ℕ} (hw : w.joinable = false)
    (henv : ¬env.AllowsWorker i) : ∃ e w', w.launch env i = (.threw e, w') := by
  cases hthread : env.createThread i with
  | some error => exact ⟨_, _, by rw [launch, hthread]⟩
  | none =>
      rw [Environment.AllowsWorker, hthread] at henv
      simp only [true_and, not_forall] at henv
      obtain ⟨hlinux, haffinity⟩ := henv
      obtain ⟨error, haffinity⟩ := Option.ne_none_iff_exists'.mp haffinity
      simp [launch, bindThreadToCoreOrThrow, hthread, hw, hlinux, haffinity]

/-- Nothing fails for the workers from `i` on. -/
lemma forall_allowsWorker_succ {i n : ℕ} :
    (∀ j < n + 1, env.AllowsWorker (i + j)) ↔
      env.AllowsWorker i ∧ ∀ j < n, env.AllowsWorker (i + 1 + j) := by
  simp only [Nat.forall_lt_succ_left, Nat.add_right_comm i 1]
  rfl

lemma launchFrom_of_allows {ws : List Worker} {i : ℕ} (hws : ∀ w ∈ ws, w.joinable = false)
    (henv : ∀ j < ws.length, env.AllowsWorker (i + j)) :
    launchFrom env i ws = (.returned, ws.map Worker.launched) := by
  induction ws generalizing i with
  | nil => rfl
  | cons w ws ih =>
      obtain ⟨hfirst, hrest⟩ := forall_allowsWorker_succ.mp henv
      have hw := hws w List.mem_cons_self
      have hrest := ih (fun x hx => hws x (List.mem_cons_of_mem w hx)) hrest
      rw [launchFrom, Worker.launch_of_allowsWorker hw hfirst, hrest, List.map_cons]

lemma launchFrom_of_not_allows {ws : List Worker} {i : ℕ} (hws : ∀ w ∈ ws, w.joinable = false)
    (henv : ¬∀ j < ws.length, env.AllowsWorker (i + j)) :
    ∃ e ws', launchFrom env i ws = (.threw e, ws') ∧ ws'.length = ws.length := by
  induction ws generalizing i with
  | nil => exact absurd (fun j hj => absurd hj (Nat.not_lt_zero j)) henv
  | cons w ws ih =>
      have hw := hws w List.mem_cons_self
      by_cases hfirst : env.AllowsWorker i
      · have hrest : ¬∀ j < ws.length, env.AllowsWorker (i + 1 + j) := by
          intro hall
          exact henv (forall_allowsWorker_succ.mpr ⟨hfirst, hall⟩)
        obtain ⟨e, ws', heq, hlen⟩ := ih (fun x hx => hws x (List.mem_cons_of_mem w hx)) hrest
        refine ⟨e, w.launched :: ws', ?_, by simp [hlen]⟩
        rw [launchFrom, Worker.launch_of_allowsWorker hw hfirst, heq]
      · obtain ⟨e, w', heq⟩ := Worker.launch_of_not_allowsWorker hw hfirst
        exact ⟨e, w' :: ws, by rw [launchFrom, heq], by simp⟩

lemma launchAll_of_allows {ws : List Worker} (hws : ∀ w ∈ ws, w.joinable = false)
    (henv : env.Allows ws.length) : launchAll env ws = (.returned, ws.map Worker.launched) := by
  obtain ⟨hcores, hall⟩ := henv
  rw [launchAll, if_neg]
  · refine launchFrom_of_allows hws ?_
    intro j hj
    rw [Nat.zero_add]
    exact hall j hj
  · simpa using hcores

lemma launchAll_of_not_allows {ws : List Worker} (hws : ∀ w ∈ ws, w.joinable = false)
    (henv : ¬env.Allows ws.length) :
    ∃ e ws', launchAll env ws = (.threw e, ws') ∧ ws'.length = ws.length := by
  rw [launchAll]
  split_ifs with hcores
  · exact ⟨_, ws, rfl, rfl⟩
  · refine launchFrom_of_not_allows hws ?_
    intro hall
    refine henv ⟨by simpa using hcores, ?_⟩
    intro j hj
    simpa using hall j hj

/-! ## Threads -/

/-- **The invariant**: the threads are there if and only if the runtime is started. -/
def ThreadsFollow (r : GatewayRuntime) : Prop :=
  ∀ w ∈ r.workers, w.joinable = r.started

/-- **What a start can do** when the threads are as they should be. -/
inductive Starts (r : GatewayRuntime) (env : Environment) : Outcome × GatewayRuntime → Prop
  | already (hstarted : r.started = true) : Starts r env (.returned, r)
  | launched (hstarted : r.started = false) (henv : env.Allows r.workers.length) :
      Starts r env (.returned, ⟨r.workers.map Worker.launched, true⟩)
  | failed {e ws} (hstarted : r.started = false) (henv : ¬env.Allows r.workers.length)
      (hlen : ws.length = r.workers.length) :
      Starts r env (.threw e, ⟨shutDown env.progress ws, false⟩)

lemma starts_start (hr : ThreadsFollow r) (env : Environment) : Starts r env (r.start env) := by
  rw [start]
  split_ifs with hstarted
  · exact .already hstarted
  · have hstarted : r.started = false := by simpa using hstarted
    have hws : ∀ w ∈ r.workers, w.joinable = false := fun w hw => (hr w hw).trans hstarted
    by_cases henv : env.Allows r.workers.length
    · rw [launchAll_of_allows hws henv]
      exact .launched hstarted henv
    · obtain ⟨e, ws, heq, hlen⟩ := launchAll_of_not_allows hws henv
      simp only [heq, hstarted]
      exact .failed hstarted henv hlen

lemma started_stop (r : GatewayRuntime) (progress : ℕ → Progress) :
    (r.stop progress).started = false := by
  cases hstarted : r.started <;> simp [stop, hstarted]

lemma threadsFollow_stop (hr : ThreadsFollow r) (progress : ℕ → Progress) :
    ThreadsFollow (r.stop progress) := by
  rw [stop]
  split_ifs with hstarted
  · exact fun w hw => (down_shutDown progress r.workers w hw).joined
  · exact hr

/-- **The step lemma.** -/
lemma threadsFollow_step (hr : ThreadsFollow r) (a : Action) : ThreadsFollow (r.step a).2 := by
  cases a with
  | start env =>
      have hstarts := starts_start hr env
      rw [step]
      generalize r.start env = result at hstarts ⊢
      cases hstarts with
      | already hstarted => exact hr
      | launched hstarted henv =>
          simp only [ThreadsFollow, List.mem_map]
          rintro _ ⟨w, hw, rfl⟩
          rfl
      | failed hstarted henv hlen => exact fun w hw => (down_shutDown _ _ w hw).joined
  | stop progress => exact threadsFollow_stop hr progress
  | run progress =>
      simp only [ThreadsFollow, step, List.mem_mapIdx]
      rintro _ ⟨i, hi, rfl⟩
      rw [Worker.joinable_run]
      exact hr _ (List.getElem_mem hi)

/-- The process goes on after a call. -/
lemma outcome_step (hr : ThreadsFollow r) (a : Action) : (r.step a).1 ≠ .terminated := by
  cases a with
  | start env =>
      have hstarts := starts_start hr env
      rw [step]
      generalize r.start env = result at hstarts ⊢
      cases hstarts <;> simp
  | stop progress => simp [step]
  | run progress => simp [step]

lemma threadsFollow_reached (hr : ThreadsFollow r) (actions : List Action) :
    ThreadsFollow (r.reached actions) := by
  induction actions using List.reverseRecOn with
  | nil => exact hr
  | append_singleton actions a ih =>
      rw [reached_concat]
      exact threadsFollow_step ih a

/-- The constructor makes workers that have never been started, and at least one. -/
lemma new_eq_ok {config : SpineConfig} {workerCount : ℕ} {listening : ℕ → Option Exception}
    (hnew : new config workerCount listening = .ok r) :
    0 < workerCount ∧ r = { workers := List.replicate workerCount {} } := by
  rw [new] at hnew
  split_ifs at hnew with hzero hport
  split at hnew
  · cases hnew
  · cases hnew
    exact ⟨Nat.pos_of_ne_zero hzero, rfl⟩

lemma threadsFollow_new {config : SpineConfig} {workerCount : ℕ}
    {listening : ℕ → Option Exception} (hnew : new config workerCount listening = .ok r) :
    ThreadsFollow r := by
  obtain ⟨-, rfl⟩ := new_eq_ok hnew
  intro w hw
  rw [List.eq_of_mem_replicate hw]

/-- **Starting and stopping leave no thread behind.**  After any calls, whatever failed in them:
* the threads of all workers are joinable if the runtime is started, and none is if it is not;
* a `start` that throws leaves the runtime not started;
* no call, and no destruction, meets a joinable thread that it assigns to or destroys. -/
theorem threads_follow_started {config : SpineConfig} {workerCount : ℕ}
    {listening : ℕ → Option Exception} {r : GatewayRuntime}
    (hnew : new config workerCount listening = .ok r) (actions : List Action) :
    (∀ w ∈ (r.reached actions).workers, w.joinable = (r.reached actions).started) ∧
    (∀ env e, ((r.reached actions).start env).1 = .threw e →
      ((r.reached actions).start env).2.started = false) ∧
    (∀ a, ((r.reached actions).step a).1 ≠ .terminated) ∧
    ∀ progress, (r.reached actions).destroy progress ≠ .terminated := by
  have hthreads := threadsFollow_reached (threadsFollow_new hnew) actions
  refine ⟨hthreads, ?_, ?_, ?_⟩
  · intro env e hthrew
    have hstarts := starts_start hthreads env
    generalize (r.reached actions).start env = result at hstarts hthrew ⊢
    cases hstarts with
    | already hstarted => cases hthrew
    | launched hstarted henv => cases hthrew
    | failed hstarted henv hlen => rfl
  · intro a
    exact outcome_step hthreads a
  · intro progress
    rw [destroy, if_neg]
    · simp
    · have hstopped := threadsFollow_stop hthreads progress
      simp only [List.any_eq_true, not_exists, not_and, Bool.not_eq_true]
      intro w hw
      rw [hstopped w hw, started_stop]

def twoWorkers : GatewayRuntime where
  workers := [{}, {}]

/-- The second thread is created and cannot be bound. -/
def unbindable : Environment where
  hardwareConcurrency := 2
  setAffinity i := if i = 1 then some "Invalid argument" else none

/-- Both threads are joined when the second one cannot be bound. -/
theorem threads_follow_started_unbindable :
    (twoWorkers.start unbindable).1
      = .threw (.runtimeError "pthread_setaffinity_np failed for core 1: Invalid argument") ∧
    ∀ w ∈ (twoWorkers.reached [.start unbindable]).workers,
      w.joinable = (twoWorkers.reached [.start unbindable]).started := by
  have hnew : new {} 2 (fun _ => none) = .ok twoWorkers := rfl
  exact ⟨by decide, (threads_follow_started hnew [.start unbindable]).1⟩

end GatewayRuntime

end Netp2.Runtime
