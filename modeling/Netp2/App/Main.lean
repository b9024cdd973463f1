import Netp2.Runtime.GatewayRuntime

/-!
# The process

`main` makes a gateway with a worker for each core, starts it, and waits for a signal, which stops
it.  Whatever throws on the way is reported; before that the runtime, if it has been made, is
destroyed, and an exception there would terminate the process.

`main_reports` says how the process ends: it exits with 0 exactly if nothing fails, and else reports
the first failure, in the order of the code.
-/

namespace Netp2.Runtime.GatewayRuntime

/-! ## What fails first in a start -/

namespace Environment

variable (env : Environment)

/-- What fails for worker `i`: its thread, or binding it. -/
def workerFailure (i : ℕ) : Option Exception :=
  match env.createThread i with
  | some error => some (.systemError error)
  | none =>
      if env.linux then
        (env.setAffinity i).map fun error =>
          .runtimeError s!"pthread_setaffinity_np failed for core {i}: {error}"
      else
        none

/-- What fails for `n` workers: there are too many of them, or one of them fails. -/
def failure (n : ℕ) : Option Exception :=
  if env.linux && env.hardwareCores < n then
    some (.invalidArgument "worker_count exceeds available CPU cores on Linux")
  else
    (List.range n).findSome? env.workerFailure

end Environment

def Outcome.ofFailure : Option Exception → Outcome
  | none => .returned
  | some e => .threw e

variable {env : Environment} {r : GatewayRuntime}

lemma Worker.outcome_launch (env : Environment) {w : Worker} (hw : w.joinable = false) (i : ℕ) :
    (w.launch env i).1 = .ofFailure (env.workerFailure i) := by
  cases hthread : env.createThread i with
  | some error => simp [launch, Environment.workerFailure, hthread, Outcome.ofFailure]
  | none =>
      cases hlinux : env.linux with
      | false => simp [launch, Environment.workerFailure, hthread, hw, hlinux, Outcome.ofFailure]
      | true =>
          cases haffinity : env.setAffinity i <;>
            simp [launch, bindThreadToCoreOrThrow, Environment.workerFailure, hthread, hw, hlinux,
              haffinity, Outcome.ofFailure]

lemma outcome_launchFrom {ws : List Worker} (hws : ∀ w ∈ ws, w.joinable = false) (i : ℕ) :
    (launchFrom env i ws).1
      = .ofFailure ((List.range' i ws.length).findSome? env.workerFailure) := by
  induction ws generalizing i with
  | nil => rfl
  | cons w ws ih =>
      have hlaunch := Worker.outcome_launch env (hws w List.mem_cons_self) i
      have hrest := ih (fun x hx => hws x (List.mem_cons_of_mem w hx)) (i + 1)
      rw [launchFrom, List.length_cons, List.range'_succ, List.findSome?_cons]
      cases hfailure : env.workerFailure i with
      | none =>
          rw [hfailure] at hlaunch
          generalize w.launch env i = launched at hlaunch ⊢
          obtain ⟨outcome, w'⟩ := launched
          obtain rfl : outcome = .returned := hlaunch
          exact hrest
      | some e =>
          rw [hfailure] at hlaunch
          generalize w.launch env i = launched at hlaunch ⊢
          obtain ⟨outcome, w'⟩ := launched
          obtain rfl : outcome = .threw e := hlaunch
          rfl

/-- **A start reports what fails first.** -/
lemma outcome_start (hr : ThreadsFollow r) (hstarted : r.started = false) (env : Environment) :
    (r.start env).1 = .ofFailure (env.failure r.workers.length) := by
  have hws : ∀ w ∈ r.workers, w.joinable = false := fun w hw => (hr w hw).trans hstarted
  have hall : (launchAll env r.workers).1 = .ofFailure (env.failure r.workers.length) := by
    rw [launchAll, Environment.failure]
    split_ifs
    · rfl
    · rw [outcome_launchFrom hws, List.range_eq_range']
  rw [start, hstarted, if_neg Bool.false_ne_true, ← hall]
  generalize launchAll env r.workers = launched
  obtain ⟨outcome, ws⟩ := launched
  cases outcome <;> rfl

/-- A runtime can be destroyed at any time. -/
lemma destroy_eq (hr : ThreadsFollow r) (progress : ℕ → Progress) :
    r.destroy progress = .returned := by
  have hjoined : ∀ w ∈ (r.stop progress).workers, w.joinable = false := fun w hw =>
    (threadsFollow_stop hr progress w hw).trans (started_stop r progress)
  rw [destroy, if_neg]
  simpa using hjoined

end Netp2.Runtime.GatewayRuntime

namespace Netp2.App

open Netp2.Runtime Netp2.Runtime.GatewayRuntime StepRun

def kVersion : String := "0.1.0"

def listenAddress : String := "0.0.0.0"

def config : SpineConfig := { listenPort := 18080 }

/-- What the process meets.  `hardwareConcurrency` is what `main` is told, `starting` has what
`start` is told; `waiting` is what the event loops do until the signal. -/
structure Surroundings where
  hardwareConcurrency : ℕ
  listening : ℕ → Option Exception := fun _ => none
  starting : Environment
  signalSet : Option String := none
  waiting : List (ℕ → Progress) := []
  stopping : ℕ → Progress := fun _ => {}

namespace Surroundings

def workers (m : Surroundings) : ℕ :=
  max 1 m.hardwareConcurrency

end Surroundings

inductive Ending where
  | exits (code : ℕ)
  | terminates
  deriving DecidableEq, Repr

structure ProcessEnd where
  ending : Ending
  out : String := ""
  err : String := ""
  deriving DecidableEq, Repr

def what : Exception → String
  | .invalidArgument what | .runtimeError what | .systemError what => what

/-- The handler in `main`. -/
def fatal (e : Exception) : ProcessEnd where
  ending := .exits 1
  err := "fatal: " ++ what e ++ "\n"

def banner (workers : ℕ) : String :=
  "netp2 gateway phase-b-step1 " ++ kVersion ++ " workers=" ++ toString workers ++ " listening on "
    ++ listenAddress ++ ":" ++ toString config.listenPort.toNat ++ "\n"

/-- The runtime goes out of scope, on the way to the handler or to the end. -/
def leaveScope (r : GatewayRuntime) (stopping : ℕ → Progress) (ended : ProcessEnd) : ProcessEnd :=
  match r.destroy stopping with
  | .returned => ended
  | _ => { ended with ending := .terminates }

/-- `main`, with a signal in the end. -/
def main (m : Surroundings) : ProcessEnd :=
  match GatewayRuntime.new config m.workers m.listening with
  | .error e => fatal e
  | .ok runtime =>
      match runtime.start m.starting with
      | (.terminated, _) => { ending := .terminates }
      | (.threw e, runtime) => leaveScope runtime m.stopping (fatal e)
      | (.returned, runtime) =>
          match m.signalSet with
          | some error => leaveScope runtime m.stopping (fatal (.systemError error))
          | none =>
              let served := runtime.reached (m.waiting.map .run)
              leaveScope (served.stop m.stopping) m.stopping
                { ending := .exits 0, out := banner m.workers }

/-! ## How the process ends -/

/-- What fails first, if anything does. -/
def Surroundings.failure (m : Surroundings) : Option Exception :=
  ((List.range m.workers).findSome? m.listening).or <|
    (m.starting.failure m.workers).or (m.signalSet.map .systemError)

lemma leaveScope_eq {r : GatewayRuntime} (hr : ThreadsFollow r) (stopping : ℕ → Progress)
    (ended : ProcessEnd) : leaveScope r stopping ended = ended := by
  rw [leaveScope, destroy_eq hr]

/-- There is a worker at least, and the port is fixed; so only listening can fail. -/
lemma new_config (m : Surroundings) : GatewayRuntime.new config m.workers m.listening
    = ((List.range m.workers).findSome? m.listening).elim
      (.ok { workers := List.replicate m.workers {} }) .error := by
  have hworkers : m.workers ≠ 0 := by
    rw [Surroundings.workers]
    omega
  have hport : ¬(1 < m.workers ∧ config.listenPort = 0) := by
    rintro ⟨-, hzero⟩
    exact absurd hzero (by decide)
  rw [GatewayRuntime.new, if_neg hworkers, if_neg hport]
  cases (List.range m.workers).findSome? m.listening with
  | none => rfl
  | some e => rfl

/-- What follows a listening gateway. -/
lemma main_of_listening {m : Surroundings}
    (hlistening : (List.range m.workers).findSome? m.listening = none) :
    main m = ((m.starting.failure m.workers).or (m.signalSet.map .systemError)).elim
      { ending := .exits 0, out := banner m.workers } fatal := by
  have hnew : GatewayRuntime.new config m.workers m.listening
      = .ok { workers := List.replicate m.workers {} } := by
    rw [new_config, hlistening, Option.elim_none]
  have hr := threadsFollow_new hnew
  have houtcome := outcome_start hr rfl m.starting
  have hstarted := threadsFollow_step hr (.start m.starting)
  rw [List.length_replicate] at houtcome
  rw [main, hnew]
  simp only [step] at hstarted ⊢
  generalize start _ m.starting = result at houtcome hstarted ⊢
  obtain ⟨outcome, runtime⟩ := result
  cases hfailure : m.starting.failure m.workers with
  | some e =>
      rw [hfailure] at houtcome
      obtain rfl : outcome = .threw e := houtcome
      exact leaveScope_eq hstarted _ _
  | none =>
      rw [hfailure] at houtcome
      obtain rfl : outcome = .returned := houtcome
      cases m.signalSet with
      | some error => exact leaveScope_eq hstarted _ _
      | none =>
          have hserved := threadsFollow_reached hstarted (m.waiting.map .run)
          exact leaveScope_eq (threadsFollow_stop hserved m.stopping) _ _

/-- The workers are as many as the cores, if `start` finds as many. -/
lemma failure_of_cores {env : Environment} {n : ℕ} {what : String}
    (henv : n ≤ env.hardwareCores) : env.failure n ≠ some (.invalidArgument what) := by
  have hcores : (env.linux && decide (env.hardwareCores < n)) = false := by
    simp [Nat.not_lt.mpr henv]
  rw [Environment.failure, hcores, if_neg Bool.false_ne_true]
  intro hfailure
  obtain ⟨i, -, hi⟩ := List.exists_of_findSome?_eq_some hfailure
  rw [Environment.workerFailure] at hi
  split at hi
  · simp at hi
  · split_ifs at hi
    simp at hi

/-- **How the process ends.**  It is never terminated.  If nothing fails, it exits with 0 after its
banner; else it exits with 1 and reports what failed first, and the banner is not printed.  As long
as `start` is told the same number of cores as `main`, there are never too many workers. -/
theorem main_reports (m : Surroundings) :
    main m = m.failure.elim { ending := .exits 0, out := banner m.workers } fatal ∧
    (m.starting.hardwareConcurrency = m.hardwareConcurrency →
      (∀ i what, m.listening i ≠ some (.invalidArgument what)) →
      ∀ what, m.failure ≠ some (.invalidArgument what)) := by
  constructor
  · cases hlistening : (List.range m.workers).findSome? m.listening with
    | some e =>
        have hnew : GatewayRuntime.new config m.workers m.listening = .error e := by
          rw [new_config, hlistening, Option.elim_some]
        have hfailure : m.failure = some e := by
          rw [Surroundings.failure, hlistening, Option.some_or]
        rw [hfailure, main, hnew]
        rfl
    | none =>
        rw [main_of_listening hlistening, Surroundings.failure, hlistening, Option.none_or]
  · intro hcores hlistening what hfailure
    have hworkers : m.workers ≤ m.starting.hardwareCores := by
      rw [Surroundings.workers, Environment.hardwareCores, hcores]
      split_ifs with hzero
      · simp [hzero]
      · exact Nat.max_le.mpr ⟨Nat.pos_of_ne_zero hzero, le_rfl⟩
    simp only [Surroundings.failure, Option.or_eq_some_iff] at hfailure
    rcases hfailure with hlisten | ⟨-, hstart | ⟨-, hsignal⟩⟩
    · obtain ⟨i, -, hi⟩ := List.exists_of_findSome?_eq_some hlisten
      exact hlistening i what hi
    · exact failure_of_cores hworkers hstart
    · simp at hsignal

end Netp2.App
