import Netp2.Observability.Scrape
import Netp2.Runtime.Gateway

/-!
# The registry, one operation at a time

In `Gateway.lean` a worker runs a piece of a coroutine in one step.  To the other workers this makes
no difference, except in the registry: it is the one thing that they share, and its operations are
atomic only one by one.  A record is made by one or two of them, and `render_prometheus` takes the
mutex and loads the counters of one shard after the other.

`ScrapedGateway` is the gateway with these operations as steps.  The thread of a worker is busy
until it has made all of a piece, and what the others do may come between any two of them.  A
request for `/metrics` is answered when its rendering has ended.  A piece that nothing comes between
is a step of `Gateway` (`run_alone`).

`counted` is what a worker has counted of its connections so far.  Every step either adds to it what
it adds to a counter or leaves both alone (`Moves`), so shards and workers agree (`Agrees`) and no
worker ever counts back.
-/

namespace Netp2.Observability

/-! ## The operations of a record -/

/-- `fetch_add` on a counter. -/
def Counter.add : Counter → UInt64 → WorkerMetricsShard → WorkerMetricsShard
  | .accepts, n, shard => { shard with acceptsTotal := shard.acceptsTotal + n }
  | .requests, n, shard => { shard with requestsTotal := shard.requestsTotal + n }
  | .responses2xx, n, shard => { shard with responses2xxTotal := shard.responses2xxTotal + n }
  | .responses4xx, n, shard => { shard with responses4xxTotal := shard.responses4xxTotal + n }
  | .responses5xx, n, shard => { shard with responses5xxTotal := shard.responses5xxTotal + n }
  | .bytesIn, n, shard => { shard with bytesInTotal := shard.bytesInTotal + n }
  | .bytesOut, n, shard => { shard with bytesOutTotal := shard.bytesOutTotal + n }

lemma Counter.get_add (c c' : Counter) (n : UInt64) (shard : WorkerMetricsShard) :
    c.get (c'.add n shard) = c.get shard + if c = c' then n else 0 := by
  cases c <;> cases c' <;> simp [Counter.get, Counter.add]

/-- The additions that a record makes, in their order. -/
def MetricsRecord.additions : MetricsRecord → List (Counter × UInt64)
  | .accept => [(.accepts, 1)]
  | .request bytesIn => [(.requests, 1), (.bytesIn, bytesIn)]
  | .response statusCode bytesOut =>
      (if 200 ≤ statusCode ∧ statusCode < 300 then [(.responses2xx, 1)]
      else if 400 ≤ statusCode ∧ statusCode < 500 then [(.responses4xx, 1)]
      else if 500 ≤ statusCode ∧ statusCode < 600 then [(.responses5xx, 1)]
      else []) ++ [(.bytesOut, bytesOut)]

/-- One after the other they make the record. -/
lemma MetricsRecord.foldl_additions (m : MetricsRecord) (shard : WorkerMetricsShard) :
    m.additions.foldl (fun shard a => a.1.add a.2 shard) shard = m.count shard := by
  have hsize : ∀ b : UInt64, b.toNat.toUInt64 = b := fun b => UInt64.ofNat_toNat
  cases m with
  | accept => rfl
  | request bytesIn => simp [additions, Counter.add, count, hsize]
  | response statusCode bytesOut =>
      simp only [additions, count, MetricsRegistry.countStatus, hsize]
      split_ifs <;> rfl

/-- What additions come to for a counter. -/
def owed (c : Counter) (additions : List (Counter × UInt64)) : ℕ :=
  ((additions.filter fun a => a.1 = c).map fun a => a.2.toNat).sum

@[simp] lemma owed_nil (c : Counter) : owed c [] = 0 := rfl

lemma owed_cons (c : Counter) (a : Counter × UInt64) (additions : List (Counter × UInt64)) :
    owed c (a :: additions) = (if c = a.1 then a.2.toNat else 0) + owed c additions := by
  by_cases h : a.1 = c
  · simp [owed, h]
  · simp [owed, h, Ne.symm h]

lemma owed_additions (c : Counter) (m : MetricsRecord) :
    owed c m.additions = MetricsRecord.amount c m := by
  cases m with
  | accept => cases c <;> rfl
  | request bytesIn => cases c <;> simp [MetricsRecord.additions, owed_cons, MetricsRecord.amount]
  | response statusCode bytesOut =>
      cases c <;> simp only [MetricsRecord.additions, MetricsRecord.amount] <;> split_ifs <;>
        first | omega | simp [owed_cons]

end Netp2.Observability

namespace Netp2.Runtime

open ByteString StepRun Netp2.Observability Netp2.Protocol

/-! ## The workers and their threads -/

/-- `render_prometheus` for a request of a connection; there is no scan before it has the mutex. -/
structure Rendering where
  connection : ℕ
  requestView : ByteString
  scan : Option Scan := none

/-- A worker, and what its thread still has to do of the piece that it runs: additions to its shard,
and then perhaps a rendering. -/
structure WorkerThread where
  spine : RuntimeSpine
  additions : List (Counter × UInt64) := []
  rendering : Option Rendering := none

structure ScrapedGateway where
  metrics : MetricsRegistry
  threads : List WorkerThread := []

/-- A thread begins with a piece, or it goes on with the one that it runs. -/
inductive ThreadAction where
  | run (a : SpineAction)
  | proceed

/-- The loop of `render_prometheus` looks at the registry as it is. -/
def scanAt (metrics : MetricsRegistry) (scan : Scan) : Scan :=
  { scan with process := { scan.process with registry := metrics } }

lemma scanAt_self {metrics : MetricsRegistry} {scan : Scan}
    (h : scan.process.registry = metrics) : scanAt metrics scan = scan := by
  subst h
  rfl

/-- The branch of `handle_connection` for `/metrics`. -/
def metricsResponse (body : ByteString) : Response where
  statusCode := 200
  reason := ascii "OK"
  body := body
  contentType := ascii "text/plain; version=0.0.4; charset=utf-8"

def metricsBuilt (body : ByteString) : BuiltResponse where
  response := metricsResponse body
  statusCode_mem := by simp [metricsResponse]

/-- The connection and its request, if the action is the read of a request for `/metrics`. -/
def scrapes (L : Llhttp) (s : RuntimeSpine) : SpineAction → Option (ℕ × ByteString)
  | .handle k (.read arrivals) =>
      match s.connections[k]? with
      | some .reading =>
          let (readError, requestView, _) := asyncReadSome arrivals
          if readError ≠ some .other ∧ AsksMetrics L requestView then some (k, requestView)
          else none
      | _ => none
  | _ => none

namespace WorkerThread

def busy (t : WorkerThread) : Bool :=
  !t.additions.isEmpty || t.rendering.isSome

/-- A piece begins.  Its own part is made at once; the registry comes afterwards. -/
def run (L : Llhttp) (metrics : MetricsRegistry) (t : WorkerThread) (a : SpineAction) :
    WorkerThread :=
  match scrapes L t.spine a with
  | some (k, requestView) =>
      { t with
        additions := MetricsRecord.additions (.request requestView.length.toUInt64)
        rendering := some { connection := k, requestView := requestView } }
  | none =>
      let (record, s) := RuntimeSpine.step L (t.spine.sync metrics) a
      { t with
        spine := s
        additions := (record.map fun r => r.2.additions).getD [] }

/-- The thread has the mutex, and its loop is here. -/
def scanning (t : WorkerThread) (R : Rendering) (scan : Scan) : WorkerThread :=
  { t with rendering := some { R with scan := some scan } }

/-- The rendering has ended, and the response is built. -/
def answer (t : WorkerThread) (R : Rendering) (body : ByteString) : WorkerThread :=
  { t with
    spine := { t.spine with
      connections := t.spine.connections.set R.connection
        (.posted R.requestView (metricsBuilt body)) }
    rendering := none }

end WorkerThread

namespace ScrapedGateway

/-- The mutex of the registry is taken. -/
def locked (g : ScrapedGateway) : Bool :=
  g.threads.any fun t => t.rendering.any fun R => R.scan.isSome

def setThread (g : ScrapedGateway) (i : ℕ) (t : WorkerThread) : ScrapedGateway :=
  { g with threads := g.threads.set i t }

/-- The next operation of thread `i`. -/
def proceed (g : ScrapedGateway) (i : ℕ) (t : WorkerThread) : ScrapedGateway :=
  match t.additions, t.rendering with
  | (c, n) :: additions, _ =>
      { metrics := g.metrics.onShard t.spine.worker.tlsWorkerShard (c.add n)
        threads := g.threads.set i { t with additions := additions } }
  | [], some R =>
      match R.scan with
      | none =>
          if g.locked then g
          else g.setThread i (t.scanning R { process := { registry := g.metrics } })
      | some scan =>
          let scan := scanAt g.metrics scan
          if scan.finished then g.setThread i (t.answer R scan.text)
          else g.setThread i (t.scanning R scan.proceed)
  | [], none => g

def step (L : Llhttp) (g : ScrapedGateway) (a : ℕ × ThreadAction) : Unit × ScrapedGateway :=
  match g.threads[a.1]? with
  | none => ((), g)
  | some t =>
      match a.2 with
      | .run a' =>
          if t.busy ∨ !a'.isOwn then ((), g) else ((), g.setThread a.1 (t.run L g.metrics a'))
      | .proceed => ((), g.proceed a.1 t)

/-- The constructor of `GatewayRuntime` runs on one thread. -/
def new (w : Worker) (n : ℕ) : ScrapedGateway where
  metrics := (Gateway.new w n).metrics
  threads := (Gateway.new w n).spines.map fun s => { spine := s }

def reached (L : Llhttp) (w : Worker) (n : ℕ) (actions : List (ℕ × ThreadAction)) :
    ScrapedGateway :=
  final (step L) (new w n) actions

end ScrapedGateway

/-! ## What has been counted -/

section Counted

variable {L : Llhttp} {c : Counter}

lemma sum_map_set {α : Type} (f : α → ℕ) {l : List α} {k : ℕ} {x : α} (hk : l[k]? = some x)
    (y : α) : ((l.set k y).map f).sum + f x = (l.map f).sum + f y := by
  induction l generalizing k with
  | nil => exact absurd hk (by simp)
  | cons z l ih =>
      cases k with
      | zero =>
          obtain rfl : z = x := Option.some.inj hk
          simp only [List.set_cons_zero, List.map_cons, List.sum_cons]
          omega
      | succ k =>
          have hrest := ih (k := k) hk
          simp only [List.set_cons_succ, List.map_cons, List.sum_cons]
          omega

/-- A step of a worker contributes what it records. -/
lemma charge_step (s : RuntimeSpine) {a : SpineAction} (ha : a.isOwn = true) :
    Gateway.charge c (s.step L a).2
      = Gateway.charge c s + ((s.step L a).1.map fun r => MetricsRecord.amount c r.2).getD 0 := by
  cases a with
  | stop => rfl
  | acceptFails aborted =>
      simp only [RuntimeSpine.step]
      split_ifs <;> rfl
  | accept socketOnExecutor =>
      simp only [RuntimeSpine.step]
      split_ifs
      · rfl
      · rfl
      · simp [Gateway.charge, Phase.charge, Phase.records, Phase.requestView,
          Phase.writtenResponse]
  | handle k wakeup =>
      cases hk : s.connections[k]? with
      | none => simp [RuntimeSpine.step, hk]
      | some phase =>
          have hprogress := progress_advance L s.worker phase wakeup
          simp only [RuntimeSpine.step, hk]
          generalize advance L s.worker phase wakeup = next at hprogress ⊢
          cases hprogress with
          | @silent phase' w' hrecords hshard =>
              have hset := sum_map_set (Phase.charge c) hk phase'
              have hphase : phase'.charge c = phase.charge c := by
                rw [Phase.charge, hrecords, Phase.charge]
              simp only [Gateway.charge, Option.map_none, Option.getD_none]
              omega
          | @counted m phase' hrecords =>
              have hset := sum_map_set (Phase.charge c) hk phase'
              have hphase : phase'.charge c = phase.charge c + MetricsRecord.amount c m := by
                simp [Phase.charge, hrecords]
              simp only [Gateway.charge, Option.map_some, Option.getD_some]
              omega
  | reloadRouteConfig snapshot => rfl
  | elsewhere metrics => exact absurd ha (by simp [SpineAction.isOwn])

namespace WorkerThread

/-- What the connections of a worker contribute, with the request that it is answering. -/
def charge (c : Counter) (t : WorkerThread) : ℕ :=
  Gateway.charge c t.spine + (t.rendering.map fun R =>
    MetricsRecord.amount c (.request R.requestView.length.toUInt64)).getD 0

/-- What it has counted of this. -/
def counted (c : Counter) (t : WorkerThread) : ℕ :=
  t.charge c - owed c t.additions

/-- What is still to be counted belongs to the connections, and the one that is being answered has
been read. -/
structure Sound (t : WorkerThread) : Prop where
  owed_le : ∀ c, owed c t.additions ≤ t.charge c
  reading : ∀ R, t.rendering = some R → t.spine.connections[R.connection]? = some .reading

variable {t : WorkerThread}

lemma not_busy_iff : t.busy = false ↔ t.additions = [] ∧ t.rendering = none := by
  simp [busy]

lemma scrapes_eq_some {s : RuntimeSpine} {a : SpineAction} {k : ℕ} {requestView : ByteString}
    (h : scrapes L s a = some (k, requestView)) :
    ∃ arrivals, a = .handle k (.read arrivals) ∧ s.connections[k]? = some .reading ∧
      (asyncReadSome arrivals).1 ≠ some .other ∧ requestView = (asyncReadSome arrivals).2.1 ∧
      AsksMetrics L requestView := by
  revert h
  fun_cases scrapes L s a
  case case1 j arrivals hj readError view unread hsome hasks =>
      intro h
      obtain ⟨rfl, rfl⟩ := Prod.mk.inj (Option.some.inj h)
      exact ⟨arrivals, rfl, hj, by rw [hsome]; exact hasks.1, by rw [hsome], hasks.2⟩
  all_goals exact fun h => absurd h (by simp)

lemma run_of_scrapes {a : SpineAction} {k : ℕ} {requestView : ByteString}
    (h : scrapes L t.spine a = some (k, requestView)) (metrics : MetricsRegistry) :
    t.run L metrics a = { t with
      additions := MetricsRecord.additions (.request requestView.length.toUInt64)
      rendering := some { connection := k, requestView := requestView } } := by
  rw [run, h]

lemma run_of_not_scrapes {a : SpineAction} (h : scrapes L t.spine a = none)
    (metrics : MetricsRegistry) :
    t.run L metrics a = { t with
      spine := ((t.spine.sync metrics).step L a).2
      additions := (((t.spine.sync metrics).step L a).1.map fun r => r.2.additions).getD [] } := by
  rw [run, h]

/-- **A piece begins**: nothing has been counted of it yet. -/
lemma sound_run (hbusy : t.busy = false) (metrics : MetricsRegistry)
    {a : SpineAction} (ha : a.isOwn = true) :
    (t.run L metrics a).Sound ∧ ∀ c, (t.run L metrics a).counted c = t.counted c := by
  obtain ⟨hadditions, hrendering⟩ := not_busy_iff.mp hbusy
  cases hscrapes : scrapes L t.spine a with
  | some request =>
      obtain ⟨k, requestView⟩ := request
      obtain ⟨arrivals, -, hreading, -⟩ := scrapes_eq_some hscrapes
      rw [run_of_scrapes hscrapes]
      refine ⟨⟨?_, ?_⟩, ?_⟩
      · intro c
        simp [charge, owed_additions]
      · intro R hR
        obtain rfl := Option.some.inj hR
        exact hreading
      · intro c
        simp [counted, charge, owed_additions, hadditions, hrendering]
  | none =>
      rw [run_of_not_scrapes hscrapes]
      have hstep := fun c => charge_step (L := L) (c := c) (t.spine.sync metrics) ha
      generalize (t.spine.sync metrics).step L a = next at hstep ⊢
      obtain ⟨record, s⟩ := next
      simp only at hstep ⊢
      have howed : ∀ c, owed c ((record.map fun r => r.2.additions).getD [])
          = (record.map fun r => MetricsRecord.amount c r.2).getD 0 := by
        intro c
        cases record with
        | none => rfl
        | some r => exact owed_additions c r.2
      refine ⟨⟨?_, ?_⟩, ?_⟩
      · intro c
        rw [howed, charge, hstep]
        omega
      · intro R hR
        exact absurd (hrendering.symm.trans hR) (by simp)
      · intro c
        have hsync : Gateway.charge c (t.spine.sync metrics) = Gateway.charge c t.spine := rfl
        simp only [counted, charge, howed, hstep, hsync, hadditions, hrendering, owed_nil,
          Option.map_none, Option.getD_none]
        omega

lemma tlsWorkerShard_run (metrics : MetricsRegistry) (a : SpineAction) :
    (t.run L metrics a).spine.worker.tlsWorkerShard = t.spine.worker.tlsWorkerShard := by
  cases hscrapes : scrapes L t.spine a with
  | some request => rw [run_of_scrapes hscrapes]
  | none =>
      rw [run_of_not_scrapes hscrapes]
      exact tlsWorkerShard_step L (t.spine.sync metrics) a

/-- **An addition** is counted. -/
lemma sound_addition (ht : t.Sound) {a : Counter × UInt64} {rest : List (Counter × UInt64)}
    (ha : t.additions = a :: rest) :
    Sound { t with additions := rest } ∧
      ∀ c, counted c { t with additions := rest }
        = t.counted c + if c = a.1 then a.2.toNat else 0 := by
  have howed := fun c => ht.owed_le c
  simp only [ha, owed_cons] at howed
  refine ⟨⟨?_, ht.reading⟩, ?_⟩
  · intro c
    exact (Nat.le_add_left _ _).trans (howed c)
  · intro c
    have hle := howed c
    simp only [counted, ha, owed_cons]
    show t.charge c - owed c rest = _
    omega

/-- **A rendering** counts nothing. -/
lemma sound_scanning (ht : t.Sound) {R : Rendering} (hR : t.rendering = some R) (scan : Scan) :
    (t.scanning R scan).Sound ∧ ∀ c, (t.scanning R scan).counted c = t.counted c := by
  have hcharge : ∀ c, (t.scanning R scan).charge c = t.charge c := by
    intro c
    simp [charge, scanning, hR]
  refine ⟨⟨?_, ?_⟩, ?_⟩
  · intro c
    rw [hcharge]
    exact ht.owed_le c
  · intro R' hR'
    obtain rfl := Option.some.inj hR'
    exact ht.reading R hR
  · intro c
    rw [counted, hcharge, counted]
    rfl

/-- **A response** to a request that has been counted. -/
lemma sound_answer (ht : t.Sound) {R : Rendering} (hR : t.rendering = some R)
    (body : ByteString) :
    (t.answer R body).Sound ∧ ∀ c, (t.answer R body).counted c = t.counted c := by
  have hcharge : ∀ c, (t.answer R body).charge c = t.charge c := by
    intro c
    have hset := sum_map_set (Phase.charge c) (ht.reading R hR)
      (.posted R.requestView (metricsBuilt body))
    have hposted : Phase.charge c (.posted R.requestView (metricsBuilt body))
        = Phase.charge c .reading
          + MetricsRecord.amount c (.request R.requestView.length.toUInt64) := by
      simp [Phase.charge_eq, Phase.requestView, Phase.writtenResponse]
    simp only [charge, answer, Gateway.charge, hR, Option.map_some, Option.map_none,
      Option.getD_some, Option.getD_none]
    omega
  refine ⟨⟨?_, ?_⟩, ?_⟩
  · intro c
    rw [hcharge]
    exact ht.owed_le c
  · intro R' hR'
    exact absurd hR' (by simp [answer])
  · intro c
    rw [counted, hcharge, counted]
    rfl

end WorkerThread

end Counted

/-! ## A step of the gateway -/

namespace ScrapedGateway

/-- A thread goes on, and counts `amount`. -/
structure Follows (t t' : WorkerThread) (amount : Counter → ℕ) : Prop where
  tlsWorkerShard : t'.spine.worker.tlsWorkerShard = t.spine.worker.tlsWorkerShard
  sound : t.Sound → t'.Sound
  counted : t.Sound → ∀ c, t'.counted c = t.counted c + amount c

/-- **What a step can do.**  A thread counts nothing and the registry stays as it is, or there is
one addition to its shard. -/
inductive Moves (g : ScrapedGateway) : ScrapedGateway → Prop
  | rests : Moves g g
  | goes {i t t'} (ht : g.threads[i]? = some t) (hfollows : Follows t t' fun _ => 0) :
      Moves g (g.setThread i t')
  | adds {i t t' c} {n : UInt64} (ht : g.threads[i]? = some t)
      (hfollows : Follows t t' fun c' => if c' = c then n.toNat else 0) :
      Moves g
        { metrics := g.metrics.onShard t.spine.worker.tlsWorkerShard (c.add n)
          threads := g.threads.set i t' }

variable {L : Llhttp} {g g' : ScrapedGateway}

lemma moves_proceed {i : ℕ} {t : WorkerThread} (ht : g.threads[i]? = some t) :
    Moves g (g.proceed i t) := by
  fun_cases proceed g i t
  case case1 c n additions hadditions =>
      exact .adds ht ⟨rfl, fun h => (WorkerThread.sound_addition h hadditions).1,
        fun h => (WorkerThread.sound_addition h hadditions).2⟩
  case case2 => exact .rests
  case case3 R hrendering hadditions hscan hlocked =>
      exact .goes ht ⟨rfl, fun h => (WorkerThread.sound_scanning h hrendering _).1,
        fun h => (WorkerThread.sound_scanning h hrendering _).2⟩
  case case4 R hrendering hadditions scan' hscan scan hfinished =>
      exact .goes ht ⟨rfl, fun h => (WorkerThread.sound_answer h hrendering _).1,
        fun h => (WorkerThread.sound_answer h hrendering _).2⟩
  case case5 R hrendering hadditions scan' hscan scan hfinished =>
      exact .goes ht ⟨rfl, fun h => (WorkerThread.sound_scanning h hrendering _).1,
        fun h => (WorkerThread.sound_scanning h hrendering _).2⟩
  case case6 => exact .rests

variable (L g) in
lemma moves_step (a : ℕ × ThreadAction) : Moves g (g.step L a).2 := by
  fun_cases step L g a
  case case1 => exact .rests
  case case2 => exact .rests
  case case3 t ht a' ha hrun =>
      simp only [not_or, Bool.not_eq_true, Bool.not_eq_true'] at hrun
      have hown : a'.isOwn = true := by simpa using hrun.2
      have hsound := WorkerThread.sound_run (L := L) hrun.1 g.metrics hown
      exact .goes ht ⟨WorkerThread.tlsWorkerShard_run _ _, fun _ => hsound.1, fun _ => hsound.2⟩
  case case4 t ht ha => exact moves_proceed ht

lemma getElem?_setThreads {i j : ℕ} {t' u : WorkerThread}
    (hu : (g.threads.set i t')[j]? = some u) :
    (j = i ∧ u = t') ∨ (j ≠ i ∧ g.threads[j]? = some u) := by
  rw [List.getElem?_set] at hu
  split_ifs at hu with hij hlt
  · exact .inl ⟨hij.symm, (Option.some.inj hu).symm⟩
  · exact .inr ⟨Ne.symm hij, hu⟩

/-- **What a thread can do.**  It begins with a piece, makes an addition, takes the mutex, goes on
with the loop, or has come to its end. -/
inductive Goes (L : Llhttp) (g : ScrapedGateway) (t : WorkerThread) : WorkerThread → Prop
  | runs (a : SpineAction) : Goes L g t (t.run L g.metrics a)
  | adds {a additions} (hadditions : t.additions = a :: additions) :
      Goes L g t { t with additions := additions }
  | begins {R} (hadditions : t.additions = []) (hrendering : t.rendering = some R)
      (hscan : R.scan = none) :
      Goes L g t (t.scanning R { process := { registry := g.metrics } })
  | reads {R scan} (hrendering : t.rendering = some R) (hscan : R.scan = some scan) :
      Goes L g t (t.scanning R (scanAt g.metrics scan).proceed)
  | answers {R scan} (hrendering : t.rendering = some R) (hscan : R.scan = some scan)
      (hfinished : (scanAt g.metrics scan).finished = true) :
      Goes L g t (t.answer R (scanAt g.metrics scan).text)

lemma goes_proceed {i j : ℕ} {t u : WorkerThread} (ht : g.threads[j]? = some t)
    (hu : (g.proceed j t).threads[i]? = some u) :
    g.threads[i]? = some u ∨ ∃ t, g.threads[i]? = some t ∧ Goes L g t u := by
  revert hu
  fun_cases proceed g j t
  case case2 => exact fun hu => .inl hu
  case case6 => exact fun hu => .inl hu
  all_goals
    intro hu
    rcases getElem?_setThreads hu with ⟨rfl, rfl⟩ | ⟨-, hu⟩
    case inr => exact .inl hu
  case case1.inl c n additions hadditions => exact .inr ⟨t, ht, .adds hadditions⟩
  case case3.inl R hrendering hadditions hscan hlocked =>
      exact .inr ⟨t, ht, .begins hadditions hrendering hscan⟩
  case case4.inl R hrendering hadditions scan' hscan scan hfinished =>
      exact .inr ⟨t, ht, .answers hrendering hscan hfinished⟩
  case case5.inl R hrendering hadditions scan' hscan scan hfinished =>
      exact .inr ⟨t, ht, .reads hrendering hscan⟩

/-- Every thread is where it was, or has gone on. -/
lemma goes_step {a : ℕ × ThreadAction} {i : ℕ} {u : WorkerThread}
    (hu : (g.step L a).2.threads[i]? = some u) :
    g.threads[i]? = some u ∨ ∃ t, g.threads[i]? = some t ∧ Goes L g t u := by
  revert hu
  fun_cases step L g a
  case case1 => exact fun hu => .inl hu
  case case2 => exact fun hu => .inl hu
  case case3 t ht a' ha hrun =>
      intro hu
      rcases getElem?_setThreads hu with ⟨rfl, rfl⟩ | ⟨-, hu⟩
      · exact .inr ⟨t, ht, .runs a'⟩
      · exact .inl hu
  case case4 t ht ha => exact goes_proceed ht

/-! ## Shards and workers -/

/-- The shards are those that were there before and one for each worker, which holds what the worker
has counted. -/
structure Agrees (w : Worker) (n : ℕ) (g : ScrapedGateway) : Prop where
  length_threads : g.threads.length = n
  length_shards : g.metrics.shards.length = w.metrics.shards.length + n
  foreign : ∀ j < w.metrics.shards.length, g.metrics.shards[j]? = w.metrics.shards[j]?
  bound : ∀ (i : ℕ) (t : WorkerThread), g.threads[i]? = some t →
    t.spine.worker.tlsWorkerShard = some (w.metrics.shards.length + i)
  sound : ∀ (i : ℕ) (t : WorkerThread), g.threads[i]? = some t → t.Sound
  agrees : ∀ (i : ℕ) (t : WorkerThread), g.threads[i]? = some t → ∃ shard,
    g.metrics.shards[w.metrics.shards.length + i]? = some (some shard) ∧
      ∀ c : Counter, (c.get shard).toNat ≡ t.counted c [MOD 2 ^ 64]

variable {w : Worker} {n : ℕ}

lemma agrees_new (w : Worker) (n : ℕ) : Agrees w n (new w n) := by
  have hg := Gateway.composed_new (.replay [] []) w n
  have hspine : ∀ (i : ℕ) (t : WorkerThread), (new w n).threads[i]? = some t →
      ∃ s, (Gateway.new w n).spines[i]? = some s ∧ ({ spine := s } : WorkerThread) = t := by
    intro i t ht
    rw [new, List.getElem?_map] at ht
    exact Option.map_eq_some_iff.mp ht
  refine ⟨?_, hg.length_shards, hg.foreign, ?_, ?_, ?_⟩
  · rw [new, List.length_map, hg.length_spines]
  · intro i t ht
    obtain ⟨s, hs, rfl⟩ := hspine i t ht
    exact hg.bound i s hs
  · intro i t ht
    obtain ⟨s, hs, rfl⟩ := hspine i t ht
    exact ⟨fun c => Nat.zero_le _, fun R hR => absurd hR (by simp)⟩
  · intro i t ht
    obtain ⟨s, hs, rfl⟩ := hspine i t ht
    obtain ⟨shard, hshard, hcounted⟩ := hg.exists_shard hs
    refine ⟨shard, hshard, fun c => ?_⟩
    simpa [WorkerThread.counted, WorkerThread.charge] using hcounted c

/-- **The step lemma.** -/
theorem Agrees.moves (h : Agrees w n g) (hmoves : Moves g g') : Agrees w n g' := by
  cases hmoves with
  | rests => exact h
  | @goes i t t' ht hfollows =>
      refine ⟨?_, h.length_shards, h.foreign, ?_, ?_, ?_⟩
      · rw [setThread, List.length_set, h.length_threads]
      · intro j u hu
        rcases getElem?_setThreads hu with ⟨rfl, rfl⟩ | ⟨-, hu⟩
        · rw [hfollows.tlsWorkerShard, h.bound j t ht]
        · exact h.bound j u hu
      · intro j u hu
        rcases getElem?_setThreads hu with ⟨rfl, rfl⟩ | ⟨-, hu⟩
        · exact hfollows.sound (h.sound j t ht)
        · exact h.sound j u hu
      · intro j u hu
        rcases getElem?_setThreads hu with ⟨rfl, rfl⟩ | ⟨-, hu⟩
        · obtain ⟨shard, hshard, hcounted⟩ := h.agrees j t ht
          refine ⟨shard, hshard, fun c => ?_⟩
          rw [hfollows.counted (h.sound j t ht)]
          exact hcounted c
        · exact h.agrees j u hu
  | @adds i t t' c n ht hfollows =>
      have hbound := h.bound i t ht
      rw [hbound]
      refine ⟨?_, ?_, ?_, ?_, ?_, ?_⟩
      · rw [List.length_set, h.length_threads]
      · exact (List.length_modify _ _ _).trans h.length_shards
      · intro j hj
        rw [← h.foreign j hj]
        exact List.getElem?_modify_ne _ _ (by omega)
      · intro j u hu
        rcases getElem?_setThreads hu with ⟨rfl, rfl⟩ | ⟨-, hu⟩
        · rw [hfollows.tlsWorkerShard, hbound]
        · exact h.bound j u hu
      · intro j u hu
        rcases getElem?_setThreads hu with ⟨rfl, rfl⟩ | ⟨-, hu⟩
        · exact hfollows.sound (h.sound j t ht)
        · exact h.sound j u hu
      · intro j u hu
        rcases getElem?_setThreads hu with ⟨rfl, rfl⟩ | ⟨hji, hu⟩
        · obtain ⟨shard, hshard, hcounted⟩ := h.agrees j t ht
          refine ⟨c.add n shard, ?_, fun c' => ?_⟩
          · simp [MetricsRegistry.onShard, List.getElem?_modify_eq, hshard]
          · rw [hfollows.counted (h.sound j t ht), c'.get_add, UInt64.toNat_add]
            refine (Nat.mod_modEq _ _).trans ((hcounted c').add ?_)
            split_ifs <;> rfl
        · obtain ⟨shard, hshard, hcounted⟩ := h.agrees j u hu
          refine ⟨shard, ?_, hcounted⟩
          rw [← hshard]
          exact List.getElem?_modify_ne _ _ (by omega)

lemma reached_concat (actions : List (ℕ × ThreadAction)) (a : ℕ × ThreadAction) :
    reached L w n (actions ++ [a]) = ((reached L w n actions).step L a).2 :=
  final_concat _ actions a

variable (L w n) in
/-- **Shards and workers agree** in every state. -/
theorem agrees_reached (actions : List (ℕ × ThreadAction)) :
    Agrees w n (reached L w n actions) := by
  induction actions using List.reverseRecOn with
  | nil => exact agrees_new w n
  | append_singleton actions a ih =>
      rw [reached_concat]
      exact ih.moves (moves_step L _ a)

/-! ## What has been counted in a place of the registry -/

/-- What a shard has counted; that of a worker, without a bound. -/
def counts (w : Worker) (g : ScrapedGateway) (c : Counter) (j : ℕ) : ℕ :=
  if j < w.metrics.shards.length then
    (w.metrics.shards[j]?.join.map fun shard => (c.get shard).toNat).getD 0
  else
    (g.threads[j - w.metrics.shards.length]?.map (WorkerThread.counted c)).getD 0

/-- **The registry shows the counts**, modulo the width of the counters. -/
lemma Agrees.cell_modEq (h : Agrees w n g) (c : Counter) (j : ℕ) :
    MetricsProcess.cell { registry := g.metrics } c j ≡ g.counts w c j [MOD 2 ^ 64] := by
  rw [MetricsProcess.cell, counts]
  split_ifs with hj
  · rw [h.foreign j hj]
  · obtain ⟨i, rfl⟩ := Nat.exists_eq_add_of_le (not_lt.mp hj)
    rw [Nat.add_sub_cancel_left]
    cases ht : g.threads[i]? with
    | none =>
        have hlen := List.getElem?_eq_none_iff.mp ht
        have hnone : g.metrics.shards[w.metrics.shards.length + i]? = none := by
          rw [List.getElem?_eq_none_iff, h.length_shards, ← h.length_threads]
          omega
        rw [hnone]
        rfl
    | some t =>
        obtain ⟨shard, hshard, hcounted⟩ := h.agrees i t ht
        rw [hshard]
        exact hcounted c

/-- **Nobody counts back.** -/
lemma Agrees.counts_le (h : Agrees w n g) (hmoves : Moves g g') (c : Counter) (j : ℕ) :
    g.counts w c j ≤ g'.counts w c j := by
  have hthread : ∀ {i : ℕ} {t t' : WorkerThread} {amount : Counter → ℕ},
      g.threads[i]? = some t → Follows t t' amount → ∀ k : ℕ,
        (g.threads[k]?.map (WorkerThread.counted c)).getD 0
          ≤ ((g.threads.set i t')[k]?.map (WorkerThread.counted c)).getD 0 := by
    intro i t t' amount ht hfollows k
    by_cases hk : i = k
    · subst hk
      rw [List.getElem?_set_self (List.getElem?_eq_some_iff.mp ht).1, ht]
      have hcounted := hfollows.counted (h.sound i t ht) c
      simp only [Option.map_some, Option.getD_some]
      omega
    · rw [List.getElem?_set_ne hk]
  rw [counts, counts]
  split_ifs
  · exact le_rfl
  · cases hmoves with
    | rests => exact le_rfl
    | goes ht hfollows => exact hthread ht hfollows _
    | adds ht hfollows => exact hthread ht hfollows _

/-- The sum over the registry: the shards that were there before, and those of the workers. -/
lemma Agrees.sum_counts (h : Agrees w n g) (c : Counter) :
    ∑ j ∈ Finset.range (w.metrics.shards.length + n), g.counts w c j
      = (w.metrics.shards.reduceOption.map fun shard => (c.get shard).toNat).sum
        + (g.threads.map (WorkerThread.counted c)).sum := by
  have hthreads := Ledger.sum_reduceOption (WorkerThread.counted c) (g.threads.map some)
  simp only [List.reduceOption, List.filterMap_map, Function.comp_def, id_eq,
    List.filterMap_some, List.length_map, List.getElem?_map] at hthreads
  rw [Finset.sum_range_add, Ledger.sum_reduceOption, hthreads, h.length_threads]
  congr 1
  · refine Finset.sum_congr rfl fun j hj => ?_
    rw [counts, if_pos (Finset.mem_range.mp hj)]
  · refine Finset.sum_congr rfl fun i hi => ?_
    rw [counts, if_neg (by omega), Nat.add_sub_cancel_left]
    cases g.threads[i]? <;> rfl

/-! ## A piece that nothing comes between -/

/-- A step of a worker makes the record that it puts out. -/
lemma metrics_step (s : RuntimeSpine) {a : SpineAction} (ha : a.isOwn = true) :
    (s.step L a).2.worker.metrics
      = ((s.step L a).1.map fun r => r.2.call s.worker.metrics s.worker.tlsWorkerShard).getD
          s.worker.metrics := by
  cases a with
  | stop => rfl
  | acceptFails aborted =>
      simp only [RuntimeSpine.step]
      split_ifs <;> rfl
  | accept socketOnExecutor =>
      simp only [RuntimeSpine.step]
      split_ifs <;> rfl
  | handle k wakeup =>
      cases hk : s.connections[k]? with
      | none => simp only [RuntimeSpine.step, hk, Option.map_none, Option.getD_none]
      | some phase =>
          simp only [RuntimeSpine.step, hk]
          fun_cases advance L s.worker phase wakeup
          case case5 w' _ _ => simp [w', Worker.recordRequest_eq, Worker.record]
          case case9 => simp [Worker.recordResponse_eq, Worker.record]
          all_goals rfl
  | reloadRouteConfig snapshot => rfl
  | elsewhere metrics => exact absurd ha (by simp [SpineAction.isOwn])

lemma onShard_onShard (metrics : MetricsRegistry) (tlsWorkerShard : Option ℕ)
    (f f' : WorkerMetricsShard → WorkerMetricsShard) :
    (metrics.onShard tlsWorkerShard f).onShard tlsWorkerShard f'
      = metrics.onShard tlsWorkerShard (f' ∘ f) := by
  cases tlsWorkerShard with
  | none => rfl
  | some i => simp [MetricsRegistry.onShard, List.modify_modify_eq, Option.map_comp_map]

lemma onShard_self (metrics : MetricsRegistry) (tlsWorkerShard : Option ℕ) :
    metrics.onShard tlsWorkerShard (fun shard => shard) = metrics := by
  have hmap : Option.map (fun shard : WorkerMetricsShard => shard) = id := Option.map_id
  cases tlsWorkerShard with
  | none => rfl
  | some i => simp [MetricsRegistry.onShard, hmap]

/-- The additions of a record make it. -/
lemma onShard_additions (metrics : MetricsRegistry) (tlsWorkerShard : Option ℕ)
    (record : Option (ℕ × MetricsRecord)) :
    metrics.onShard tlsWorkerShard (fun shard =>
        ((record.map fun r => r.2.additions).getD []).foldl (fun shard a => a.1.add a.2 shard)
          shard)
      = (record.map fun r => r.2.call metrics tlsWorkerShard).getD metrics := by
  cases record with
  | none => exact onShard_self metrics tlsWorkerShard
  | some r =>
      simp only [Option.map_some, Option.getD_some, MetricsRecord.foldl_additions,
        MetricsRecord.call_eq]

/-- The step of a worker that reads a request for `/metrics`. -/
lemma step_of_scrapes {s : RuntimeSpine} {a : SpineAction} {k : ℕ} {requestView : ByteString}
    (h : scrapes L s a = some (k, requestView)) (metrics : MetricsRegistry) :
    (s.sync metrics).step L a
      = let w := (s.sync metrics).worker.recordRequest requestView.length
        (some (k, .request requestView.length.toUInt64),
          { s.sync metrics with
            worker := w
            connections := s.connections.set k
              (.posted requestView (metricsBuilt w.metrics.renderPrometheus)) }) := by
  obtain ⟨arrivals, rfl, hreading, hread, rfl, hparse, hget, htarget⟩ :=
    WorkerThread.scrapes_eq_some h
  have hreading' : (s.sync metrics).connections[k]? = some .reading := hreading
  have hbuild : ∀ w : Worker, w.build L (asyncReadSome arrivals).2.1
      = metricsBuilt w.metrics.renderPrometheus := by
    intro w
    simp only [parsed] at hparse hget htarget
    simp [Worker.build, Worker.respond, Worker.dispatch, hparse, hget, htarget, metricsBuilt,
      metricsResponse]
  have hupstream : ∀ w : Worker, w.callsUpstream L (asyncReadSome arrivals).2.1 = false := by
    intro w
    simp only [parsed] at htarget
    simp [Worker.callsUpstream, htarget]
  simp only [RuntimeSpine.step, hreading', advance, hread, if_false, hbuild, hupstream,
    Bool.false_eq_true]
  rfl

lemma set_of_getElem? {α : Type} {l : List α} {i : ℕ} {x : α} (hx : l[i]? = some x) :
    l.set i x = l := by
  obtain ⟨hlt, rfl⟩ := List.getElem?_eq_some_iff.mp hx
  exact List.set_getElem_self hlt

lemma step_proceed {i : ℕ} {t : WorkerThread} (ht : g.threads[i]? = some t) :
    (step L g (i, .proceed)).2 = g.proceed i t := by
  rw [step, ht]

/-- The additions of a thread, one after the other. -/
lemma final_additions {i : ℕ} {t : WorkerThread} (ht : g.threads[i]? = some t) :
    final (step L) g (List.replicate t.additions.length (i, .proceed))
      = { metrics := g.metrics.onShard t.spine.worker.tlsWorkerShard fun shard =>
            t.additions.foldl (fun shard a => a.1.add a.2 shard) shard
          threads := g.threads.set i { t with additions := [] } } := by
  obtain ⟨spine, additions, rendering⟩ := t
  have hlt := (List.getElem?_eq_some_iff.mp ht).1
  induction additions generalizing g with
  | nil =>
      have hid := onShard_self g.metrics spine.worker.tlsWorkerShard
      have hset : g.threads.set i ⟨spine, [], rendering⟩ = g.threads := set_of_getElem? ht
      simp only [List.length_nil, List.replicate_zero, final, List.foldl_nil, hid, hset]
  | cons a additions ih =>
      obtain ⟨c, n⟩ := a
      have hstep : (step L g (i, .proceed)).2
          = { metrics := g.metrics.onShard spine.worker.tlsWorkerShard (c.add n)
              threads := g.threads.set i ⟨spine, additions, rendering⟩ } :=
        step_proceed ht
      rw [List.length_cons, List.replicate_succ, final, hstep]
      rw [ih (List.getElem?_set_self hlt) (by simpa using hlt), onShard_onShard, List.set_set]
      rfl

@[simp] lemma setThread_setThread (g : ScrapedGateway) (i : ℕ) (t t' : WorkerThread) :
    (g.setThread i t).setThread i t' = g.setThread i t' := by
  rw [setThread, setThread, setThread, List.set_set]

lemma proceed_scanning {t : WorkerThread} (hadditions : t.additions = []) (R : Rendering)
    {scan : Scan} (hat : scan.process.registry = g.metrics) (i : ℕ) :
    (g.setThread i (t.scanning R scan)).proceed i (t.scanning R scan)
      = if scan.finished then g.setThread i (t.answer R scan.text)
        else g.setThread i (t.scanning R scan.proceed) := by
  have hmetrics : (g.setThread i (t.scanning R scan)).metrics = g.metrics := rfl
  have hnext : ∀ t', (g.setThread i (t.scanning R scan)).setThread i t' = g.setThread i t' :=
    g.setThread_setThread i _
  obtain ⟨spine, additions, rendering⟩ := t
  subst hadditions
  rw [proceed]
  simp only [WorkerThread.scanning] at hmetrics hnext ⊢
  simp only [hmetrics, hnext, scanAt_self hat]
  rfl

/-- The scan of a thread, as long as it has not ended. -/
lemma final_scan {i : ℕ} {t : WorkerThread} {R : Rendering}
    (ht : g.threads[i]? = some (t.scanning R { process := { registry := g.metrics } }))
    (hadditions : t.additions = []) {m : ℕ}
    (hscan : ∀ l < m, ¬(Scan.reached { registry := g.metrics }
      (List.replicate l .proceed)).finished = true) :
    final (step L) g (List.replicate m (i, .proceed))
      = g.setThread i
        (t.scanning R (Scan.reached { registry := g.metrics } (List.replicate m .proceed))) := by
  have hlt := (List.getElem?_eq_some_iff.mp ht).1
  induction m with
  | zero => exact congrArg (ScrapedGateway.mk g.metrics) (set_of_getElem? ht).symm
  | succ m ih =>
      have hnext : Scan.reached { registry := g.metrics } (List.replicate (m + 1) .proceed)
          = (Scan.reached { registry := g.metrics } (List.replicate m .proceed)).proceed := by
        rw [Scan.reached, List.replicate_succ', final_concat]
        rfl
      have hat : (Scan.reached { registry := g.metrics }
          (List.replicate m .proceed)).process.registry = g.metrics :=
        congrArg MetricsProcess.registry (Scan.alone_reached { registry := g.metrics } m).process_eq
      rw [List.replicate_succ', final_concat, ih fun l hl => hscan l (by omega), hnext]
      have hgoes := hscan m (Nat.lt_succ_self m)
      generalize Scan.reached { registry := g.metrics } (List.replicate m .proceed) = scan
        at hat hgoes ⊢
      have hself : (g.setThread i (t.scanning R scan)).threads[i]? = some (t.scanning R scan) :=
        List.getElem?_set_self hlt
      rw [step_proceed hself, proceed_scanning hadditions R hat, if_neg hgoes]

/-- A rendering that nothing comes between, from the lock to the response. -/
lemma final_rendering {i : ℕ} {t : WorkerThread} {R : Rendering} (ht : g.threads[i]? = some t)
    (hadditions : t.additions = []) (hR : t.rendering = some R) (hscan : R.scan = none)
    (hlocked : g.locked = false) :
    ∃ m, final (step L) g (List.replicate m (i, .proceed))
      = g.setThread i (t.answer R g.metrics.renderPrometheus) := by
  have hlt := (List.getElem?_eq_some_iff.mp ht).1
  have hlock : g.proceed i t
      = g.setThread i (t.scanning R { process := { registry := g.metrics } }) := by
    simp [proceed, hadditions, hR, hscan, hlocked]
  obtain ⟨m, hfinished, hbefore⟩ := Scan.exists_finished_alone { registry := g.metrics }
  have hself : ∀ t', (g.setThread i t').threads[i]? = some t' :=
    fun t' => List.getElem?_set_self hlt
  have hloop : final (step L)
      (g.setThread i (t.scanning R { process := { registry := g.metrics } }))
      (List.replicate m (i, .proceed))
      = g.setThread i
        (t.scanning R (Scan.reached { registry := g.metrics } (List.replicate m .proceed))) :=
    (final_scan (g := g.setThread i (t.scanning R { process := { registry := g.metrics } }))
      (hself _) hadditions hbefore).trans (g.setThread_setThread i _ _)
  have htext := Scan.text_alone { registry := g.metrics } hfinished
  have hregistry : _ = g.metrics := congrArg MetricsProcess.registry
    (Scan.alone_reached { registry := g.metrics } m).process_eq
  generalize Scan.reached { registry := g.metrics } (List.replicate m .proceed) = scan
    at hfinished hloop htext hregistry
  refine ⟨1 + m + 1, ?_⟩
  rw [List.replicate_succ', final_concat, List.replicate_add, final_append, List.replicate_one,
    final, final, step_proceed ht, hlock, hloop, step_proceed (hself _),
    proceed_scanning hadditions R hregistry, if_pos hfinished, htext]

/-- A piece that does not scrape: its additions, one after the other. -/
lemma final_run_of_not_scrapes {i : ℕ} {t : WorkerThread} {a : SpineAction}
    (ht : g.threads[i]? = some t) (hbusy : t.busy = false) (ha : a.isOwn = true)
    (hscrapes : scrapes L t.spine a = none) :
    final (step L) g
        ((i, .run a) :: List.replicate (t.run L g.metrics a).additions.length (i, .proceed))
      = { metrics := ((t.spine.sync g.metrics).step L a).2.worker.metrics
          threads := g.threads.set i { t.run L g.metrics a with additions := [] } } := by
  have hlt := (List.getElem?_eq_some_iff.mp ht).1
  have hrun : (step L g (i, .run a)).2 = g.setThread i (t.run L g.metrics a) := by
    simp [step, ht, hbusy, ha]
  have hthread : (g.setThread i (t.run L g.metrics a)).threads[i]?
      = some (t.run L g.metrics a) := List.getElem?_set_self hlt
  rw [final, hrun, final_additions hthread, metrics_step (t.spine.sync g.metrics) ha,
    WorkerThread.tlsWorkerShard_run, WorkerThread.run_of_not_scrapes hscrapes, setThread,
    List.set_set]
  exact congrArg (ScrapedGateway.mk · _) (onShard_additions _ _ _)

/-- A read of a request for `/metrics`: the record of the request, and then a rendering. -/
lemma final_run_of_scrapes {i k : ℕ} {t : WorkerThread} {a : SpineAction}
    {requestView : ByteString} (ht : g.threads[i]? = some t) (hbusy : t.busy = false)
    (ha : a.isOwn = true) (hlocked : g.locked = false)
    (hscrapes : scrapes L t.spine a = some (k, requestView)) {metrics : MetricsRegistry}
    (hmetrics : metrics
      = ((t.spine.sync g.metrics).worker.recordRequest requestView.length).metrics)
    {R : Rendering} (hR : R = { connection := k, requestView := requestView }) :
    ∃ m, final (step L) g ((i, .run a) :: List.replicate m (i, .proceed))
      = { metrics := metrics
          threads := g.threads.set i
            (WorkerThread.answer { spine := t.spine, rendering := some R } R
              metrics.renderPrometheus) } := by
  have hlt := (List.getElem?_eq_some_iff.mp ht).1
  obtain ⟨u, hu⟩ : ∃ u : WorkerThread, u = { spine := t.spine, rendering := some R } := ⟨_, rfl⟩
  obtain ⟨additions, hrecord⟩ : ∃ additions, additions
      = MetricsRecord.additions (.request requestView.length.toUInt64) := ⟨_, rfl⟩
  have hrun : (step L g (i, .run a)).2 = g.setThread i { u with additions := additions } := by
    simp [step, ht, hbusy, ha, WorkerThread.run_of_scrapes hscrapes, hu, hR, hrecord]
  have hadded : g.metrics.onShard t.spine.worker.tlsWorkerShard (fun shard =>
      additions.foldl (fun shard a => a.1.add a.2 shard) shard) = metrics := by
    rw [hrecord, hmetrics, Worker.recordRequest_eq]
    exact onShard_additions _ _ (some (k, .request requestView.length.toUInt64))
  have hcounted : final (step L) (g.setThread i { u with additions := additions })
      (List.replicate additions.length (i, .proceed)) = ⟨metrics, g.threads.set i u⟩ := by
    have hfinal := final_additions (L := L)
      (g := g.setThread i { u with additions := additions }) (List.getElem?_set_self hlt)
    simp only [setThread, List.set_set, hu, hadded] at hfinal ⊢
    exact hfinal
  have hfree : (ScrapedGateway.mk metrics (g.threads.set i u)).locked = false := by
    rw [locked, List.any_eq_false] at hlocked ⊢
    intro v hv
    rcases List.mem_or_eq_of_mem_set hv with hv | rfl
    · exact hlocked v hv
    · simp [hu, hR]
  obtain ⟨m, hrendered⟩ := final_rendering (L := L) (g := ⟨metrics, g.threads.set i u⟩)
    (List.getElem?_set_self hlt) (by rw [hu]) (by rw [hu]) (by rw [hR]) hfree
  refine ⟨additions.length + m, ?_⟩
  rw [final, hrun, List.replicate_add, final_append, hcounted, hrendered, setThread,
    List.set_set, hu]

/-- **A piece that nothing comes between** is a step of the worker in `Gateway.lean`: it leaves the
same registry and the same worker behind, and the other threads where they were. -/
theorem run_alone {i : ℕ} {t : WorkerThread} {a : SpineAction} (ht : g.threads[i]? = some t)
    (hbusy : t.busy = false) (ha : a.isOwn = true) (hlocked : g.locked = false) :
    ∃ m t', final (step L) g ((i, .run a) :: List.replicate m (i, .proceed))
        = { metrics := ((t.spine.sync g.metrics).step L a).2.worker.metrics
            threads := g.threads.set i t' } ∧
      t'.busy = false ∧
      t'.spine.sync ((t.spine.sync g.metrics).step L a).2.worker.metrics
        = ((t.spine.sync g.metrics).step L a).2 := by
  obtain ⟨hadditions, hrendering⟩ := WorkerThread.not_busy_iff.mp hbusy
  cases hscrapes : scrapes L t.spine a with
  | none =>
      refine ⟨_, _, final_run_of_not_scrapes ht hbusy ha hscrapes, ?_, ?_⟩
      · rw [WorkerThread.run_of_not_scrapes hscrapes, WorkerThread.not_busy_iff]
        exact ⟨rfl, hrendering⟩
      · rw [WorkerThread.run_of_not_scrapes hscrapes]
        exact RuntimeSpine.sync_self _
  | some request =>
      obtain ⟨m, hfinal⟩ := final_run_of_scrapes ht hbusy ha hlocked hscrapes rfl rfl
      rw [step_of_scrapes hscrapes]
      exact ⟨m, _, hfinal, rfl, rfl⟩

end ScrapedGateway

end Netp2.Runtime
