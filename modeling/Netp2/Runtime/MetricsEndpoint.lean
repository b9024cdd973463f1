import Netp2.Observability.Rendering
import Netp2.Runtime.Framing
import Netp2.Runtime.Scraping

/-!
# What `/metrics` tells a scraper

A request for `/metrics` is answered by the worker that happens to accept it, with totals over all
workers.  These go on counting while their shards are read.  A scraper takes the response apart and
reads the samples from its body.

`scraped_totals` follows a sample all the way: whatever the workers do, and whatever comes between
the operations of the rendering, what a scraper reads is at least what all workers had counted when
the rendering began, the scraper's own request included, and no more than what they had counted when
it ended.
-/

namespace Netp2.Runtime

open ByteString Exposition Lines RacySum StepRun Netp2.Observability Netp2.Protocol

/-! ## The scraper -/

/-- The samples of a response, if its status is 200 and its length is right. -/
def scrapeResponse (payload : ByteString) : Option (List (ByteString × ℕ)) :=
  (cutAt (crlf ++ crlf) payload).bind fun p =>
    if (lines p.1).head?.bind decodeStatusLine = some (200, ascii "OK") ∧
        ((lines p.1).filterMap (fieldValue (ascii "content-length"))).map decimalValue
          = [p.2.length] then
      some (scrape p.2)
    else none

/-- **A scraper reads the body.** -/
lemma scrapeResponse_metricsResponse (body : ByteString) :
    scrapeResponse (metricsResponse body).payload = some (scrape body) := by
  have hreason : OneLine (metricsResponse body).reason := by
    show OneLine (ascii "OK")
    decide
  have hcontentType : OneLine (metricsResponse body).contentType := by
    show OneLine (ascii "text/plain; version=0.0.4; charset=utf-8")
    decide
  rw [payload_eq, scrapeResponse, cutAt_buildHttpResponse hreason hcontentType, Option.bind_some,
    lines_headLines hreason hcontentType, contentLength_headLines, if_pos]
  · rfl
  · exact ⟨decodeStatusLine_status 200 (ascii "OK"), by simp [decimalValue_decimal]⟩

/-! ## A scan of the registry -/

namespace ScrapedGateway

variable {L : Llhttp} {w : Worker} {n : ℕ} {g g' g₀ : ScrapedGateway} {scan : Scan}

/-- No shard is let go of. -/
lemma Agrees.live (h : Agrees w n g) (h' : Agrees w n g') {j : ℕ} {shard : WorkerMetricsShard}
    (hj : g.metrics.shards[j]? = some (some shard)) :
    ∃ shard', g'.metrics.shards[j]? = some (some shard') := by
  by_cases hlt : j < w.metrics.shards.length
  · exact ⟨shard, by rw [h'.foreign j hlt, ← h.foreign j hlt, hj]⟩
  · obtain ⟨i, rfl⟩ := Nat.exists_eq_add_of_le (not_lt.mp hlt)
    have hi := (List.getElem?_eq_some_iff.mp hj).1
    rw [h.length_shards, ← h'.length_threads] at hi
    obtain ⟨shard', hshard', -⟩ := h'.agrees i _ (List.getElem?_eq_getElem (by omega))
    exact ⟨shard', hshard'⟩

/-- A scan that began in `g₀` has come this far: what it has read of a counter is between what there
was and what there is. -/
structure Reads (w : Worker) (g₀ g : ScrapedGateway) (scan : Scan) : Prop where
  sound : (scanAt g.metrics scan).Sound
  between : ∀ c : Counter, ∃ total, (scan.totals c).toNat ≡ total [MOD 2 ^ 64] ∧
    Between (g₀.counts w c) (g.counts w c) (scan.done c) total

lemma reads_begin (w : Worker) (g : ScrapedGateway) :
    Reads w g g { process := { registry := g.metrics } } where
  sound := ⟨Nat.zero_le _, List.nodup_nil, fun h => absurd rfl h⟩
  between _ := ⟨0, rfl, between_nothing _⟩

/-- Others may go on. -/
lemma Reads.moves (h : Reads w g₀ g scan) (hg : Agrees w n g) (hmoves : Moves g g') :
    Reads w g₀ g' scan := by
  have hg' := hg.moves hmoves
  refine ⟨⟨?_, h.sound.nodup, fun hloads => ?_⟩, fun c => ?_⟩
  · have hle : scan.index ≤ g.metrics.shards.length := h.sound.index_le
    rw [hg.length_shards, ← hg'.length_shards] at hle
    exact hle
  · obtain ⟨shard, hshard⟩ := h.sound.held hloads
    exact hg.live hg' hshard
  · obtain ⟨total, htotal, hbetween⟩ := h.between c
    exact ⟨total, htotal, hbetween.grow (hg.counts_le hmoves c)⟩

/-- The loop goes on. -/
lemma Reads.proceed (h : Reads w g₀ g scan) (hg : Agrees w n g) :
    Reads w g₀ g (scanAt g.metrics scan).proceed := by
  refine ⟨?_, fun c => ?_⟩
  · have hregistry : (scanAt g.metrics scan).proceed.process.registry = g.metrics :=
      congrArg MetricsProcess.registry (scanAt g.metrics scan).proceed_process
    rw [scanAt_self hregistry]
    exact h.sound.proceed
  · obtain ⟨total, htotal, hbetween⟩ := h.between c
    rcases ((scanAt g.metrics scan).proceeds h.sound).reads h.sound c with
      ⟨hdone, htotals⟩ | ⟨hdone, htotals⟩
    · exact ⟨total, by rw [htotals]; exact htotal, by rw [hdone]; exact hbetween⟩
    · refine ⟨total + g.counts w c (scan.done c), ?_, by rw [hdone]; exact hbetween.read⟩
      rw [htotals]
      exact (Nat.mod_modEq _ _).trans (htotal.add (hg.cell_modEq c (scan.done c)))

/-- **When everything has been read**, the sum is between the sums. -/
lemma Reads.totals (h : Reads w g₀ g scan) (hg : Agrees w n g)
    (hfinished : (scanAt g.metrics scan).finished = true) (c : Counter) :
    ∃ total, (scan.totals c).toNat ≡ total [MOD 2 ^ 64] ∧
      ∑ j ∈ Finset.range (w.metrics.shards.length + n), g₀.counts w c j ≤ total ∧
      total ≤ ∑ j ∈ Finset.range (w.metrics.shards.length + n), g.counts w c j := by
  simp only [Scan.finished, decide_eq_true_eq] at hfinished
  have hdone : scan.done c = w.metrics.shards.length + n := by
    rw [← hg.length_shards, Scan.done, if_pos (.inl hfinished.1)]
    exact le_antisymm h.sound.index_le hfinished.2
  obtain ⟨total, htotal, hbetween⟩ := h.between c
  rw [hdone] at hbetween
  exact ⟨total, htotal, hbetween.lower, hbetween.upper⟩

/-! ## One step -/

/-- The thread has counted the request, and waits for the mutex to render the answer. -/
def Waits (g : ScrapedGateway) (i k : ℕ) (view : ByteString) : Prop :=
  ∃ t, g.threads[i]? = some t ∧ t.additions = [] ∧
    t.rendering = some { connection := k, requestView := view }

/-- The thread is reading the registry for this request. -/
def Renders (g : ScrapedGateway) (i k : ℕ) (view : ByteString) (scan : Scan) : Prop :=
  ∃ t, g.threads[i]? = some t ∧
    t.rendering = some { connection := k, requestView := view, scan := some scan }

/-- The request has this response. -/
def Responds (g : ScrapedGateway) (i k : ℕ) (view : ByteString) (r : Response) : Prop :=
  ∃ t, g.threads[i]? = some t ∧ t.spine.requestOf k = some view ∧ t.spine.responseOf k = some r

variable {i k : ℕ} {view : ByteString} {r : Response}

lemma rendering_run {t : WorkerThread} {metrics : MetricsRegistry} {a : SpineAction}
    (h : (t.run L metrics a).rendering
      = some { connection := k, requestView := view, scan := some scan }) :
    t.rendering = some { connection := k, requestView := view, scan := some scan } := by
  cases hscrapes : scrapes L t.spine a with
  | some request =>
      rw [WorkerThread.run_of_scrapes hscrapes] at h
      exact absurd (congrArg Rendering.scan (Option.some.inj h)) (by simp)
  | none =>
      rw [WorkerThread.run_of_not_scrapes hscrapes] at h
      exact h

/-- **What one step can do to a scan.**  It was there before, or it begins, or it goes on. -/
lemma renders_step {a : ℕ × ThreadAction} (h : Renders (g.step L a).2 i k view scan) :
    Renders g i k view scan ∨
      (Waits g i k view ∧ scan = { process := { registry := g.metrics } }) ∨
      ∃ scan', Renders g i k view scan' ∧ scan = (scanAt g.metrics scan').proceed := by
  obtain ⟨u, hu, hrenders⟩ := h
  rcases goes_step hu with hu | ⟨t, ht, hgoes⟩
  · exact .inl ⟨u, hu, hrenders⟩
  cases hgoes with
  | runs a => exact .inl ⟨t, ht, rendering_run hrenders⟩
  | adds hadditions => exact .inl ⟨t, ht, hrenders⟩
  | begins hadditions hrendering hscan =>
      obtain ⟨rfl, rfl, hbegin⟩ := Rendering.mk.inj (Option.some.inj hrenders)
      refine .inr (.inl ⟨⟨t, ht, hadditions, ?_⟩, (Option.some.inj hbegin).symm⟩)
      rw [hrendering, ← hscan]
  | @reads R scan' hrendering hscan =>
      obtain ⟨rfl, rfl, hnext⟩ := Rendering.mk.inj (Option.some.inj hrenders)
      refine .inr (.inr ⟨scan', ⟨t, ht, ?_⟩, (Option.some.inj hnext).symm⟩)
      rw [hrendering, ← hscan]
  | answers hrendering hscan hfinished =>
      exact absurd hrenders (by simp [WorkerThread.answer])

/-- A piece that is not for `/metrics` builds no response to a request for it. -/
lemma responds_run {t : WorkerThread} {metrics : MetricsRegistry} {a : SpineAction}
    (hasks : AsksMetrics L view) (hview : (t.run L metrics a).spine.requestOf k = some view)
    (hresponse : (t.run L metrics a).spine.responseOf k = some r) :
    t.spine.requestOf k = some view ∧ t.spine.responseOf k = some r := by
  cases hscrapes : scrapes L t.spine a with
  | some request =>
      rw [WorkerThread.run_of_scrapes hscrapes] at hview hresponse
      exact ⟨hview, hresponse⟩
  | none =>
      rw [WorkerThread.run_of_not_scrapes hscrapes] at hview hresponse
      obtain ⟨phase, hk, hphase⟩ := Option.bind_eq_some_iff.mp hview
      rw [RuntimeSpine.responseOf, hk, Option.bind_some] at hresponse
      rcases RuntimeSpine.answers_step (t.spine.sync metrics) a hk hphase with
        ⟨old, hold, hview, hbuilt⟩ | ⟨arrivals, rfl, hreading, hread, rfl, -⟩
      · have hold' : t.spine.connections[k]? = some old := hold
        exact ⟨by rw [RuntimeSpine.requestOf, hold', Option.bind_some, hview],
          by rw [RuntimeSpine.responseOf, hold', Option.bind_some, hbuilt r hresponse]⟩
      · -- such a read is a scrape
        have hreading' : t.spine.connections[k]? = some .reading := hreading
        simp [scrapes, hreading', hread, hasks] at hscrapes

lemma responds_answer {t : WorkerThread} {R : Rendering} {body : ByteString}
    (hview : (t.answer R body).spine.requestOf R.connection = some view)
    (hresponse : (t.answer R body).spine.responseOf R.connection = some r) :
    R.requestView = view ∧ metricsResponse body = r := by
  obtain ⟨phase, hk, hphase⟩ := Option.bind_eq_some_iff.mp hview
  rw [RuntimeSpine.responseOf, hk, Option.bind_some] at hresponse
  obtain rfl : phase = .posted R.requestView (metricsBuilt body) := by
    simp only [WorkerThread.answer, List.getElem?_set, if_true] at hk
    split_ifs at hk
    exact (Option.some.inj hk).symm
  exact ⟨Option.some.inj hphase, Option.some.inj hresponse⟩

/-- **What one step can do to an answer.**  It was there before, or its scan has ended. -/
lemma responds_step {a : ℕ × ThreadAction} (hasks : AsksMetrics L view)
    (h : Responds (g.step L a).2 i k view r) :
    Responds g i k view r ∨
      ∃ scan, Renders g i k view scan ∧ (scanAt g.metrics scan).finished = true ∧
        r = metricsResponse (scanAt g.metrics scan).text := by
  obtain ⟨u, hu, hview, hresponse⟩ := h
  rcases goes_step hu with hu | ⟨t, ht, hgoes⟩
  · exact .inl ⟨u, hu, hview, hresponse⟩
  cases hgoes with
  | runs a => exact .inl ⟨t, ht, responds_run hasks hview hresponse⟩
  | adds hadditions => exact .inl ⟨t, ht, hview, hresponse⟩
  | begins hadditions hrendering hscan => exact .inl ⟨t, ht, hview, hresponse⟩
  | reads hrendering hscan => exact .inl ⟨t, ht, hview, hresponse⟩
  | @answers R scan' hrendering hscan hfinished =>
      by_cases hk : R.connection = k
      · subst hk
        obtain ⟨rfl, rfl⟩ := responds_answer hview hresponse
        refine .inr ⟨scan', ⟨t, ht, ?_⟩, hfinished, rfl⟩
        rw [hrendering, ← hscan]
      · refine .inl ⟨t, ht, ?_, ?_⟩
        · simpa [WorkerThread.answer, RuntimeSpine.requestOf, List.getElem?_set_ne hk]
            using hview
        · simpa [WorkerThread.answer, RuntimeSpine.responseOf, List.getElem?_set_ne hk]
            using hresponse

/-! ## A run -/

lemma threads_new {t : WorkerThread} (ht : (new w n).threads[i]? = some t) :
    t.spine.connections = [] ∧ t.rendering = none := by
  rw [new, (Gateway.new_eq w n).2, List.getElem?_map, List.getElem?_map] at ht
  obtain ⟨s, hs, rfl⟩ := Option.map_eq_some_iff.mp ht
  obtain ⟨j, -, rfl⟩ := Option.map_eq_some_iff.mp hs
  exact ⟨rfl, rfl⟩

/-- Every scan began when the request had been counted. -/
theorem exists_begun {actions : List (ℕ × ThreadAction)}
    (h : Renders (reached L w n actions) i k view scan) :
    ∃ before during, actions = before ++ during ∧ Waits (reached L w n before) i k view ∧
      Reads w (reached L w n before) (reached L w n actions) scan := by
  induction actions using List.reverseRecOn generalizing scan with
  | nil =>
      obtain ⟨t, ht, hrenders⟩ := h
      rw [(threads_new ht).2] at hrenders
      exact absurd hrenders (by simp)
  | append_singleton actions a ih =>
      have hg := agrees_reached L w n actions
      have hmoves := moves_step L (reached L w n actions) a
      rw [reached_concat] at h ⊢
      rcases renders_step h with h | ⟨hwaits, rfl⟩ | ⟨scan', h', rfl⟩
      · obtain ⟨before, during, rfl, hwaits, hreads⟩ := ih h
        exact ⟨before, during ++ [a], by simp, hwaits, hreads.moves hg hmoves⟩
      · exact ⟨actions, [a], rfl, hwaits, (reads_begin w _).moves hg hmoves⟩
      · obtain ⟨before, during, rfl, hwaits, hreads⟩ := ih h'
        exact ⟨before, during ++ [a], by simp, hwaits, (hreads.proceed hg).moves hg hmoves⟩

/-- The totals are between the counts of two moments. -/
def TotalsBetween (w : Worker) (n : ℕ) (g₀ g : ScrapedGateway) (totals : Counter → UInt64) : Prop :=
  ∀ c, ∃ total, (totals c).toNat ≡ total [MOD 2 ^ 64] ∧
    ∑ j ∈ Finset.range (w.metrics.shards.length + n), g₀.counts w c j ≤ total ∧
    total ≤ ∑ j ∈ Finset.range (w.metrics.shards.length + n), g.counts w c j

/-- Every answer to a request for `/metrics` comes from a scan that has ended. -/
theorem exists_scanned {actions : List (ℕ × ThreadAction)} (hasks : AsksMetrics L view)
    (h : Responds (reached L w n actions) i k view r) :
    ∃ before during after, actions = before ++ during ++ after ∧
      Waits (reached L w n before) i k view ∧
      Responds (reached L w n (before ++ during)) i k view r ∧
      ∃ totals, r = metricsResponse (render (families totals)) ∧
        TotalsBetween w n (reached L w n before) (reached L w n (before ++ during)) totals := by
  induction actions using List.reverseRecOn with
  | nil =>
      obtain ⟨t, ht, hview, -⟩ := h
      rw [RuntimeSpine.requestOf, (threads_new ht).1] at hview
      exact absurd hview (by simp)
  | append_singleton actions a ih =>
      have hg := agrees_reached L w n actions
      have hmoves := moves_step L (reached L w n actions) a
      have hresponds := h
      rw [reached_concat] at h
      rcases responds_step hasks h with h | ⟨scan, hrenders, hfinished, rfl⟩
      · obtain ⟨before, during, after, rfl, hrest⟩ := ih h
        exact ⟨before, during, after ++ [a], by simp, hrest⟩
      · obtain ⟨before, during, rfl, hwaits, hreads⟩ := exists_begun hrenders
        refine ⟨before, during ++ [a], [], by simp, hwaits, by simpa using hresponds,
          scan.totals, rfl, fun c => ?_⟩
        obtain ⟨total, htotal, hlower, hupper⟩ := hreads.totals hg hfinished c
        refine ⟨total, htotal, hlower, hupper.trans (Finset.sum_le_sum fun j _ => ?_)⟩
        rw [← List.append_assoc, reached_concat]
        exact hg.counts_le hmoves c j

/-- A total is what the registry held before, and what the workers count. -/
lemma Agrees.modEq_of_total (h : Agrees w n g) (c : Counter) {total : ℕ}
    (hle : ∑ j ∈ Finset.range (w.metrics.shards.length + n), g.counts w c j ≤ total) :
    total ≡ (w.metrics.total c.get).toNat
      + (total - (w.metrics.shards.reduceOption.map fun shard => (c.get shard).toNat).sum)
      [MOD 2 ^ 64] := by
  have hsum := h.sum_counts c
  rw [MetricsRegistry.toNat_total]
  refine Nat.ModEq.trans ?_ ((Nat.mod_modEq _ _).symm.add_right _)
  rw [Nat.add_sub_cancel' (by omega)]

end ScrapedGateway

open ScrapedGateway

/-- **What a scraper reads.**  In every state that the threads of a gateway reach, whatever they do
between any two operations: if a connection has asked for `/metrics` and has its response, then a
client that takes this response apart reads the seven samples.  Their values are, modulo `2 ^ 64`,
what the registry held before the gateway and what all workers had counted of their connections: at
least as much as when the rendering began, with the scraper's own request, and no more than when it
had ended. -/
theorem scraped_totals (L : Llhttp) (w : Worker) (n : ℕ) (actions : List (ℕ × ThreadAction))
    (i k : ℕ) (view : ByteString) (r : Response) (hasks : AsksMetrics L view)
    (hresponds : Responds (ScrapedGateway.reached L w n actions) i k view r) :
    ∃ before during after, actions = before ++ during ++ after ∧
      Waits (ScrapedGateway.reached L w n before) i k view ∧
      Responds (ScrapedGateway.reached L w n (before ++ during)) i k view r ∧
      ∃ totals : Counter → UInt64, scrapeResponse r.payload = some (samplesOf totals) ∧
        ∀ c, ∃ counted, (totals c).toNat
            ≡ (w.metrics.total c.get).toNat + counted [MOD 2 ^ 64] ∧
          ((ScrapedGateway.reached L w n before).threads.map (WorkerThread.counted c)).sum
            ≤ counted ∧
          counted ≤ ((ScrapedGateway.reached L w n (before ++ during)).threads.map
            (WorkerThread.counted c)).sum := by
  obtain ⟨before, during, after, rfl, hwaits, hthere, totals, rfl, hbetween⟩ :=
    exists_scanned hasks hresponds
  refine ⟨before, during, after, rfl, hwaits, hthere, totals, ?_, fun c => ?_⟩
  · rw [scrapeResponse_metricsResponse, scrape_families]
  · obtain ⟨total, htotal, hlower, hupper⟩ := hbetween c
    have hbegun := agrees_reached L w n before
    have hended := agrees_reached L w n (before ++ during)
    refine ⟨_, htotal.trans (hbegun.modEq_of_total c hlower), ?_, ?_⟩
    · rw [hbegun.sum_counts] at hlower
      omega
    · rw [hended.sum_counts] at hupper
      omega

def requestMetrics : ByteString :=
  ascii "GET /metrics HTTP/1.1\r\nHost: h\r\n\r\n"

def llhttpOnMetrics : Llhttp :=
  .replay (ascii "GET")
    [(1, [.messageBegin]), (13, [.url (ascii "/metrics")]), (28, [.headerField (ascii "Host")]),
      (32, [.headerValue (ascii "h")]), (34, [.headersComplete, .messageComplete])]

/-- The second worker is asked for the metrics.  It has read the accepts of the first one when that
accepts another connection. -/
def scraped : List (ℕ × ThreadAction) :=
  [(0, .run (.accept true)), (0, .proceed), (1, .run (.accept true)), (1, .proceed),
    (1, .run (.handle 0 (.start true true))),
    (1, .run (.handle 0 (.read [.data requestMetrics])))]
  ++ List.replicate 5 (1, .proceed) ++ [(0, .run (.accept true)), (0, .proceed)]
  ++ List.replicate 15 (1, .proceed)

theorem scraped_totals_behindIt :
    ∃ r, Responds (ScrapedGateway.reached llhttpOnMetrics defaultWorker 2 scraped) 1 0
        requestMetrics r ∧
      ∃ before during after, scraped = before ++ during ++ after ∧
        ∃ totals : Counter → UInt64, scrapeResponse r.payload = some (samplesOf totals) ∧
          ∃ counted, (totals .accepts).toNat ≡ counted [MOD 2 ^ 64] ∧
            ((ScrapedGateway.reached llhttpOnMetrics defaultWorker 2
              before).threads.map (WorkerThread.counted .accepts)).sum ≤ counted ∧
            counted ≤ ((ScrapedGateway.reached llhttpOnMetrics defaultWorker 2
              (before ++ during)).threads.map (WorkerThread.counted .accepts)).sum := by
  have hrequest : ((ScrapedGateway.reached llhttpOnMetrics defaultWorker 2
      scraped).threads[1]?.bind fun t => t.spine.requestOf 0) = some requestMetrics := by
    decide +kernel
  have hresponse : ((ScrapedGateway.reached llhttpOnMetrics defaultWorker 2
      scraped).threads[1]?.bind fun t => t.spine.responseOf 0).isSome = true := by
    decide +kernel
  obtain ⟨t, ht, hview⟩ := Option.bind_eq_some_iff.mp hrequest
  rw [ht, Option.bind_some] at hresponse
  obtain ⟨r, hr⟩ := Option.isSome_iff_exists.mp hresponse
  have hresponds : Responds (ScrapedGateway.reached llhttpOnMetrics defaultWorker 2 scraped) 1 0
      requestMetrics r := ⟨t, ht, hview, hr⟩
  obtain ⟨before, during, after, hsplit, -, -, totals, hsamples, hbetween⟩ :=
    scraped_totals llhttpOnMetrics defaultWorker 2 scraped 1 0 requestMetrics r
      (by decide +kernel) hresponds
  obtain ⟨counted, hcounted, hbounds⟩ := hbetween .accepts
  have hnothing : (defaultWorker.metrics.total Counter.accepts.get).toNat = 0 := by decide
  rw [hnothing, Nat.zero_add] at hcounted
  exact ⟨r, hresponds, before, during, after, hsplit, totals, hsamples, counted, hcounted, hbounds⟩

/-- Two accepts are read, and three have been counted. -/
example :
    let g := ScrapedGateway.reached llhttpOnMetrics defaultWorker 2 scraped
    ((g.threads[1]?.bind fun t => t.spine.responseOf 0).bind fun r =>
        scrapeResponse r.payload).map (fun samples => samples.head?)
      = some (some (ascii "netp2_accepts_total", 2)) ∧
    (g.threads.map (WorkerThread.counted .accepts)).sum = 3 := by
  decide +kernel

end Netp2.Runtime
