import Netp2.Library.RacySum
import Netp2.Observability.Monotonicity
import Netp2.Observability.Rendering

/-!
# Rendering while others count

`render_prometheus` holds the mutex of the registry, so no shard is created meanwhile, and it keeps
the shard alive that it has locked.  But the counters are read one by one, and other threads go on
counting and let go of other shards.  What is rendered need not be the state of any moment.

`Scan` is the loop with everything that it can be interrupted by.  `scans_ordered` says what a
monitoring system can rely on all the same: each sample is between the sums when the rendering began
and when it ended, and from one rendering to the next no sample goes back.
-/

namespace Netp2.Observability

open RacySum StepRun

namespace MetricsProcess

/-- What a place of the registry has counted; nothing, if its shard has expired. -/
def cell (s : MetricsProcess) (c : Counter) (i : ℕ) : ℕ :=
  (s.registry.shards[i]?.join.map fun shard => (c.get shard).toNat).getD 0

lemma liveSum_eq (s : MetricsProcess) (c : Counter) :
    s.liveSum c = ∑ i ∈ Finset.range s.registry.shards.length, s.cell c i :=
  Ledger.sum_reduceOption _ _

variable {s : MetricsProcess}

lemma cell_of_live {i : ℕ} {x : WorkerMetricsShard} (hx : s.registry.shards[i]? = some (some x))
    (c : Counter) : s.cell c i = (c.get x).toNat := by
  rw [cell, hx]
  rfl

/-- What keeps the counts lowers no place. -/
lemma KeepsCounts.cell_le {a : MetricsAction} (h : KeepsCounts s a) (c : Counter) (i : ℕ) :
    s.cell c i ≤ (s.step a).2.cell c i := by
  cases a with
  | createWorkerShard =>
      simp only [cell, step, List.getElem?_append]
      split_ifs with hi
      · exact le_rfl
      · simp [List.getElem?_eq_none (not_lt.mp hi)]
  | bindThreadLocalShard thread shard => exact le_rfl
  | unbindThreadLocalShard thread => exact le_rfl
  | record thread m =>
      by_cases hlive : ∃ shard x, s.tlsWorkerShard thread = some shard ∧
          s.registry.shards[shard]? = some (some x)
      · obtain ⟨shard, x, htls, hx⟩ := hlive
        have hfits := h shard x htls hx c
        have hget := get_le_liveSum hx c
        rw [step_record_bound htls]
        by_cases hi : shard = i
        · subst hi
          have hx' : (s.registry.shards.modify shard (Option.map m.count))[shard]?
              = some (some (m.count x)) := by
            simp [List.getElem?_modify_eq, hx]
          rw [cell_of_live hx, cell_of_live hx', m.get_count, Nat.mod_eq_of_lt (by omega)]
          exact Nat.le_add_right _ _
        · simp [cell, List.getElem?_modify_ne _ _ hi]
      · rw [step_record_dead m fun shard x htls hx => hlive ⟨shard, x, htls, hx⟩]
  | release shard =>
      by_cases hi : shard = i
      · subst hi
        cases hx : s.registry.shards[shard]?.join with
        | none => simp [cell, hx]
        | some x =>
            have hempty : x = {} := h x (Option.join_eq_some_iff.mp hx)
            have hzero : (c.get x).toNat = 0 := by
              rw [hempty]
              cases c <;> rfl
            simp [cell, hx, hzero]
      · simp [cell, step, List.getElem?_set_ne hi]

end MetricsProcess

open MetricsProcess

instance (s : MetricsProcess) (a : MetricsAction) : Decidable (KeepsCounts s a) :=
  match a with
  | .createWorkerShard | .bindThreadLocalShard _ _ | .unbindThreadLocalShard _ => isTrue trivial
  | .record thread m =>
      decidable_of_iff (∀ shard ∈ s.tlsWorkerShard thread, ∀ x ∈ s.registry.shards[shard]?.join,
          ∀ c ∈ counters, s.liveSum c + m.amount c < 2 ^ 64)
        ⟨fun h shard x htls hx c =>
            h shard htls x (Option.join_eq_some_iff.mpr hx) c (mem_counters c),
          fun h shard htls x hx c _ => h shard x htls (Option.join_eq_some_iff.mp hx) c⟩
  | .release shard =>
      decidable_of_iff (∀ x ∈ s.registry.shards[shard]?.join, x = {})
        ⟨fun h x hx => h x (Option.join_eq_some_iff.mpr hx),
          fun h x hx => h x (Option.join_eq_some_iff.mp hx)⟩

lemma nodup_counters : counters.Nodup := by
  decide

/-! ## The loop -/

/-- `render_prometheus` under way: the weak pointer that it has come to, the counters that are still
to be loaded from the shard that it has locked, and the totals so far. -/
structure Scan where
  process : MetricsProcess
  index : ℕ := 0
  loads : List Counter := []
  totals : Counter → UInt64 := fun _ => 0

inductive ScanAction where
  | proceed
  | other (a : MetricsAction)
  deriving DecidableEq

namespace Scan

def finished (s : Scan) : Bool :=
  s.loads = [] ∧ s.process.registry.shards.length ≤ s.index

/-- The next load, or the next weak pointer. -/
def proceed (s : Scan) : Scan :=
  match s.loads, s.process.registry.shards[s.index]? with
  | c :: loads, some (some shard) =>
      { s with
        index := if loads = [] then s.index + 1 else s.index
        loads := loads
        totals := Function.update s.totals c (s.totals c + c.get shard) }
  | [], some (some _) => { s with loads := counters }
  | [], some none => { s with index := s.index + 1 }
  | _, _ => s

/-- What others have to wait for: the mutex, and the pointer to the shard that is locked. -/
def holds (s : Scan) : MetricsAction → Bool
  | .createWorkerShard => true
  | .release shard => s.loads ≠ [] ∧ shard = s.index
  | _ => false

def step (s : Scan) : ScanAction → Unit × Scan
  | .proceed => ((), s.proceed)
  | .other a =>
      if s.holds a then ((), s) else ((), { s with process := (s.process.step a).2 })

/-- What is rendered from the totals. -/
def text (s : Scan) : ByteString :=
  Exposition.render (families s.totals)

def reached (p : MetricsProcess) (actions : List ScanAction) : Scan :=
  final step { process := p } actions

/-! ## What is left to do -/

/-- The number of places from which a counter has been read. -/
def done (s : Scan) (c : Counter) : ℕ :=
  if s.loads = [] ∨ c ∈ s.loads then s.index else s.index + 1

/-- The steps that the loop has left at most. -/
def left (s : Scan) : ℕ :=
  if s.loads = [] then 8 * (s.process.registry.shards.length - s.index)
  else 8 * (s.process.registry.shards.length - (s.index + 1)) + s.loads.length

/-- The loop is at some place of the registry, and the shard that it has locked is there. -/
structure Sound (s : Scan) : Prop where
  index_le : s.index ≤ s.process.registry.shards.length
  nodup : s.loads.Nodup
  held : s.loads ≠ [] → ∃ x, s.process.registry.shards[s.index]? = some (some x)

/-- **What the loop can do.**  It reads a counter, or it locks a shard, or it skips one. -/
inductive Proceeds (s : Scan) : Scan → Prop
  | load {c loads x} (hloads : s.loads = c :: loads)
      (hx : s.process.registry.shards[s.index]? = some (some x)) :
      Proceeds s
        { s with
          index := if loads = [] then s.index + 1 else s.index
          loads := loads
          totals := Function.update s.totals c (s.totals c + c.get x) }
  | lock {x} (hloads : s.loads = []) (hx : s.process.registry.shards[s.index]? = some (some x)) :
      Proceeds s { s with loads := counters }
  | skip (hloads : s.loads = []) (hx : s.process.registry.shards[s.index]? = some none) :
      Proceeds s { s with index := s.index + 1 }
  | finished (h : s.finished = true) : Proceeds s s

lemma proceeds (s : Scan) (hs : s.Sound) : s.Proceeds s.proceed := by
  cases hloads : s.loads with
  | nil =>
      rcases hx : s.process.registry.shards[s.index]? with _ | _ | x
      · have hproceed : s.proceed = s := by simp [proceed, hloads, hx]
        rw [hproceed]
        exact .finished (by simpa [Scan.finished, hloads] using hx)
      · have hproceed : s.proceed = { s with index := s.index + 1 } := by
          simp [proceed, hloads, hx]
        rw [hproceed]
        exact .skip hloads hx
      · have hproceed : s.proceed = { s with loads := counters } := by simp [proceed, hloads, hx]
        rw [hproceed]
        exact .lock hloads hx
  | cons c loads =>
      obtain ⟨x, hx⟩ := hs.held (by simp [hloads])
      simp only [proceed, hloads, hx]
      exact .load hloads hx

/-- The loop changes nothing in the process. -/
@[simp] lemma proceed_process (s : Scan) : s.proceed.process = s.process := by
  fun_cases proceed s <;> rfl

/-! ## One step -/

variable {s s' : Scan} {p : MetricsProcess}

/-- Others leave the places of the registry where they are, and the shard that is locked. -/
lemma Sound.other (hs : s.Sound) {a : MetricsAction} (ha : s.holds a = false) :
    (s.process.step a).2.registry.shards.length = s.process.registry.shards.length ∧
      Sound { s with process := (s.process.step a).2 } := by
  cases a with
  | createWorkerShard => exact absurd ha (by simp [holds])
  | bindThreadLocalShard thread shard => exact ⟨rfl, hs.index_le, hs.nodup, hs.held⟩
  | unbindThreadLocalShard thread => exact ⟨rfl, hs.index_le, hs.nodup, hs.held⟩
  | record thread m =>
      cases htls : s.process.tlsWorkerShard thread with
      | none =>
          rw [step_record_unbound htls]
          exact ⟨rfl, hs⟩
      | some shard =>
          rw [step_record_bound htls]
          refine ⟨List.length_modify _ _ _, ?_, hs.nodup, ?_⟩
          · simpa using hs.index_le
          · intro hloads
            obtain ⟨x, hx⟩ := hs.held hloads
            by_cases hi : shard = s.index
            · subst hi
              exact ⟨m.count x, by simp [List.getElem?_modify_eq, hx]⟩
            · exact ⟨x, by simp [List.getElem?_modify_ne _ _ hi, hx]⟩
  | release shard =>
      refine ⟨List.length_set, ?_, hs.nodup, ?_⟩
      · simpa [MetricsProcess.step] using hs.index_le
      · intro hloads
        have hi : shard ≠ s.index := by
          intro hi
          simp [holds, hi, hloads] at ha
        obtain ⟨x, hx⟩ := hs.held hloads
        exact ⟨x, by simp [MetricsProcess.step, List.getElem?_set_ne hi, hx]⟩

lemma Sound.proceed (hs : s.Sound) : s.proceed.Sound := by
  generalize hnext : s.proceed = next
  cases hnext ▸ proceeds s hs with
  | @load c loads x hloads hx =>
      have hlt := (List.getElem?_eq_some_iff.mp hx).1
      have hnodup := hs.nodup
      rw [hloads, List.nodup_cons] at hnodup
      refine ⟨?_, hnodup.2, ?_⟩
      · simp only
        split_ifs <;> omega
      · intro hne
        exact ⟨x, by simpa [show loads ≠ [] from hne] using hx⟩
  | @lock x hloads hx => exact ⟨hs.index_le, nodup_counters, fun _ => ⟨x, hx⟩⟩
  | skip hloads hx =>
      have hlt := (List.getElem?_eq_some_iff.mp hx).1
      exact ⟨hlt, hs.nodup, fun hne => absurd hloads hne⟩
  | finished h => exact hs

/-- A step reads the next place for a counter, or leaves the counter alone. -/
lemma Proceeds.reads (h : s.Proceeds s') (hs : s.Sound) (c : Counter) :
    (s'.done c = s.done c ∧ s'.totals c = s.totals c) ∨
      (s'.done c = s.done c + 1 ∧
        (s'.totals c).toNat = ((s.totals c).toNat + s.process.cell c (s.done c)) % 2 ^ 64) := by
  cases h with
  | @load c' loads x hloads hx =>
      have hnodup := hs.nodup
      rw [hloads, List.nodup_cons] at hnodup
      by_cases hc : c = c'
      · subst hc
        have hdone : s.done c = s.index := by simp [done, hloads]
        refine .inr ⟨?_, ?_⟩
        · rw [hdone]
          by_cases hlast : loads = []
          · simp [done, hlast]
          · simp [done, hlast, hnodup.1]
        · rw [hdone, cell_of_live hx]
          simp only [Function.update_self, UInt64.toNat_add]
      · refine .inl ⟨?_, Function.update_of_ne hc _ _⟩
        by_cases hlast : loads = []
        · simp [done, hloads, hlast, hc]
        · simp [done, hloads, hlast, hc]
  | @lock x hloads hx =>
      refine .inl ⟨?_, rfl⟩
      simp [done, hloads, mem_counters]
  | skip hloads hx =>
      have hdone : s.done c = s.index := by simp [done, hloads]
      refine .inr ⟨by simp [done, hloads], ?_⟩
      have hzero : s.process.cell c s.index = 0 := by simp [cell, hx]
      rw [hdone, hzero]
      exact (Nat.mod_eq_of_lt (s.totals c).toNat_lt).symm
  | finished h => exact .inl ⟨rfl, rfl⟩

/-- A step leaves less to do. -/
lemma Proceeds.left_le (h : s.Proceeds s') : s'.left ≤ s.left - 1 := by
  cases h with
  | @load c loads x hloads hx =>
      have hlt := (List.getElem?_eq_some_iff.mp hx).1
      by_cases hlast : loads = []
      · simp [left, hloads, hlast]
      · simp [left, hloads, hlast]
  | @lock x hloads hx =>
      have hlt := (List.getElem?_eq_some_iff.mp hx).1
      simp [left, hloads, counters]
      omega
  | skip hloads hx =>
      have hlt := (List.getElem?_eq_some_iff.mp hx).1
      simp [left, hloads]
      omega
  | finished h =>
      simp only [Scan.finished, decide_eq_true_eq] at h
      simp [left, h.1, h.2]

lemma finished_of_left (h : s.left = 0) : s.finished = true := by
  by_cases hloads : s.loads = []
  · simp only [left, hloads, if_true] at h
    simp only [finished, hloads, true_and, decide_eq_true_eq]
    omega
  · rw [left, if_neg hloads, Nat.add_eq_zero_iff, List.length_eq_zero_iff] at h
    exact absurd h.2 hloads

/-! ## A run of the loop -/

lemma sound_step (hs : s.Sound) (a : ScanAction) : (s.step a).2.Sound := by
  cases a with
  | proceed => exact hs.proceed
  | other a =>
      cases ha : s.holds a with
      | false => simpa [step, ha] using (hs.other ha).2
      | true => simpa [step, ha] using hs

lemma sound_reached (p : MetricsProcess) (actions : List ScanAction) :
    (reached p actions).Sound := by
  have hstart : Sound { process := p } := ⟨Nat.zero_le _, List.nodup_nil, fun h => absurd rfl h⟩
  induction actions using List.reverseRecOn with
  | nil => exact hstart
  | append_singleton actions a ih =>
      rw [reached, final_concat]
      exact sound_step ih a

lemma left_step (hs : s.Sound) (a : ScanAction) :
    (s.step a).2.left ≤ s.left - if a = .proceed then 1 else 0 := by
  cases a with
  | proceed => exact (proceeds s hs).left_le
  | other a =>
      cases ha : s.holds a with
      | false =>
          have hlength := (hs.other ha).1
          simp [step, ha, left, hlength]
      | true => simp [step, ha]

/-- **The loop ends**, whatever comes between its steps: there are at most eight for each shard. -/
lemma left_reached (p : MetricsProcess) (actions : List ScanAction) :
    (reached p actions).left ≤ 8 * p.registry.shards.length - actions.count .proceed := by
  induction actions using List.reverseRecOn with
  | nil => simp [reached, final, left]
  | append_singleton actions a ih =>
      have hstep := left_step (sound_reached p actions) a
      simp only [reached, final_concat, List.count_append, List.count_singleton,
        beq_iff_eq] at hstep ih ⊢
      omega

/-- What others do keeps the counts. -/
def Keeps (s : Scan) : ScanAction → Prop
  | .proceed => True
  | .other a => s.holds a = false → KeepsCounts s.process a

instance (s : Scan) (a : ScanAction) : Decidable (s.Keeps a) :=
  match a with
  | .proceed => isTrue trivial
  | .other a => inferInstanceAs (Decidable (s.holds a = false → KeepsCounts s.process a))

/-- **The invariant**: what has been read is between what there was and what there is. -/
structure Invariant (p : MetricsProcess) (s : Scan) : Prop where
  sound : s.Sound
  length_eq : s.process.registry.shards.length = p.registry.shards.length
  unwrapped : Unwrapped s.process
  between : ∀ c : Counter, Between (p.cell c) (s.process.cell c) (s.done c) (s.totals c).toNat

/-- The sums over the places that are there. -/
lemma sum_range_cell_le (p : MetricsProcess) (c : Counter) {n : ℕ}
    (hn : n ≤ p.registry.shards.length) : ∑ i ∈ Finset.range n, p.cell c i ≤ p.liveSum c := by
  rw [liveSum_eq]
  exact Finset.sum_le_sum_of_subset (Finset.range_mono hn)

lemma done_le (hs : s.Sound) (c : Counter) : s.done c ≤ s.process.registry.shards.length := by
  rw [done]
  split_ifs with h
  · exact hs.index_le
  · obtain ⟨x, hx⟩ := hs.held fun hloads => h (.inl hloads)
    exact (List.getElem?_eq_some_iff.mp hx).1

/-- **The step lemma.** -/
theorem Invariant.step (hs : Invariant p s) {a : ScanAction} (ha : s.Keeps a) :
    Invariant p (s.step a).2 := by
  cases a with
  | proceed =>
      have hproceeds := proceeds s hs.sound
      have hprocess := s.proceed_process
      refine ⟨hs.sound.proceed, ?_, ?_, ?_⟩
      · rw [Scan.step, hprocess]
        exact hs.length_eq
      · rw [Scan.step, hprocess]
        exact hs.unwrapped
      · intro c
        have hbetween := hs.between c
        simp only [Scan.step, hprocess]
        rcases hproceeds.reads hs.sound c with ⟨hdone, htotals⟩ | ⟨hdone, htotals⟩
        · rw [hdone, htotals]
          exact hbetween
        · -- the sum so far is one of counters, and these have not passed their width
          have hread := hbetween.read
          have hfits : (s.totals c).toNat + s.process.cell c (s.done c) < 2 ^ 64 := by
            have hle := done_le hs.sound.proceed c
            rw [hdone, hprocess] at hle
            have hupper := hread.upper
            have hsum := sum_range_cell_le s.process c hle
            have hlt := hs.unwrapped c
            omega
          rw [hdone, htotals, Nat.mod_eq_of_lt hfits]
          exact hread
  | other a =>
      cases hheld : s.holds a with
      | true => simpa [Scan.step, hheld] using hs
      | false =>
          have hkept := ha hheld
          simp only [Scan.step, hheld, Bool.false_eq_true, if_false]
          obtain ⟨hlength, hsound⟩ := hs.sound.other hheld
          exact ⟨hsound, hlength.trans hs.length_eq, hs.unwrapped.step hkept,
            fun c => (hs.between c).grow fun i => hkept.cell_le c i⟩

/-- Others keep the counts throughout. -/
def KeepsAll (p : MetricsProcess) (actions : List ScanAction) : Prop :=
  EachCall (fun before a => (reached p before).Keeps a) actions

instance (p : MetricsProcess) (actions : List ScanAction) : Decidable (KeepsAll p actions) :=
  inferInstanceAs (Decidable (EachCall _ actions))

variable {actions : List ScanAction}

lemma invariant_reached (hp : Unwrapped p) (hkept : KeepsAll p actions) :
    Invariant p (reached p actions) := by
  have hstart : Invariant p { process := p } :=
    ⟨sound_reached p [], rfl, hp, fun c => between_nothing (p.cell c)⟩
  exact invariant_final hstart (fun _ _ hs ha => hs.step ha) hkept

lemma finished_reached (hproceeds : 8 * p.registry.shards.length ≤ actions.count .proceed) :
    (reached p actions).finished = true := by
  refine finished_of_left ?_
  have hleft := left_reached p actions
  omega

/-- When everything has been read, the totals are between the sums. -/
lemma Invariant.totals (hs : Invariant p s) (hfinished : s.finished = true) (c : Counter) :
    p.liveSum c ≤ (s.totals c).toNat ∧ (s.totals c).toNat ≤ s.process.liveSum c := by
  simp only [finished, decide_eq_true_eq] at hfinished
  have hdone : s.done c = s.process.registry.shards.length := by
    rw [done, if_pos (.inl hfinished.1)]
    exact le_antisymm hs.sound.index_le hfinished.2
  have hbetween := hs.between c
  rw [hdone] at hbetween
  rw [liveSum_eq, liveSum_eq, ← hs.length_eq]
  exact ⟨hbetween.lower, hbetween.upper⟩

/-- Others keep the counts, and the loop is given its time. -/
structure Completes (p : MetricsProcess) (actions : List ScanAction) : Prop where
  kept : KeepsAll p actions
  proceeds : 8 * p.registry.shards.length ≤ actions.count .proceed

/-- A rendering that began with `p`: a scraper reads seven samples from it, and they are between the
sums at its beginning and at its end. -/
structure Renders (p : MetricsProcess) (s : Scan) : Prop where
  finished : s.finished = true
  samples : Exposition.scrape s.text = samplesOf s.totals
  lower : ∀ c : Counter, p.liveSum c ≤ (s.totals c).toNat
  upper : ∀ c : Counter, (s.totals c).toNat ≤ s.process.liveSum c

lemma renders_reached (hp : Unwrapped p) (h : Completes p actions) :
    Renders p (reached p actions) := by
  have hinvariant := invariant_reached hp h.kept
  have hfinished := finished_reached h.proceeds
  exact ⟨hfinished, scrape_families _, fun c => (hinvariant.totals hfinished c).1,
    fun c => (hinvariant.totals hfinished c).2⟩

/-- What keeps the counts in between lowers no sum. -/
lemma kept_final {between : List MetricsAction} (hp : Unwrapped p)
    (hbetween : EachCall (fun before a => KeepsCounts (final MetricsProcess.step p before) a)
      between) :
    Unwrapped (final MetricsProcess.step p between) ∧
      ∀ c : Counter, p.liveSum c ≤ (final MetricsProcess.step p between).liveSum c := by
  have hstep : ∀ q a, (Unwrapped q ∧ ∀ c : Counter, p.liveSum c ≤ q.liveSum c) → KeepsCounts q a →
      Unwrapped (q.step a).2 ∧ ∀ c : Counter, p.liveSum c ≤ (q.step a).2.liveSum c := by
    rintro q a ⟨hq, hle⟩ ha
    exact ⟨hq.step ha, fun c => (hle c).trans (ha.liveSum_le c)⟩
  exact invariant_final ⟨hp, fun _ => le_rfl⟩ hstep hbetween

/-! ## A loop that nothing comes between -/

/-- What has been read alone is the sum, whatever its width. -/
structure Alone (p : MetricsProcess) (s : Scan) : Prop where
  sound : s.Sound
  process_eq : s.process = p
  read : ∀ c : Counter, (s.totals c).toNat
    ≡ ∑ i ∈ Finset.range (s.done c), p.cell c i [MOD 2 ^ 64]

lemma Alone.proceed (hs : Alone p s) : Alone p s.proceed := by
  have hproceeds := proceeds s hs.sound
  refine ⟨hs.sound.proceed, ?_, ?_⟩
  · rw [proceed_process, hs.process_eq]
  · intro c
    rcases hproceeds.reads hs.sound c with ⟨hdone, htotals⟩ | ⟨hdone, htotals⟩
    · rw [hdone, htotals]
      exact hs.read c
    · rw [hdone, htotals, hs.process_eq, Finset.sum_range_succ]
      exact (Nat.mod_modEq _ _).trans ((hs.read c).add_right _)

lemma alone_reached (p : MetricsProcess) (n : ℕ) :
    Alone p (reached p (List.replicate n .proceed)) := by
  induction n with
  | zero => exact ⟨sound_reached p [], rfl, fun c => rfl⟩
  | succ n ih =>
      rw [List.replicate_succ', reached, final_concat]
      exact ih.proceed

/-- It ends, and at some step for the first time. -/
lemma exists_finished_alone (p : MetricsProcess) :
    ∃ n, (reached p (List.replicate n .proceed)).finished = true ∧
      ∀ m < n, ¬(reached p (List.replicate m .proceed)).finished = true := by
  have hends : ∃ n, (reached p (List.replicate n .proceed)).finished = true :=
    ⟨8 * p.registry.shards.length, finished_reached (by simp)⟩
  exact ⟨Nat.find hends, Nat.find_spec hends, fun m hm => Nat.find_min hends hm⟩

/-- **Alone, the loop renders the totals of the registry.** -/
theorem text_alone (p : MetricsProcess) {n : ℕ}
    (hfinished : (reached p (List.replicate n .proceed)).finished = true) :
    (reached p (List.replicate n .proceed)).text = p.registry.renderPrometheus := by
  have hs := alone_reached p n
  generalize reached p (List.replicate n .proceed) = s at hs hfinished
  simp only [finished, decide_eq_true_eq] at hfinished
  have htotals : s.totals = fun c => p.registry.total c.get := by
    funext c
    have hdone : s.done c = p.registry.shards.length := by
      rw [done, if_pos (.inl hfinished.1), ← hs.process_eq]
      exact le_antisymm hs.sound.index_le hfinished.2
    have hread := hs.read c
    rw [hdone, ← liveSum_eq] at hread
    refine UInt64.toNat_inj.mp ?_
    rw [toNat_total_eq]
    exact (Nat.mod_eq_of_lt (s.totals c).toNat_lt).symm.trans hread
  rw [text, htotals, MetricsRegistry.renderPrometheus_eq]

end Scan

open Scan

/-- **What a monitoring system can rely on.**  The registry is rendered twice, while others count
and let go of shards, and others do so in between.  If no shard is let go of in which something has
been counted and no sum passes the width of a counter, then both renderings end and are between the
sums at their beginning and at their end; and none of the seven samples goes back. -/
theorem scans_ordered (p : MetricsProcess) (first second : List ScanAction)
    (between : List MetricsAction) (hp : Unwrapped p) (hfirst : Completes p first)
    (hbetween : EachCall (fun before a => KeepsCounts
      (final MetricsProcess.step (Scan.reached p first).process before) a) between)
    (hsecond : Completes (final MetricsProcess.step (Scan.reached p first).process between)
      second) :
    let middle := final MetricsProcess.step (Scan.reached p first).process between
    Renders p (Scan.reached p first) ∧ Renders middle (Scan.reached middle second) ∧
      ∀ c : Counter,
        ((Scan.reached p first).totals c).toNat
          ≤ ((Scan.reached middle second).totals c).toNat := by
  intro middle
  have hrenders := renders_reached hp hfirst
  have hunwrapped : Unwrapped (Scan.reached p first).process :=
    (invariant_reached hp hfirst.kept).unwrapped
  obtain ⟨hmiddle, hle⟩ := kept_final hunwrapped hbetween
  have hrenders' := renders_reached hmiddle hsecond
  refine ⟨hrenders, hrenders', ?_⟩
  intro c
  exact (hrenders.upper c).trans ((hle c).trans (hrenders'.lower c))

def bound : MetricsProcess :=
  MetricsProcess.reached [.createWorkerShard, .bindThreadLocalShard 0 0]

/-- An accept is counted when its counter has been read already, and another one in between. -/
def behindIt : List ScanAction :=
  [.proceed, .proceed, .other (.record 0 .accept)] ++ List.replicate 6 .proceed

theorem scans_ordered_behindIt :
    Renders bound (Scan.reached bound behindIt) ∧
      ((Scan.reached bound behindIt).totals .accepts).toNat = 0 ∧
      (Scan.reached bound behindIt).process.liveSum .accepts = 1 := by
  have hunwrapped : Unwrapped bound := by
    intro c
    cases c <;> decide
  have hordered := scans_ordered bound behindIt (List.replicate 8 .proceed) [.record 0 .accept]
    hunwrapped ⟨by decide +kernel, by decide +kernel⟩ (by decide +kernel)
    ⟨by decide +kernel, by decide +kernel⟩
  exact ⟨hordered.1, by decide +kernel, by decide +kernel⟩

end Netp2.Observability
