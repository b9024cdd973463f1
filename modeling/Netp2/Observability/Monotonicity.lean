import Netp2.Observability.Aggregation

/-!
# Do the totals go backwards?

The totals are rendered as Prometheus counters, which must not decrease.  But they are sums over the
shards that are left: what an expired shard has counted is no longer in them.

`never_decreases_iff` says when this does not show: no shard that has counted anything may be
released.  Apart from that a total can only pass `2 ^ 64`, and for the numbers of events this takes
that many events.
-/

namespace Netp2.Observability

open StepRun

namespace MetricsProcess

/-- From each state of the run to each later one, no total decreases. -/
def NeverDecreases (actions : List MetricsAction) : Prop :=
  ∀ c : Counter, Monotone fun k => ((reached (actions.take k)).registry.total c.get).toNat

/-- The sum over the shards, as a number. -/
def liveSum (s : MetricsProcess) (c : Counter) : ℕ :=
  (s.registry.shards.reduceOption.map fun shard => (c.get shard).toNat).sum

/-- No shard is released that has counted something, and no record takes a sum past the width of the
counters. -/
def KeepsCounts (s : MetricsProcess) : MetricsAction → Prop
  | .release shard => ∀ x, s.registry.shards[shard]? = some (some x) → x = {}
  | .record thread m => ∀ shard x, s.tlsWorkerShard thread = some shard →
      s.registry.shards[shard]? = some (some x) →
        ∀ c : Counter, s.liveSum c + m.amount c < 2 ^ 64
  | _ => True

/-- No sum over the shards has passed the width of a counter. -/
def Unwrapped (s : MetricsProcess) : Prop :=
  ∀ c : Counter, s.liveSum c < 2 ^ 64

variable {s : MetricsProcess}

lemma toNat_total_eq (s : MetricsProcess) (c : Counter) :
    (s.registry.total c.get).toNat = s.liveSum c % 2 ^ 64 :=
  s.registry.toNat_total c.get

lemma Unwrapped.toNat_total (hs : Unwrapped s) (c : Counter) :
    (s.registry.total c.get).toNat = s.liveSum c := by
  rw [toNat_total_eq]
  exact Nat.mod_eq_of_lt (hs c)

lemma amount_lt (c : Counter) (m : MetricsRecord) : m.amount c < 2 ^ 64 := by
  cases m with
  | accept => cases c <;> simp [MetricsRecord.amount]
  | request bytesIn =>
      cases c <;> simp only [MetricsRecord.amount] <;> first | exact bytesIn.toNat_lt | norm_num
  | response statusCode bytesOut =>
      cases c <;> simp only [MetricsRecord.amount] <;>
        first | exact bytesOut.toNat_lt | (split_ifs <;> norm_num) | norm_num

/-- A shard whose counters are all zero is as good as new. -/
lemma eq_empty_of_get_eq_zero {x : WorkerMetricsShard} (h : ∀ c : Counter, (c.get x).toNat = 0) :
    x = {} := by
  have hzero : ∀ c : Counter, c.get x = 0 := fun c => UInt64.toNat_inj.mp (h c)
  obtain ⟨a, r, r2, r4, r5, i, o⟩ := x
  have haccepts := hzero .accepts
  have hrequests := hzero .requests
  have h2xx := hzero .responses2xx
  have h4xx := hzero .responses4xx
  have h5xx := hzero .responses5xx
  have hin := hzero .bytesIn
  have hout := hzero .bytesOut
  simp only [Counter.get] at haccepts hrequests h2xx h4xx h5xx hin hout
  rw [haccepts, hrequests, h2xx, h4xx, h5xx, hin, hout]

/-! ## One step -/

lemma liveSum_create (s : MetricsProcess) (c : Counter) :
    (s.step .createWorkerShard).2.liveSum c = s.liveSum c := by
  have hempty : (c.get {}).toNat = 0 := by cases c <;> rfl
  simp [liveSum, step, List.reduceOption_append, hempty]

lemma liveSum_release {shard : ℕ} {x : WorkerMetricsShard}
    (hx : s.registry.shards[shard]? = some (some x)) (c : Counter) :
    (s.step (.release shard)).2.liveSum c + (c.get x).toNat = s.liveSum c := by
  have hsum := Ledger.sum_modify (fun shard => (c.get shard).toNat) (fun _ => none) hx
  rw [← List.set_eq_modify] at hsum
  exact hsum

lemma liveSum_record {thread shard : ℕ} {x : WorkerMetricsShard}
    (htls : s.tlsWorkerShard thread = some shard)
    (hx : s.registry.shards[shard]? = some (some x)) (m : MetricsRecord) (c : Counter) :
    (s.step (.record thread m)).2.liveSum c + (c.get x).toNat
      = s.liveSum c + ((c.get x).toNat + m.amount c) % 2 ^ 64 := by
  have hsum := Ledger.sum_modify (fun shard => (c.get shard).toNat) (Option.map m.count) hx
  rw [step_record_bound htls]
  rw [Option.map_some, Option.map_some, Option.getD_some, m.get_count] at hsum
  exact hsum

lemma get_le_liveSum {shard : ℕ} {x : WorkerMetricsShard}
    (hx : s.registry.shards[shard]? = some (some x)) (c : Counter) :
    (c.get x).toNat ≤ s.liveSum c := by
  rw [← liveSum_release hx c]
  exact Nat.le_add_left _ _

/-- A record of a thread without a live shard changes nothing. -/
lemma step_record_dead {thread : ℕ} (m : MetricsRecord)
    (h : ∀ shard x, s.tlsWorkerShard thread = some shard →
      s.registry.shards[shard]? ≠ some (some x)) :
    (s.step (.record thread m)).2 = s := by
  cases htls : s.tlsWorkerShard thread with
  | none => exact step_record_unbound htls m
  | some shard => rw [step_record_bound htls, Ledger.modify_of_not_live rfl fun x => h shard x htls]

lemma step_release_dead {shard : ℕ} (h : ∀ x, s.registry.shards[shard]? ≠ some (some x)) :
    (s.step (.release shard)).2 = s := by
  rw [step, List.set_eq_modify, Ledger.modify_of_not_live rfl h]

/-- Keeping counts keeps the sums within the width. -/
lemma Unwrapped.step (hs : Unwrapped s) {a : MetricsAction} (h : KeepsCounts s a) :
    Unwrapped (s.step a).2 := by
  intro c
  cases a with
  | createWorkerShard =>
      rw [liveSum_create]
      exact hs c
  | bindThreadLocalShard thread shard => exact hs c
  | unbindThreadLocalShard thread => exact hs c
  | record thread m =>
      by_cases hlive : ∃ shard x, s.tlsWorkerShard thread = some shard ∧
          s.registry.shards[shard]? = some (some x)
      · obtain ⟨shard, x, htls, hx⟩ := hlive
        have hfits := h shard x htls hx c
        have hsum := liveSum_record htls hx m c
        have hmod := Nat.mod_le ((c.get x).toNat + m.amount c) (2 ^ 64)
        omega
      · rw [step_record_dead m fun shard x htls hx => hlive ⟨shard, x, htls, hx⟩]
        exact hs c
  | release shard =>
      by_cases hlive : ∃ x, s.registry.shards[shard]? = some (some x)
      · obtain ⟨x, hx⟩ := hlive
        have hsum := liveSum_release hx c
        have hlt := hs c
        omega
      · rw [step_release_dead fun x hx => hlive ⟨x, hx⟩]
        exact hs c

/-- What keeps the counts lowers no sum. -/
lemma KeepsCounts.liveSum_le {a : MetricsAction} (h : KeepsCounts s a) (c : Counter) :
    s.liveSum c ≤ (s.step a).2.liveSum c := by
  cases a with
  | createWorkerShard => rw [liveSum_create]
  | bindThreadLocalShard thread shard => exact le_rfl
  | unbindThreadLocalShard thread => exact le_rfl
  | record thread m =>
      by_cases hlive : ∃ shard x, s.tlsWorkerShard thread = some shard ∧
          s.registry.shards[shard]? = some (some x)
      · obtain ⟨shard, x, htls, hx⟩ := hlive
        have hfits := h shard x htls hx c
        have hsum := liveSum_record htls hx m c
        have hget := get_le_liveSum hx c
        rw [Nat.mod_eq_of_lt (by omega)] at hsum
        omega
      · rw [step_record_dead m fun shard x htls hx => hlive ⟨shard, x, htls, hx⟩]
  | release shard =>
      by_cases hlive : ∃ x, s.registry.shards[shard]? = some (some x)
      · obtain ⟨x, hx⟩ := hlive
        have hsum := liveSum_release hx c
        have hzero : (c.get x).toNat = 0 := by
          rw [h x hx]
          cases c <;> rfl
        omega
      · rw [step_release_dead fun x hx => hlive ⟨x, hx⟩]

/-- **The step lemma.**  A step keeps the counts exactly if it lowers no total. -/
theorem keepsCounts_iff (hs : Unwrapped s) (a : MetricsAction) :
    KeepsCounts s a ↔ ∀ c : Counter, (s.registry.total c.get).toNat
      ≤ ((s.step a).2.registry.total c.get).toNat := by
  constructor
  · intro h c
    rw [hs.toNat_total, (hs.step h).toNat_total]
    exact h.liveSum_le c
  · intro hle
    cases a with
    | record thread m =>
        intro shard x htls hx c
        have hc := hle c
        have hsum := liveSum_record htls hx m c
        have hget := get_le_liveSum hx c
        have hlt := hs c
        have hamount := amount_lt c m
        rw [hs.toNat_total, toNat_total_eq] at hc
        omega
    | release shard =>
        intro x hx
        refine eq_empty_of_get_eq_zero ?_
        intro c
        have hc := hle c
        have hsum := liveSum_release hx c
        have hlt := hs c
        rw [hs.toNat_total, toNat_total_eq] at hc
        omega
    | _ => trivial

/-! ## A run -/

/-- Every step of the run keeps the counts. -/
def AllKept (actions : List MetricsAction) : Prop :=
  EachCall (fun before a => KeepsCounts (reached before) a) actions

variable {actions : List MetricsAction}

lemma reached_take_succ {k : ℕ} (hk : k < actions.length) :
    reached (actions.take (k + 1)) = ((reached (actions.take k)).step actions[k]).2 :=
  final_take_succ _ _ _ hk

/-- The sums stay within the width as long as this makes the steps keep the counts. -/
lemma unwrapped_take (h : ∀ k (hk : k < actions.length), Unwrapped (reached (actions.take k)) →
      KeepsCounts (reached (actions.take k)) actions[k]) :
    ∀ k ≤ actions.length, Unwrapped (reached (actions.take k))
  | 0, _ => fun _ => by norm_num [reached, final, liveSum]
  | k + 1, hk => by
      have hprev := unwrapped_take h k (Nat.le_of_succ_le hk)
      rw [reached_take_succ hk]
      exact hprev.step (h k hk hprev)

end MetricsProcess

open MetricsProcess

/-- **When the exported counters never go backwards.**  In a run, exactly when no shard is released
in which anything has been counted, and no record takes a total past `2 ^ 64`. -/
theorem never_decreases_iff (actions : List MetricsAction) :
    NeverDecreases actions ↔ AllKept actions := by
  rw [AllKept, eachCall_iff_getElem]
  constructor
  · intro hmono k hk
    have hstep : ∀ j (hj : j < actions.length), Unwrapped (reached (actions.take j)) →
        KeepsCounts (reached (actions.take j)) actions[j] := by
      intro j hj hunwrapped
      rw [keepsCounts_iff hunwrapped]
      intro c
      rw [← reached_take_succ hj]
      exact hmono c (Nat.le_succ j)
    exact hstep k hk (unwrapped_take hstep k hk.le)
  · intro hkept c
    refine monotone_nat_of_le_succ ?_
    intro k
    rcases Nat.lt_or_ge k actions.length with hk | hk
    · have hunwrapped := unwrapped_take (fun j hj _ => hkept j hj) k hk.le
      rw [reached_take_succ hk]
      exact (keepsCounts_iff hunwrapped actions[k]).mp (hkept k hk) c
    · rw [List.take_of_length_le hk, List.take_of_length_le (Nat.le_succ_of_le hk)]

/-- One accept is counted, and its worker goes away. -/
theorem accepts_go_backwards :
    (reached [.createWorkerShard, .bindThreadLocalShard 0 0, .record 0 .accept]).registry.total
        Counter.accepts.get = 1 ∧
      (reached [.createWorkerShard, .bindThreadLocalShard 0 0, .record 0 .accept,
        .unbindThreadLocalShard 0, .release 0]).registry.total Counter.accepts.get = 0 ∧
      ¬NeverDecreases [.createWorkerShard, .bindThreadLocalShard 0 0, .record 0 .accept,
        .unbindThreadLocalShard 0, .release 0] := by
  refine ⟨by decide +kernel, by decide +kernel, ?_⟩
  intro h
  have hle := h .accepts (show 3 ≤ 5 by omega)
  revert hle
  decide +kernel

end Netp2.Observability
