import Netp2.Library.Ledger
import Netp2.Runtime.Serving

/-!
# The metrics of a worker account for its connections

Each record that a worker makes is made for one connection, and the ledger of a run lists them.  A
connection has made exactly the records that go with its phase (`Phase.records`), however often it
was interrupted, and the shard of the worker adds up what is in the ledger (`accounted_reached`).

So the counters are sums over the connections (`connections_accounted`).
-/

namespace Netp2.Runtime

open ByteString StepRun Netp2.Observability Netp2.Protocol

namespace Phase

/-- What has been recorded for a connection. -/
def records (phase : Phase) : List MetricsRecord :=
  .accept :: (phase.requestView.toList.map fun v => MetricsRecord.request v.length.toUInt64)
    ++ phase.writtenResponse.toList.map fun r =>
      MetricsRecord.response r.statusCode r.payload.length.toUInt64

/-- What a connection contributes to a counter. -/
def charge (c : Counter) (phase : Phase) : ℕ :=
  (phase.records.map (MetricsRecord.amount c)).sum

def bytesIn (phase : Phase) : ℕ :=
  (phase.requestView.map List.length).getD 0

def bytesOut (phase : Phase) : ℕ :=
  (phase.writtenResponse.map fun r => r.payload.length).getD 0

end Phase

/-! ## One piece -/

namespace Worker

variable (w : Worker)

def record (m : MetricsRecord) : Worker :=
  { w with metrics := m.call w.metrics w.tlsWorkerShard }

lemma toUInt64_toNat_toUInt64 (n : ℕ) : n.toUInt64.toNat.toUInt64 = n.toUInt64 :=
  UInt64.ofNat_toNat

lemma recordRequest_eq (n : ℕ) : w.recordRequest n = w.record (.request n.toUInt64) := by
  rw [recordRequest, record, MetricsRecord.call, MetricsRegistry.recordRequest,
    MetricsRegistry.recordRequest, toUInt64_toNat_toUInt64]

lemma recordResponse_eq (r : Response) :
    w.recordResponse r = w.record (.response r.statusCode r.payload.length.toUInt64) := by
  rw [recordResponse, record, MetricsRecord.call, MetricsRegistry.recordResponse,
    MetricsRegistry.recordResponse, toUInt64_toNat_toUInt64]

lemma shard_record (m : MetricsRecord) : (w.record m).shard = w.shard.map m.count := by
  cases htls : w.tlsWorkerShard with
  | none => simp [record, shard, htls]
  | some i =>
      simp only [record, shard, htls, MetricsRecord.call_eq, MetricsRegistry.onShard,
        Option.bind_some, List.getElem?_modify_eq]
      rcases w.metrics.shards[i]? with _ | _ | shard <;> rfl

end Worker

/-- **What one piece can do.**  It records nothing, or it records one thing. -/
inductive Progress (w : Worker) (phase : Phase) : Option MetricsRecord × Phase × Worker → Prop
  | silent {phase' w'} (hrecords : phase'.records = phase.records) (hshard : w'.shard = w.shard) :
      Progress w phase (none, phase', w')
  | counted {m phase'} (hrecords : phase'.records = phase.records ++ [m]) :
      Progress w phase (some m, phase', w.record m)

lemma progress_advance (L : Llhttp) (w : Worker) (phase : Phase) (wakeup : Wakeup) :
    Progress w phase (advance L w phase wakeup) := by
  fun_cases advance L w phase wakeup
  case case5 requestView _ _ hread w' built phase' =>
      have hrecords : phase'.records
          = Phase.reading.records ++ [.request requestView.length.toUInt64] := by
        simp only [phase']
        split_ifs <;> rfl
      simp only [w', Worker.recordRequest_eq]
      exact .counted hrecords
  case case9 requestView built =>
      rw [Worker.recordResponse_eq]
      exact .counted rfl
  all_goals exact .silent rfl rfl

/-! ## A run of the spine -/

namespace RuntimeSpine

abbrev SpineEvent := Event RuntimeSpine SpineAction (Option (ℕ × MetricsRecord))

/-- What has been recorded, and for which connection. -/
def ledger (h : List SpineEvent) : List (ℕ × MetricsRecord) :=
  h.filterMap Event.output

/-- What has been recorded for a connection, or nothing if there is no such connection. -/
def recordsOf (s : RuntimeSpine) (k : ℕ) : List MetricsRecord :=
  (s.connections[k]?.map Phase.records).getD []

/-- The shard adds up the ledger, and each connection is in it with its own records. -/
structure Accounted (h : List SpineEvent) (s : RuntimeSpine) : Prop where
  counted : ∃ shard, s.worker.shard = some shard ∧
    ∀ c : Counter, (c.get shard).toNat ≡ Ledger.total (MetricsRecord.amount c) (ledger h)
      [MOD 2 ^ 64]
  recorded : ∀ k, ((ledger h).filter fun e => e.1 = k).map Prod.snd = s.recordsOf k

lemma ledger_concat (h : List SpineEvent) (e : SpineEvent) :
    ledger (h ++ [e]) = ledger h ++ e.output.toList :=
  Ledger.filterMap_concat Event.output h e

lemma shard_start (w : Worker) : (start w).worker.shard = some {} := by
  simp [start, Worker.shard]

lemma accounted_start (w : Worker) : Accounted [] (start w) where
  counted := ⟨{}, shard_start w, fun c => by cases c <;> rfl⟩
  recorded _ := rfl

variable {h : List SpineEvent} {s s' : RuntimeSpine} {e : SpineEvent}

/-- Nothing is recorded. -/
lemma Accounted.silent (ha : Accounted h s) (he : e.output = none)
    (hshard : s'.worker.shard = s.worker.shard) (hrecords : ∀ k, s'.recordsOf k = s.recordsOf k) :
    Accounted (h ++ [e]) s' := by
  have hledger : ledger (h ++ [e]) = ledger h := by
    rw [ledger_concat, he]
    exact List.append_nil _
  refine ⟨?_, ?_⟩
  · rw [hledger, hshard]
    exact ha.counted
  · intro k
    rw [hledger, hrecords]
    exact ha.recorded k

/-- One thing is recorded, for one connection. -/
lemma Accounted.record (ha : Accounted h s) {k : ℕ} {m : MetricsRecord}
    (he : e.output = some (k, m)) (hworker : s'.worker = s.worker.record m)
    (hk : s'.recordsOf k = s.recordsOf k ++ [m])
    (hother : ∀ j ≠ k, s'.recordsOf j = s.recordsOf j) : Accounted (h ++ [e]) s' := by
  have hledger : ledger (h ++ [e]) = ledger h ++ [(k, m)] := by
    rw [ledger_concat, he]
    rfl
  refine ⟨?_, ?_⟩
  · obtain ⟨shard, hshard, hcounted⟩ := ha.counted
    refine ⟨m.count shard, ?_, ?_⟩
    · rw [hworker, Worker.shard_record, hshard]
      rfl
    · intro c
      rw [m.get_count, hledger, Ledger.total_append]
      exact (Nat.mod_modEq _ _).trans ((hcounted c).add_right _)
  · intro j
    rw [hledger, List.filter_append, List.map_append, ha.recorded]
    by_cases hj : j = k
    · subst hj
      simp [hk]
    · simp [hother j hj, Ne.symm hj]

lemma recordsOf_concat (w : Worker) (phase : Phase) (j : ℕ) :
    ({ s with worker := w, connections := s.connections ++ [phase] } : RuntimeSpine).recordsOf j
      = if j = s.connections.length then phase.records else s.recordsOf j := by
  rcases Nat.lt_trichotomy j s.connections.length with hlt | rfl | hgt
  · rw [if_neg hlt.ne, recordsOf, List.getElem?_append_left hlt, recordsOf]
  · simp [recordsOf]
  · have hnone : s.connections[j]? = none := List.getElem?_eq_none hgt.le
    have hnone' : (s.connections ++ [phase])[j]? = none :=
      List.getElem?_eq_none (by simpa using hgt)
    rw [if_neg hgt.ne', recordsOf, recordsOf, hnone, hnone']

/-- What happens to connection `k` does not change the records of another one. -/
lemma recordsOf_set (w : Worker) {k : ℕ} {phase : Phase} (hk : s.connections[k]? = some phase)
    (phase' : Phase) (j : ℕ) :
    ({ s with worker := w, connections := s.connections.set k phase' } : RuntimeSpine).recordsOf j
      = if j = k then phase'.records else s.recordsOf j := by
  have hlt : k < s.connections.length := (List.getElem?_eq_some_iff.mp hk).1
  rw [recordsOf, List.getElem?_set]
  by_cases hj : k = j
  · subst hj
    simp [hlt]
  · simp [hj, Ne.symm hj, recordsOf]

lemma recordsOf_of_getElem? {k : ℕ} {phase : Phase} (hk : s.connections[k]? = some phase) :
    s.recordsOf k = phase.records := by
  rw [recordsOf, hk]
  rfl

/-- **The step lemma.** -/
theorem accounted_step (L : Llhttp) (ha : Accounted h s) (a : SpineAction) :
    Accounted (h ++ [event (step L) s a]) (step L s a).2 := by
  cases a with
  | stop => exact ha.silent rfl rfl fun _ => rfl
  | acceptFails aborted =>
      simp only [event, step]
      split_ifs <;> exact ha.silent rfl rfl fun _ => rfl
  | accept socketOnExecutor =>
      simp only [event, step]
      split_ifs
      · exact ha.silent rfl rfl fun _ => rfl
      · exact ha.silent rfl rfl fun _ => rfl
      · refine ha.record rfl rfl ?_ ?_
        · rw [recordsOf_concat, if_pos rfl, recordsOf, List.getElem?_eq_none le_rfl]
          rfl
        · intro j hj
          rw [recordsOf_concat, if_neg hj]
  | handle k wakeup =>
      cases hk : s.connections[k]? with
      | none =>
          simp only [event, step, hk]
          exact ha.silent rfl rfl fun _ => rfl
      | some phase =>
          have hprogress := progress_advance L s.worker phase wakeup
          simp only [event, step, hk]
          generalize advance L s.worker phase wakeup = next at hprogress ⊢
          cases hprogress with
          | silent hrecords hshard =>
              refine ha.silent rfl hshard ?_
              intro j
              rw [recordsOf_set _ hk]
              split_ifs with hj
              · rw [hj, recordsOf_of_getElem? hk, hrecords]
              · rfl
          | counted hrecords =>
              refine ha.record rfl rfl ?_ ?_
              · rw [recordsOf_set _ hk, if_pos rfl, recordsOf_of_getElem? hk, hrecords]
              · intro j hj
                rw [recordsOf_set _ hk, if_neg hj]
  | reloadRouteConfig snapshot => exact ha.silent rfl rfl fun _ => rfl
  | elsewhere metrics =>
      simp only [event, step]
      split_ifs with hshard
      · exact ha.silent rfl hshard fun _ => rfl
      · exact ha.silent rfl rfl fun _ => rfl

variable (L : Llhttp) (w : Worker)

def reached (actions : List SpineAction) : RuntimeSpine :=
  final (step L) (start w) actions

def history (actions : List SpineAction) : List SpineEvent :=
  trace (step L) (start w) actions

theorem accounted_reached (actions : List SpineAction) :
    Accounted (history L w actions) (reached L w actions) :=
  invariant_trace (accounted_start w) (fun _ _ a ha => accounted_step L ha a) actions

/-! ## The counters are sums over the connections -/

/-- Nothing is recorded for a connection that there is not. -/
lemma Accounted.known (ha : Accounted h s) :
    ∀ entry ∈ ledger h, entry.1 < s.connections.length := by
  intro entry hentry
  by_contra hge
  have hrecorded := ha.recorded entry.1
  rw [recordsOf, List.getElem?_eq_none (not_lt.mp hge), Option.map_none, Option.getD_none,
    List.map_eq_nil_iff, List.filter_eq_nil_iff] at hrecorded
  exact hrecorded entry hentry (decide_eq_true rfl)

lemma Accounted.tally_eq (ha : Accounted h s) (c : Counter) (k : ℕ) :
    Ledger.tally (MetricsRecord.amount c) (ledger h) k
      = ((s.recordsOf k).map (MetricsRecord.amount c)).sum := by
  rw [← ha.recorded k, List.map_map]
  rfl

lemma Accounted.total_eq (ha : Accounted h s) (c : Counter) :
    Ledger.total (MetricsRecord.amount c) (ledger h) = (s.connections.map (Phase.charge c)).sum := by
  refine Ledger.total_eq_sum ha.known ?_
  intro k phase hk
  rw [ha.tally_eq, recordsOf_of_getElem? hk]
  rfl

end RuntimeSpine

/-! ## What a connection contributes -/

namespace Phase

variable (phase : Phase)

/-- Accept, request and response add up. -/
lemma charge_eq (c : Counter) :
    phase.charge c = MetricsRecord.amount c .accept
      + (phase.requestView.map fun v =>
          MetricsRecord.amount c (.request v.length.toUInt64)).getD 0
      + (phase.writtenResponse.map fun r =>
          MetricsRecord.amount c (.response r.statusCode r.payload.length.toUInt64)).getD 0 := by
  rw [charge, records]
  cases phase.requestView <;> cases phase.writtenResponse <;> simp [Nat.add_assoc]

lemma charge_accepts : phase.charge .accepts = 1 := by
  rw [charge_eq]
  cases phase.requestView <;> cases phase.writtenResponse <;> rfl

lemma charge_requests : phase.charge .requests = if phase.requestView.isSome then 1 else 0 := by
  rw [charge_eq]
  cases phase.requestView <;> cases phase.writtenResponse <;> rfl

lemma statusCode_mem {r : Response} (h : phase.writtenResponse = some r) :
    r.statusCode ∈ [200, 400, 404, 405, 500] := by
  cases phase with
  | written requestView built => exact Option.some.inj h ▸ built.statusCode_mem
  | _ => exact absurd h (by simp [writtenResponse])

/-- Every status code that is sent has a counter, and only one. -/
lemma charge_responses :
    phase.charge .responses2xx + phase.charge .responses4xx + phase.charge .responses5xx
      = if phase.writtenResponse.isSome then 1 else 0 := by
  rw [charge_eq, charge_eq, charge_eq]
  cases hr : phase.writtenResponse with
  | none => cases phase.requestView <;> rfl
  | some r =>
      have hstatus := phase.statusCode_mem hr
      simp only [List.mem_cons, List.not_mem_nil, or_false] at hstatus
      cases phase.requestView <;> rcases hstatus with h | h | h | h | h <;>
        simp [h, MetricsRecord.amount]

/-- A response belongs to a request. -/
lemma requestView_of_written (h : phase.writtenResponse.isSome) : phase.requestView.isSome := by
  cases phase with
  | written requestView built => rfl
  | _ => exact absurd h (by simp [writtenResponse])

lemma charge_bytesIn : phase.charge .bytesIn = phase.bytesIn % 2 ^ 64 := by
  rw [charge_eq, bytesIn]
  cases phase.requestView <;> cases phase.writtenResponse <;>
    simp [MetricsRecord.amount, UInt64.toNat_ofNat']

lemma charge_bytesOut : phase.charge .bytesOut = phase.bytesOut % 2 ^ 64 := by
  rw [charge_eq, bytesOut]
  cases phase.requestView <;> cases phase.writtenResponse <;>
    simp [MetricsRecord.amount, UInt64.toNat_ofNat']

end Phase

lemma sum_map_ite {α : Type} (p : α → Bool) (l : List α) :
    (l.map fun a => if p a then 1 else 0).sum = l.countP p := by
  induction l with
  | nil => rfl
  | cons a l ih => rw [List.map_cons, List.sum_cons, ih, List.countP_cons, Nat.add_comm]

/-- What the counters of a shard say about the connections of its worker. -/
structure AccountsFor (shard : WorkerMetricsShard) (connections : List Phase) : Prop where
  responses : shard.responses2xxTotal.toNat + shard.responses4xxTotal.toNat
      + shard.responses5xxTotal.toNat
    = connections.countP fun phase => phase.writtenResponse.isSome
  requests : shard.requestsTotal.toNat
    = connections.countP fun phase => phase.requestView.isSome
  accepts : shard.acceptsTotal.toNat = connections.length
  responses_le_requests : shard.responses2xxTotal.toNat + shard.responses4xxTotal.toNat
      + shard.responses5xxTotal.toNat ≤ shard.requestsTotal.toNat
  requests_le_accepts : shard.requestsTotal.toNat ≤ shard.acceptsTotal.toNat
  bytesIn : shard.bytesInTotal.toNat = (connections.map Phase.bytesIn).sum
  bytesOut : shard.bytesOutTotal.toNat = (connections.map Phase.bytesOut).sum

namespace RuntimeSpine

variable {h : List SpineEvent} {s : RuntimeSpine} {shard : WorkerMetricsShard}

/-- A counter is the sum over the connections, as long as this fits. -/
lemma get_eq_sum {c : Counter}
    (hcounted : (c.get shard).toNat ≡ (s.connections.map (Phase.charge c)).sum [MOD 2 ^ 64])
    (hfits : (s.connections.map (Phase.charge c)).sum < 2 ^ 64) :
    (c.get shard).toNat = (s.connections.map (Phase.charge c)).sum :=
  hcounted.eq_of_lt_of_lt (c.get shard).toNat_lt hfits

lemma get_eq_sum_bytes {c : Counter} {bytes : Phase → ℕ}
    (hcharge : ∀ phase : Phase, phase.charge c = bytes phase % 2 ^ 64)
    (hcounted : (c.get shard).toNat ≡ (s.connections.map (Phase.charge c)).sum [MOD 2 ^ 64])
    (hfits : (s.connections.map bytes).sum < 2 ^ 64) :
    (c.get shard).toNat = (s.connections.map bytes).sum := by
  have hmod : (s.connections.map (Phase.charge c)).sum
      ≡ (s.connections.map bytes).sum [MOD 2 ^ 64] := by
    rw [Nat.ModEq, (s.connections.map bytes).sum_nat_mod, List.map_map]
    exact congrArg (fun l => l.sum % 2 ^ 64) (List.map_congr_left fun phase _ => hcharge phase)
  exact (hcounted.trans hmod).eq_of_lt_of_lt (c.get shard).toNat_lt hfits

lemma sum_charge_accepts (connections : List Phase) :
    (connections.map (Phase.charge .accepts)).sum = connections.length := by
  have hone : connections.map (Phase.charge .accepts) = connections.map fun _ => 1 :=
    List.map_congr_left fun phase _ => phase.charge_accepts
  rw [hone]
  simp

lemma sum_charge_requests (connections : List Phase) :
    (connections.map (Phase.charge .requests)).sum
      = connections.countP fun phase => phase.requestView.isSome := by
  rw [← sum_map_ite]
  exact congrArg List.sum (List.map_congr_left fun phase _ => phase.charge_requests)

lemma sum_charge_responses (connections : List Phase) :
    (connections.map (Phase.charge .responses2xx)).sum
        + (connections.map (Phase.charge .responses4xx)).sum
        + (connections.map (Phase.charge .responses5xx)).sum
      = connections.countP fun phase => phase.writtenResponse.isSome := by
  rw [← List.sum_map_add, ← List.sum_map_add, ← sum_map_ite]
  exact congrArg List.sum (List.map_congr_left fun phase _ => phase.charge_responses)

/-- What agrees with the connections modulo `2 ^ 64` accounts for them, if everything fits. -/
lemma accountsFor_of_modEq
    (hcounted : ∀ c : Counter,
      (c.get shard).toNat ≡ (s.connections.map (Phase.charge c)).sum [MOD 2 ^ 64])
    (hevents : s.connections.length < 2 ^ 64)
    (hbytesIn : (s.connections.map Phase.bytesIn).sum < 2 ^ 64)
    (hbytesOut : (s.connections.map Phase.bytesOut).sum < 2 ^ 64) :
    AccountsFor shard s.connections := by
  have hcountRequests : (s.connections.countP fun phase => phase.requestView.isSome)
      ≤ s.connections.length := List.countP_le_length
  have hcountResponses : (s.connections.countP fun phase => phase.writtenResponse.isSome)
      ≤ s.connections.countP fun phase => phase.requestView.isSome :=
    List.countP_mono_left fun phase _ => phase.requestView_of_written
  have hsumAccepts := sum_charge_accepts s.connections
  have hsumRequests := sum_charge_requests s.connections
  have hsumResponses := sum_charge_responses s.connections
  have haccepts := get_eq_sum (hcounted .accepts) (by omega)
  have hrequests := get_eq_sum (hcounted .requests) (by omega)
  have h2xx := get_eq_sum (hcounted .responses2xx) (by omega)
  have h4xx := get_eq_sum (hcounted .responses4xx) (by omega)
  have h5xx := get_eq_sum (hcounted .responses5xx) (by omega)
  simp only [Counter.get] at haccepts hrequests h2xx h4xx h5xx
  exact
    { responses := by omega
      requests := by omega
      accepts := by omega
      responses_le_requests := by omega
      requests_le_accepts := by omega
      bytesIn := get_eq_sum_bytes Phase.charge_bytesIn (hcounted .bytesIn) hbytesIn
      bytesOut := get_eq_sum_bytes Phase.charge_bytesOut (hcounted .bytesOut) hbytesOut }

/-- A connection adds at most one to the accepts, to the requests and to the responses. -/
def AddsAtMostOne (entries : List (ℕ × MetricsRecord)) (k : ℕ) : Prop :=
  Ledger.tally (MetricsRecord.amount .accepts) entries k ≤ 1 ∧
    Ledger.tally (MetricsRecord.amount .requests) entries k ≤ 1 ∧
    Ledger.tally (MetricsRecord.amount .responses2xx) entries k
      + Ledger.tally (MetricsRecord.amount .responses4xx) entries k
      + Ledger.tally (MetricsRecord.amount .responses5xx) entries k ≤ 1

lemma Accounted.addsAtMostOne (ha : Accounted h s) (k : ℕ) : AddsAtMostOne (ledger h) k := by
  rw [AddsAtMostOne]
  simp only [ha.tally_eq]
  cases hk : s.connections[k]? with
  | none => simp [recordsOf, hk]
  | some phase =>
      rw [recordsOf_of_getElem? hk]
      refine ⟨phase.charge_accepts.le, ?_, ?_⟩
      · refine phase.charge_requests.trans_le ?_
        split_ifs <;> omega
      · refine phase.charge_responses.trans_le ?_
        split_ifs <;> omega

/-- **The metrics account for every connection.**  In every state that is reached, whatever the
connections do and in whatever order: the responses that are counted are those that were written,
there are no more of them than requests, and no more requests than accepts; the bytes are those of
the counted requests and of the written responses.  A counter has only what the connections have
added to it, and none of them has added more than one. -/
theorem connections_accounted (L : Llhttp) (w : Worker) (actions : List SpineAction)
    (hevents : (reached L w actions).connections.length < 2 ^ 64)
    (hbytesIn : ((reached L w actions).connections.map Phase.bytesIn).sum < 2 ^ 64)
    (hbytesOut : ((reached L w actions).connections.map Phase.bytesOut).sum < 2 ^ 64) :
    ∃ shard, (reached L w actions).worker.shard = some shard ∧
      AccountsFor shard (reached L w actions).connections ∧
      (∀ c : Counter, (c.get shard).toNat
        = Ledger.total (MetricsRecord.amount c) (ledger (history L w actions)) % 2 ^ 64) ∧
      ∀ k, AddsAtMostOne (ledger (history L w actions)) k := by
  have ha := accounted_reached L w actions
  obtain ⟨shard, hshard, hcounted⟩ := ha.counted
  refine ⟨shard, hshard, ?_, ?_, ha.addsAtMostOne⟩
  · refine accountsFor_of_modEq ?_ hevents hbytesIn hbytesOut
    intro c
    rw [← ha.total_eq c]
    exact hcounted c
  · intro c
    have hmod := hcounted c
    rwa [Nat.ModEq, Nat.mod_eq_of_lt (c.get shard).toNat_lt] at hmod

/-- Two connections take turns; the second one cannot be answered. -/
def twoConnections : List SpineAction :=
  [.accept true, .handle 0 (.start true true), .accept true,
    .handle 0 (.read [.data requestRoot]), .handle 1 (.start true true),
    .handle 1 (.read [.data requestRoot]), .handle 0 (.resume true), .handle 1 (.resume true),
    .handle 1 (.resume false), .handle 0 (.resume true), .handle 0 (.write true)]

theorem connections_accounted_two :
    ∃ shard, (reached llhttpOnRoot defaultWorker twoConnections).worker.shard = some shard ∧
      shard.responses2xxTotal.toNat + shard.responses4xxTotal.toNat
        + shard.responses5xxTotal.toNat = 1 ∧
      shard.requestsTotal.toNat = 2 ∧ shard.bytesInTotal.toNat = 54 := by
  obtain ⟨shard, hshard, haccounts, -, -⟩ := connections_accounted llhttpOnRoot defaultWorker
    twoConnections (by decide +kernel) (by decide +kernel) (by decide +kernel)
  refine ⟨shard, hshard, ?_, ?_, ?_⟩
  · rw [haccounts.responses]
    decide +kernel
  · rw [haccounts.requests]
    decide +kernel
  · rw [haccounts.bytesIn]
    decide +kernel

end RuntimeSpine

end Netp2.Runtime
