import Netp2.Upstream.PoolCustody

/-!
# Healthy and unhealthy connections in a pool

Every operation on a pool asks `check_health` about some of its connections: `borrow_connection`
about those on top, until it finds a healthy one, and `cleanup_idle_connections` about all.  Here
all clock readings of an operation are the same `t`, so that a connection is healthy or it is not
(`HealthyAt`).

* A borrower gets the topmost healthy connection; the unhealthy ones above it are gone, and what is
  below stays as it is (`borrow_takes_healthy`).
* Cleaning up does not change what a borrower gets (`cleanup_commutes`): the connections it removes
  are those that borrowing skips.
* Only `return_connection` does not ask about the connections that are in the pool.  It counts the
  unhealthy ones with the others, and destroys a healthy connection for their sake
  (`keeps_live_iff`).
-/

namespace Netp2.Upstream

open ByteString StepRun

/-- The socket is open, and the last use is at most `idle_timeout` milliseconds ago, where a
fraction of a millisecond is not counted. -/
def UpstreamConnection.HealthyAt (idleTimeout t : ℤ) (c : UpstreamConnection) : Prop :=
  c.isOpen = true ∧ (t - c.lastUsedTime).tdiv (10 ^ 6) ≤ idleTimeout

instance (idleTimeout t : ℤ) (c : UpstreamConnection) : Decidable (c.HealthyAt idleTimeout t) :=
  inferInstanceAs (Decidable (_ ∧ _))

namespace UpstreamConnection

lemma checkHealth_eq_kHealthy (c : UpstreamConnection) (idleTimeout t : ℤ) :
    c.checkHealth idleTimeout t = .kHealthy ↔ c.HealthyAt idleTimeout t := by
  simp only [checkHealth, HealthyAt]
  split_ifs with hidle hopen
  · exact ⟨fun h => absurd h (by simp), fun h => absurd h.2 (not_le.mpr hidle)⟩
  · refine ⟨fun h => absurd h (by simp), ?_⟩
    rintro ⟨h, _⟩
    simp [h] at hopen
  · refine ⟨fun _ => ⟨?_, not_lt.mp hidle⟩, fun _ => rfl⟩
    simpa using hopen

end UpstreamConnection

open UpstreamConnection

/-! ## The topmost healthy connection -/

section Topmost

variable {idleTimeout t : ℤ}

/-- A pool has a topmost healthy connection, or no healthy one. -/
lemma topmost_cases (idleTimeout t : ℤ) (pool : List UpstreamConnection) :
    (∃ above conn below, pool = above ++ conn :: below ∧
        (∀ c ∈ above, ¬c.HealthyAt idleTimeout t) ∧ conn.HealthyAt idleTimeout t) ∨
      ∀ c ∈ pool, ¬c.HealthyAt idleTimeout t := by
  induction pool with
  | nil => exact Or.inr (by simp)
  | cons c pool ih =>
      by_cases hc : c.HealthyAt idleTimeout t
      · exact Or.inl ⟨[], c, pool, rfl, by simp, hc⟩
      · rcases ih with ⟨above, conn, below, rfl, habove, hconn⟩ | hnone
        · exact Or.inl ⟨c :: above, conn, below, rfl, by simpa [hc] using habove, hconn⟩
        · exact Or.inr (by simpa [hc] using hnone)

namespace ConnectionPool

lemma takeHealthy_of_topmost {above : List UpstreamConnection} {conn : UpstreamConnection}
    (below : List UpstreamConnection) (habove : ∀ c ∈ above, ¬c.HealthyAt idleTimeout t)
    (hconn : conn.HealthyAt idleTimeout t) :
    takeHealthy idleTimeout (fun _ => t) (above ++ conn :: below)
      = (some (conn.markUsed t), below) := by
  induction above with
  | nil => simp [takeHealthy, checkHealth_eq_kHealthy, hconn]
  | cons c above ih =>
      have hc : ¬c.HealthyAt idleTimeout t := habove c (by simp)
      simp only [List.cons_append, takeHealthy, checkHealth_eq_kHealthy, hc, if_false]
      exact ih fun x hx => habove x (by simp [hx])

lemma takeHealthy_of_none {pool : List UpstreamConnection}
    (h : ∀ c ∈ pool, ¬c.HealthyAt idleTimeout t) :
    takeHealthy idleTimeout (fun _ => t) pool = (none, []) := by
  induction pool with
  | nil => rfl
  | cons c pool ih =>
      have hc : ¬c.HealthyAt idleTimeout t := h c (by simp)
      simp only [takeHealthy, checkHealth_eq_kHealthy, hc, if_false]
      exact ih fun x hx => h x (by simp [hx])

end ConnectionPool

end Topmost

/-! ## Borrowing -/

namespace PoolSystem

variable (s : PoolSystem) (host : ByteString) (port : UInt16) (t : ℤ)

/-- The idle connections for a host and port, the most recently returned one first. -/
def idle : List UpstreamConnection :=
  s.pool.pools (makePoolKey host port)

/-- Healthy by the configuration of the pool. -/
def Healthy (c : UpstreamConnection) : Prop :=
  c.HealthyAt s.pool.config.idleTimeout t

instance (c : UpstreamConnection) : Decidable (s.Healthy t c) :=
  inferInstanceAs (Decidable (c.HealthyAt _ _))

variable {s host port t}

end PoolSystem

open PoolSystem

lemma filter_topmost {idleTimeout t : ℤ} {above below : List UpstreamConnection}
    {conn : UpstreamConnection} (habove : ∀ c ∈ above, ¬c.HealthyAt idleTimeout t)
    (hconn : conn.HealthyAt idleTimeout t) :
    (above ++ conn :: below).filter (fun c => c.HealthyAt idleTimeout t)
      = conn :: below.filter fun c => c.HealthyAt idleTimeout t := by
  have hgone : above.filter (fun c => c.HealthyAt idleTimeout t) = [] :=
    List.filter_eq_nil_iff.mpr (by simpa using habove)
  simp [hgone, hconn]

namespace ConnectionPool

variable (p : ConnectionPool) (t : ℤ)

/-- Cleaning up keeps the healthy connections of every pool. -/
lemma cleanup_eq : p.cleanupIdleConnections (fun _ => t) = { p with
    pools := fun poolKey =>
      (p.pools poolKey).filter fun c => c.HealthyAt p.config.idleTimeout t } := by
  rw [cleanupIdleConnections]
  congr 1
  funext poolKey
  refine List.filter_congr ?_
  intro c _
  rw [decide_eq_decide, checkHealth_eq_kHealthy]

/-- One pool may be cleaned before it is put in its place. -/
lemma cleanup_setPool (poolKey : ByteString) (pool : List UpstreamConnection) :
    (p.setPool poolKey pool).cleanupIdleConnections (fun _ => t)
      = (p.cleanupIdleConnections fun _ => t).setPool poolKey
          (pool.filter fun c => c.HealthyAt p.config.idleTimeout t) := by
  rw [cleanup_eq, cleanup_eq, setPool, setPool]
  congr 1
  exact Function.comp_update (List.filter fun c => c.HealthyAt p.config.idleTimeout t) p.pools
    poolKey pool

/-- Cleaning up first, a borrower gets the same connection and leaves the same pools. -/
lemma takeHealthy_filter (idleTimeout : ℤ) (pool : List UpstreamConnection) :
    takeHealthy idleTimeout (fun _ => t) (pool.filter fun c => c.HealthyAt idleTimeout t)
      = ((takeHealthy idleTimeout (fun _ => t) pool).1,
        (takeHealthy idleTimeout (fun _ => t) pool).2.filter fun c =>
          c.HealthyAt idleTimeout t) := by
  rcases topmost_cases idleTimeout t pool with ⟨above, conn, below, rfl, habove, hconn⟩ | hnone
  · rw [filter_topmost habove hconn, takeHealthy_of_topmost below habove hconn]
    exact takeHealthy_of_topmost _ (List.forall_mem_nil _) hconn
  · rw [takeHealthy_of_none hnone, List.filter_eq_nil_iff.mpr (by simpa using hnone)]
    rfl

lemma borrowPooled_cleanup (host : ByteString) (port : UInt16) :
    (p.cleanupIdleConnections fun _ => t).borrowPooled host port (fun _ => t)
      = ((p.borrowPooled host port fun _ => t).1,
        (p.borrowPooled host port fun _ => t).2.cleanupIdleConnections fun _ => t) := by
  have htake := takeHealthy_filter t p.config.idleTimeout (p.pools (makePoolKey host port))
  simp only [borrowPooled, cleanup_setPool]
  rw [cleanup_eq] at *
  simp only [htake]

/-- Cleaning up twice is cleaning up once. -/
lemma cleanup_cleanup :
    (p.cleanupIdleConnections fun _ => t).cleanupIdleConnections (fun _ => t)
      = p.cleanupIdleConnections fun _ => t := by
  rw [cleanup_eq, cleanup_eq]
  simp only [List.filter_filter, Bool.and_self]

end ConnectionPool

namespace PoolSystem

/-- The state after `cleanup_idle_connections`, with one clock reading. -/
def cleanedUp (s : PoolSystem) (t : ℤ) : PoolSystem :=
  (s.step (.cleanup fun _ => t)).2

variable (s : PoolSystem) (t : ℤ)

lemma cleanedUp_pools (poolKey : ByteString) :
    (s.cleanedUp t).pool.pools poolKey = (s.pool.pools poolKey).filter fun c => s.Healthy t c := by
  rw [cleanedUp, step, ConnectionPool.cleanup_eq]
  rfl

lemma step_borrow_cleanedUp (host : ByteString) (port : UInt16) :
    (s.cleanedUp t).step (.borrow host port fun _ => t)
      = ((s.step (.borrow host port fun _ => t)).1,
        (s.step (.borrow host port fun _ => t)).2.cleanedUp t) := by
  simp only [cleanedUp, step, ConnectionPool.borrowPooled_cleanup]
  rcases s.pool.borrowPooled host port fun _ => t with ⟨_ | conn, pool⟩
  · rfl
  · rfl

/-- An attempt to connect has nothing to do with the pools. -/
lemma step_connect_cleanedUp (k : ℕ) (outcome : ConnectOutcome) (now : ℤ) :
    (s.cleanedUp t).step (.connect k outcome now)
      = ((s.step (.connect k outcome now)).1,
        (s.step (.connect k outcome now)).2.cleanedUp t) := by
  simp only [cleanedUp, step]
  cases s.pending[k]? with
  | none => rfl
  | some upstream => rfl

end PoolSystem

/-- **Cleaning up is invisible to borrowing.**  Before or after a `borrow_connection`, with the
attempt to connect that may follow it, cleaning up leads to the same answer and the same state.  It
keeps the healthy connections of every pool, in their order, and a second time it changes
nothing. -/
theorem cleanup_commutes (s : PoolSystem) (host : ByteString) (port : UInt16) (t : ℤ) :
    ((s.cleanedUp t).step (.borrow host port fun _ => t)
        = ((s.step (.borrow host port fun _ => t)).1,
          (s.step (.borrow host port fun _ => t)).2.cleanedUp t)) ∧
      (∀ k outcome now, (s.cleanedUp t).step (.connect k outcome now)
        = ((s.step (.connect k outcome now)).1,
          (s.step (.connect k outcome now)).2.cleanedUp t)) ∧
      (∀ poolKey, (s.cleanedUp t).pool.pools poolKey
        = (s.pool.pools poolKey).filter fun c => s.Healthy t c) ∧
      (s.cleanedUp t).cleanedUp t = s.cleanedUp t := by
  refine ⟨step_borrow_cleanedUp s t host port, step_connect_cleanedUp s t, cleanedUp_pools s t, ?_⟩
  simp only [cleanedUp, step, ConnectionPool.cleanup_cleanup]

/-! ## Returning -/

section Returning

variable (p : ConnectionPool) (host : ByteString) (port : UInt16) (t : ℤ)

/-- How many connections of a pool are healthy. -/
def ConnectionPool.healthyCount : ℕ :=
  (p.pools (makePoolKey host port)).countP fun c => c.HealthyAt p.config.idleTimeout t

/-- A returned connection is in its pool afterwards while fewer than `max_connections_per_host` of
the connections there are healthy. -/
def KeepsLive (conn : UpstreamConnection) : Prop :=
  p.healthyCount host port t < p.config.maxConnectionsPerHost.toNat →
    conn ∈ (p.returnConnection host port (some conn) t).pools (makePoolKey host port)

/-- The pool is at its limit only because of the unhealthy connections in it. -/
def FullOfDead : Prop :=
  p.healthyCount host port t < p.config.maxConnectionsPerHost.toNat ∧
    p.config.maxConnectionsPerHost.toNat ≤ (p.pools (makePoolKey host port)).length

instance : Decidable (FullOfDead p host port t) :=
  inferInstanceAs (Decidable (_ ∧ _))

variable {p host port t}

/-- A healthy connection is kept exactly when the pool has room, whatever is in it. -/
lemma returnConnection_kept_iff {conn : UpstreamConnection}
    (hconn : conn.HealthyAt p.config.idleTimeout t) :
    (p.returnConnection host port (some conn) t).pools (makePoolKey host port)
        = conn :: p.pools (makePoolKey host port) ↔
      (p.pools (makePoolKey host port)).length < p.config.maxConnectionsPerHost.toNat := by
  have hhealthy : conn.checkHealth p.config.idleTimeout t = .kHealthy :=
    (checkHealth_eq_kHealthy _ _ _).mpr hconn
  simp only [ConnectionPool.returnConnection, hhealthy, ne_eq, not_true_eq_false, if_false]
  split_ifs with hfull
  · simpa using hfull
  · simpa using hfull

/-- Nor is it in the pool if there is no room: the pool stays as it is. -/
lemma returnConnection_of_full (conn : Option UpstreamConnection)
    (hfull : p.config.maxConnectionsPerHost.toNat ≤ (p.pools (makePoolKey host port)).length) :
    p.returnConnection host port conn t = p := by
  cases conn with
  | none => rfl
  | some conn =>
      simp only [ConnectionPool.returnConnection, hfull, if_true, ite_self]

end Returning

namespace PoolSystem

/-- The connection of a lease, as it comes back. -/
abbrev returned (lease : Lease) (isOpen : Bool) (lastUsedTime : ℤ) : UpstreamConnection :=
  { lease.conn with isOpen := isOpen, lastUsedTime := lastUsedTime }

/-- What somebody has borrowed is in no pool. -/
lemma Invariant.returned_notMem {s : PoolSystem} (hi : Invariant s) {i : ℕ} {lease : Lease}
    (hlease : s.leases[i]? = some lease) (isOpen : Bool) (lastUsedTime : ℤ)
    (poolKey : ByteString) : returned lease isOpen lastUsedTime ∉ s.pool.pools poolKey := by
  intro hmem
  have hlent : lease.conn.socket ∈ s.held .lent :=
    List.mem_map_of_mem (List.mem_of_getElem? hlease)
  have hpooled : lease.conn.socket ∈ s.held (.pool poolKey) :=
    List.mem_map.mpr ⟨_, hmem, rfl⟩
  exact hi.exclusive.disjoint (.pool poolKey) .lent (by simp) hpooled hlent

end PoolSystem

/-- **When a dead connection displaces a live one.**  In every state that is reached: a healthy
connection that a borrower returns is in its pool afterwards, as long as fewer than the limit are
healthy there, exactly when the pool is not full of dead ones. -/
theorem keeps_live_iff (config : UpstreamConfig) (actions : List Action) (i : ℕ) (lease : Lease)
    (host : ByteString) (port : UInt16) (isOpen : Bool) (lastUsedTime t : ℤ)
    (hlease : (reached config actions).leases[i]? = some lease)
    (hhealthy : (returned lease isOpen lastUsedTime).HealthyAt config.idleTimeout t) :
    KeepsLive (reached config actions).pool host port t (returned lease isOpen lastUsedTime) ↔
      ¬FullOfDead (reached config actions).pool host port t := by
  have hi := invariant_reached config actions
  rw [← reached_config config actions] at hhealthy
  constructor
  · rintro hkeeps ⟨hfew, hfull⟩
    have hkept := hkeeps hfew
    rw [returnConnection_of_full _ hfull] at hkept
    exact hi.returned_notMem hlease isOpen lastUsedTime _ hkept
  · intro hdead hfew
    have hroom := not_le.mp fun hfull => hdead ⟨hfew, hfull⟩
    rw [(returnConnection_kept_iff hhealthy).mpr hroom]
    exact List.mem_cons_self

/-- The first connection is lent out for longer than the second; it expires in the pool. -/
def expiredInPool : List Action :=
  [.borrow (ascii "a") 80 (fun _ => 0), .connect 0 .connected 0,
    .borrow (ascii "a") 80 (fun _ => 50000000000), .connect 0 .connected 50000000000,
    .giveBack 1 (ascii "a") 80 true 0 50000000000]

/-- With a limit of two, the second connection comes to lie on the expired one. -/
theorem keeps_live_expired :
    (reached { maxConnectionsPerHost := 2 } expiredInPool).idle (ascii "a") 80
        = [⟨0, true, 0⟩] ∧
      ¬(⟨0, true, 0⟩ : UpstreamConnection).HealthyAt 60000 70000000000 ∧
      KeepsLive (reached { maxConnectionsPerHost := 2 } expiredInPool).pool (ascii "a") 80
        70000000000 ⟨1, true, 50000000000⟩ :=
  ⟨by decide +kernel, by decide,
    (keeps_live_iff { maxConnectionsPerHost := 2 } expiredInPool 0
      ⟨ascii "a", 80, ⟨1, true, 50000000000⟩⟩ (ascii "a") 80 true 50000000000 70000000000
      (by decide +kernel) (by decide)).mpr (by decide +kernel)⟩

/-- **A dead connection displaces a live one**: with a limit of one and nothing healthy in the pool,
the second connection is destroyed after it was used for 20 seconds. -/
theorem live_connection_displaced :
    (⟨1, true, 50000000000⟩ : UpstreamConnection).HealthyAt 60000 70000000000 ∧
      (reached { maxConnectionsPerHost := 1 } expiredInPool).leases
        = [⟨ascii "a", 80, ⟨1, true, 50000000000⟩⟩] ∧
      ((reached { maxConnectionsPerHost := 1 } expiredInPool).step
        (.giveBack 0 (ascii "a") 80 true 50000000000 70000000000)).2.idle (ascii "a") 80
          = [⟨0, true, 0⟩] ∧
      ¬KeepsLive (reached { maxConnectionsPerHost := 1 } expiredInPool).pool (ascii "a") 80
        70000000000 ⟨1, true, 50000000000⟩ := by
  refine ⟨by decide, by decide +kernel, by decide +kernel, ?_⟩
  intro hkeeps
  have hkept := hkeeps (by decide +kernel)
  revert hkept
  decide +kernel

end Netp2.Upstream
