import Netp2.Upstream.PoolCustody

/-!
# The limit for a host

`max_connections_per_host` is compared with the size of a pool, when a connection is returned.  It
is not looked at when a connection is made, and `kPoolExhausted` is never returned
(`step_ne_kPoolExhausted`).  So what it bounds is the idle connections of a host, not the live ones.

`limit_kept_iff` says which steps exceed it: a new connection for a host that has its full number,
and the return of a connection that was borrowed for another host.
-/

namespace Netp2.Upstream

open ByteString StepRun

namespace PoolSystem

/-- The live connections of a host and port: those idle in its pool and those lent out for it. -/
def live (s : PoolSystem) (host : ByteString) (port : UInt16) : ℕ :=
  (s.pool.pools (makePoolKey host port)).length
    + s.leases.countP fun lease => decide (lease.host = host ∧ lease.port = port)

/-- The steps that give a host and port one more connection. -/
inductive Adds (s : PoolSystem) (host : ByteString) (port : UInt16) : Action → Prop
  | connect {k now} (hk : s.pending[k]? = some (host, port)) :
      Adds s host port (.connect k .connected now)
  | misdirected {i isOpen lastUsedTime now lease} (hi : s.leases[i]? = some lease)
      (hother : ¬(lease.host = host ∧ lease.port = port))
      (hhealthy : { lease.conn with isOpen := isOpen, lastUsedTime := lastUsedTime }.checkHealth
        s.pool.config.idleTimeout now = .kHealthy)
      (hfits : (s.pool.pools (makePoolKey host port)).length
        < s.pool.config.maxConnectionsPerHost.toNat) :
      Adds s host port (.giveBack i host port isOpen lastUsedTime now)

variable {s s' : PoolSystem} {host : ByteString} {port : UInt16}

lemma length_setPool (pool : List UpstreamConnection) (h : ByteString) (p : UInt16) :
    ((s.pool.setPool (makePoolKey h p) pool).pools (makePoolKey host port)).length
      = if h = host ∧ p = port then pool.length
        else (s.pool.pools (makePoolKey host port)).length := by
  by_cases heq : h = host ∧ p = port
  · obtain ⟨rfl, rfl⟩ := heq
    simp
  · have hkey : makePoolKey host port ≠ makePoolKey h p := by
      intro hkey
      obtain ⟨rfl, rfl⟩ := makePoolKey_injective hkey
      exact heq ⟨rfl, rfl⟩
    simp [heq, hkey]

lemma Loses.live_le (h : Loses s s') (host : ByteString) (port : UInt16) :
    s'.live host port ≤ s.live host port :=
  Nat.add_le_add (h.pools _).length_le h.leases.countP_le

/-- A lease is given up. -/
lemma countP_eraseIdx {i : ℕ} {lease : Lease} (hi : s.leases[i]? = some lease)
    (p : Lease → Bool) :
    s.leases.countP p = (s.leases.eraseIdx i).countP p + if p lease then 1 else 0 := by
  obtain ⟨hlt, rfl⟩ := List.getElem?_eq_some_iff.mp hi
  rw [← (List.getElem_cons_eraseIdx_perm hlt).countP_eq, List.countP_cons]

/-! ## What a step adds -/

/-- What is lent from a pool has left it. -/
lemma live_reuse {h : ByteString} {p : UInt16} {skipped rest : List UpstreamConnection}
    {conn conn' : UpstreamConnection}
    (hpool : s.pool.pools (makePoolKey h p) = skipped ++ conn :: rest) :
    ({ s with
        pool := s.pool.setPool (makePoolKey h p) rest
        leases := ⟨h, p, conn'⟩ :: s.leases } : PoolSystem).live host port ≤ s.live host port := by
  rw [live, live, length_setPool, List.countP_cons]
  by_cases heq : h = host ∧ p = port
  · obtain ⟨rfl, rfl⟩ := heq
    simp only [hpool, List.length_append, List.length_cons, and_self, if_true, decide_true]
    omega
  · simp only [heq, if_false, decide_false, Bool.false_eq_true, Nat.add_zero, le_refl]

/-- A new connection is lent at once. -/
lemma live_lend (h : ByteString) (p : UInt16) (conn : UpstreamConnection)
    (pending : List (ByteString × UInt16)) (nextSocket : ℕ) :
    ({ s with
        pending := pending
        leases := ⟨h, p, conn⟩ :: s.leases
        nextSocket := nextSocket } : PoolSystem).live host port
      = s.live host port + if h = host ∧ p = port then 1 else 0 := by
  rw [live, live, List.countP_cons, Nat.add_assoc]
  by_cases heq : h = host ∧ p = port <;> simp [heq]

/-- What is kept is idle for one upstream, and no longer lent for another or the same. -/
lemma live_keep {i : ℕ} {lease : Lease} (hi : s.leases[i]? = some lease) (h : ByteString)
    (p : UInt16) (conn : UpstreamConnection) (host : ByteString) (port : UInt16) :
    ({ s with
        pool := s.pool.setPool (makePoolKey h p) (conn :: s.pool.pools (makePoolKey h p))
        leases := s.leases.eraseIdx i } : PoolSystem).live host port
        + (if lease.host = host ∧ lease.port = port then 1 else 0)
      = s.live host port + if h = host ∧ p = port then 1 else 0 := by
  have hcount := countP_eraseIdx hi fun lease => decide (lease.host = host ∧ lease.port = port)
  simp only [decide_eq_true_eq] at hcount
  rw [live, live, length_setPool, hcount]
  by_cases heq : h = host ∧ p = port
  · obtain ⟨rfl, rfl⟩ := heq
    simp only [and_self, if_true, List.length_cons]
    omega
  · simp only [heq, if_false]
    omega

/-- **The step lemma.**  A step adds at most one connection, and only if it is one that adds. -/
theorem live_transition {a : Action} {o : Option BorrowResult} (ht : Transition s a o s')
    (host : ByteString) (port : UInt16) :
    (s'.live host port ≤ s.live host port ∧ ¬Adds s host port a) ∨
      (s'.live host port = s.live host port + 1 ∧ Adds s host port a) := by
  cases ht with
  | reuse hpool => exact Or.inl ⟨live_reuse hpool, nofun⟩
  | wait =>
      exact Or.inl ⟨(loses_setPool (List.nil_sublist _) _).live_le host port, nofun⟩
  | @connect k h p now hk =>
      rw [live_lend]
      split_ifs with heq
      · obtain ⟨rfl, rfl⟩ := heq
        exact Or.inr ⟨rfl, Adds.connect hk⟩
      · refine Or.inl ⟨le_rfl, ?_⟩
        intro hadds
        cases hadds with
        | connect hk' =>
            obtain ⟨rfl, rfl⟩ := Prod.mk.inj (Option.some.inj (hk.symm.trans hk'))
            exact heq ⟨rfl, rfl⟩
  | connectFails houtcome =>
      refine Or.inl ⟨(loses_socket _).live_le host port, ?_⟩
      intro hadds
      cases hadds
      exact houtcome rfl
  | @keep i h p isOpen lastUsedTime now lease hi hhealthy hfits =>
      have hlive := live_keep hi h p
        { lease.conn with isOpen := isOpen, lastUsedTime := lastUsedTime } host port
      split_ifs at hlive with hown heq heq
      · refine Or.inl ⟨by omega, ?_⟩
        intro hadds
        cases hadds with
        | misdirected hi' hother =>
            obtain rfl := Option.some.inj (hi.symm.trans hi')
            exact hother hown
      · refine Or.inl ⟨by omega, ?_⟩
        intro hadds
        cases hadds
        exact heq ⟨rfl, rfl⟩
      · obtain ⟨rfl, rfl⟩ := heq
        exact Or.inr ⟨hlive, Adds.misdirected hi hown hhealthy hfits⟩
      · refine Or.inl ⟨hlive.le, ?_⟩
        intro hadds
        cases hadds
        exact heq ⟨rfl, rfl⟩
  | discard hgone =>
      refine Or.inl ⟨(loses_eraseIdx _).live_le host port, ?_⟩
      intro hadds
      cases hadds with
      | misdirected hi _ hhealthy hfits =>
          rcases hgone _ hi with hunhealthy | hfull
          · exact hunhealthy hhealthy
          · exact absurd hfits (not_lt.mpr hfull)
  | drop => exact Or.inl ⟨(loses_eraseIdx _).live_le host port, nofun⟩
  | cleanup => exact Or.inl ⟨(loses_cleanup _).live_le host port, nofun⟩
  | nobody hk =>
      refine Or.inl ⟨le_rfl, ?_⟩
      intro hadds
      cases hadds with
      | connect hk' => exact absurd (hk.symm.trans hk') (by simp)

/-- No step answers that the pool is exhausted. -/
lemma step_ne_kPoolExhausted (s : PoolSystem) (a : Action) (conn : Option UpstreamConnection) :
    (s.step a).1 ≠ some (conn, .kPoolExhausted) := by
  intro h
  have ht := transition_step s a
  rw [h] at ht
  generalize (s.step a).2 = s' at ht
  cases ht with
  | connectFails _ herror => exact absurd herror (by decide)

/-! ## A run -/

/-- The limit is kept in every state, and a new connection that would exceed it is refused. -/
def LimitKept (config : UpstreamConfig) (actions : List Action) : Prop :=
  ∀ e ∈ history config actions, ∀ host port,
    e.post.live host port ≤ config.maxConnectionsPerHost.toNat ∧
      ∀ k now, e.input = .connect k .connected now → e.pre.pending[k]? = some (host, port) →
        config.maxConnectionsPerHost.toNat ≤ e.pre.live host port →
          e.output = some (none, .kPoolExhausted)

/-- Whatever adds a connection for a host and port finds less than the full number. -/
def AddsWithinLimit (config : UpstreamConfig) (actions : List Action) : Prop :=
  ∀ e ∈ history config actions, ∀ host port, Adds e.pre host port e.input →
    e.pre.live host port < config.maxConnectionsPerHost.toNat

variable {config : UpstreamConfig} {actions : List Action}

lemma transition_of_mem_history {e : PoolEvent} (he : e ∈ history config actions) :
    Transition e.pre e.input e.output e.post := by
  obtain ⟨before, a, after, rfl, rfl⟩ := mem_trace he
  exact transition_step _ a

lemma AddsWithinLimit.of_append {more : List Action}
    (h : AddsWithinLimit config (actions ++ more)) : AddsWithinLimit config actions := by
  intro e he
  refine h e ?_
  rw [history, trace_append]
  exact List.mem_append_left _ he

/-- **The run lemma.** -/
theorem AddsWithinLimit.live_le (h : AddsWithinLimit config actions) (host : ByteString)
    (port : UInt16) :
    (reached config actions).live host port ≤ config.maxConnectionsPerHost.toNat := by
  induction actions using List.reverseRecOn with
  | nil => exact Nat.zero_le _
  | append_singleton actions a ih =>
      have hpre := ih h.of_append
      have hevent : event step (reached config actions) a ∈ history config (actions ++ [a]) :=
        event_mem_trace (new config) actions a []
      rw [reached, final_concat, ← reached]
      rcases live_transition (transition_step (reached config actions) a) host port with
        ⟨hle, -⟩ | ⟨heq, hadds⟩
      · exact hle.trans hpre
      · rw [heq]
        exact h _ hevent host port hadds

end PoolSystem

open PoolSystem

/-- **When the limit bounds the live connections.**  In a run, exactly when no connection is made
for a host and port that has its full number, and none borrowed for another upstream is returned to
it then. -/
theorem limit_kept_iff (config : UpstreamConfig) (actions : List Action) :
    LimitKept config actions ↔ AddsWithinLimit config actions := by
  constructor
  · intro hkept e he host port hadds
    have hle := (hkept e he host port).1
    rcases live_transition (transition_of_mem_history he) host port with ⟨-, hno⟩ | ⟨heq, -⟩
    · exact absurd hadds hno
    · rw [heq] at hle
      exact hle
  · intro hwithin e he host port
    refine ⟨?_, ?_⟩
    · obtain ⟨before, a, after, rfl, rfl⟩ := mem_trace he
      have hall : AddsWithinLimit config ((before ++ [a]) ++ after) := by
        rwa [List.append_assoc]
      have hle := hall.of_append.live_le host port
      rwa [reached, final_concat] at hle
    · intro k now hinput hk hfull
      have hadds : Adds e.pre host port e.input := hinput ▸ Adds.connect hk
      exact absurd (hwithin e he host port hadds) (not_lt.mpr hfull)

/-- One borrower has a connection, another waits. -/
def twoBorrowers : List Action :=
  [.borrow (ascii "a") 80 (fun _ => 0), .connect 0 .connected 1,
    .borrow (ascii "a") 80 (fun _ => 2)]

/-- With a limit of one, the second borrower gets a connection as well. -/
theorem limit_exceeded :
    ((reached { maxConnectionsPerHost := 1 } twoBorrowers).step (.connect 0 .connected 3)).1
        = some (some ⟨1, true, 3⟩, .kSuccess) ∧
      (reached { maxConnectionsPerHost := 1 }
        (twoBorrowers ++ [.connect 0 .connected 3])).live (ascii "a") 80 = 2 ∧
      ¬LimitKept { maxConnectionsPerHost := 1 } (twoBorrowers ++ [.connect 0 .connected 3]) := by
  have hlive : (reached { maxConnectionsPerHost := 1 }
      (twoBorrowers ++ [.connect 0 .connected 3])).live (ascii "a") 80 = 2 := by
    decide +kernel
  refine ⟨by decide +kernel, hlive, ?_⟩
  intro hkept
  have hle := (hkept _ (event_mem_trace _ twoBorrowers _ []) (ascii "a") 80).1
  have hpost : (event step (reached { maxConnectionsPerHost := 1 } twoBorrowers)
      (.connect 0 .connected 3)).post.live (ascii "a") 80 = 2 := hlive
  exact absurd (hpost.symm.trans_le hle) (by decide)

end Netp2.Upstream
