import Netp2.Library.LastWrite
import Netp2.Upstream.PoolHealth

/-!
# From when a connection is idle

`idle_timeout` is the time that a connection may lie idle in its pool.  But the time that
`check_health` measures begins with `last_used_time_`, which is set when a connection is made and
when it is borrowed, not when it is returned.  So the time for which a connection is lent out counts
as idle: after a long request it is destroyed on its return, or soon after.

* `CountsFromReturn` is what a call does if idle time begins with the return.
* `LentTimeFits` is the condition under which a call does so: whatever it checks within
  `idle_timeout` of its return, the time it had been lent out before does not make the difference.
* `idle_from_return_iff` says that the runs with the one are the runs with the other.
* If each connection is returned within a millisecond of its last use, all is well
  (`lentTimeFits_of_returnsAtOnce`).

The return of a connection is read off the history, by its socket.
-/

namespace Netp2.Upstream

open ByteString LastWrite StepRun UpstreamConnection

/-! ## The loop of `borrow_connection`, entry by entry -/

namespace ConnectionPool

variable {idleTimeout : ℤ}

/-- The loop comes to an entry, at the clock reading of its position, if those above it are
unhealthy at theirs. -/
def Passes (idleTimeout : ℤ) (clock : ℕ → ℤ) (above : List UpstreamConnection) : Prop :=
  ∀ k (x : UpstreamConnection), above[k]? = some x → ¬x.HealthyAt idleTimeout (clock k)

lemma passes_cons {clock : ℕ → ℤ} {x : UpstreamConnection} {above : List UpstreamConnection} :
    Passes idleTimeout clock (x :: above) ↔
      ¬x.HealthyAt idleTimeout (clock 0) ∧
        Passes idleTimeout (fun n => clock (n + 1)) above := by
  constructor
  · intro h
    exact ⟨h 0 x rfl, fun k y hy => h (k + 1) y hy⟩
  · rintro ⟨h0, h⟩ k y hy
    cases k with
    | zero =>
        obtain rfl : x = y := by simpa using hy
        exact h0
    | succ k => exact h k y hy

/-- An entry that is healthy, or to which the loop does not come, stays or is handed out. -/
lemma takeHealthy_spares : ∀ {clock : ℕ → ℤ} {above : List UpstreamConnection}
    {c : UpstreamConnection} (below : List UpstreamConnection),
    (Passes idleTimeout clock above → c.HealthyAt idleTimeout (clock above.length)) →
      c ∈ (takeHealthy idleTimeout clock (above ++ c :: below)).2 ∨
        ∃ t, (takeHealthy idleTimeout clock (above ++ c :: below)).1 = some (c.markUsed t)
  | clock, [], c, below, h => by
      have hc : c.HealthyAt idleTimeout (clock 0) := h (by simp [Passes])
      refine Or.inr ⟨clock 1, ?_⟩
      simp [takeHealthy, checkHealth_eq_kHealthy, hc]
  | clock, x :: above, c, below, h => by
      by_cases hx : x.HealthyAt idleTimeout (clock 0)
      · refine Or.inl ?_
        simp [takeHealthy, checkHealth_eq_kHealthy, hx]
      · simp only [List.cons_append, takeHealthy, checkHealth_eq_kHealthy, hx, if_false]
        refine takeHealthy_spares below ?_
        intro hpasses
        exact h (passes_cons.mpr ⟨hx, hpasses⟩)

/-- An unhealthy entry to which the loop comes is gone: what is left and what is handed out lies
below it. -/
lemma takeHealthy_discards : ∀ {clock : ℕ → ℤ} {above : List UpstreamConnection}
    {c : UpstreamConnection} (below : List UpstreamConnection),
    Passes idleTimeout clock above → ¬c.HealthyAt idleTimeout (clock above.length) →
      ∃ clock', takeHealthy idleTimeout clock (above ++ c :: below)
        = takeHealthy idleTimeout clock' below
  | clock, [], c, below, _, hc => by
      refine ⟨fun n => clock (n + 1), ?_⟩
      have hc' : ¬c.HealthyAt idleTimeout (clock 0) := hc
      simp [takeHealthy, checkHealth_eq_kHealthy, hc']
  | clock, x :: above, c, below, hpasses, hc => by
      obtain ⟨hx, hpasses⟩ := passes_cons.mp hpasses
      simp only [List.cons_append, takeHealthy, checkHealth_eq_kHealthy, hx, if_false]
      exact takeHealthy_discards below hpasses hc

/-- What comes out of a pool was in it. -/
lemma takeHealthy_mem (idleTimeout : ℤ) (clock : ℕ → ℤ) (pool : List UpstreamConnection) :
    (∀ c ∈ (takeHealthy idleTimeout clock pool).2, c ∈ pool) ∧
      ∀ conn, (takeHealthy idleTimeout clock pool).1 = some conn →
        conn.socket ∈ pool.map UpstreamConnection.socket := by
  rcases takeHealthy_cases idleTimeout clock pool with ⟨skipped, conn, rest, t, rfl, heq⟩ | heq
  · rw [heq]
    refine ⟨?_, ?_⟩
    · intro c hc
      simp [show c ∈ rest from hc]
    · rintro conn' hconn
      obtain rfl : conn.markUsed t = conn' := by simpa using hconn
      simp [markUsed]
  · rw [heq]
    simp

end ConnectionPool

open ConnectionPool

namespace PoolSystem

variable {s : PoolSystem}

lemma step_borrow_output (host : ByteString) (port : UInt16) (clock : ℕ → ℤ) :
    (s.step (.borrow host port clock)).1
      = (takeHealthy s.pool.config.idleTimeout clock (s.idle host port)).1.map
          fun conn => (some conn, .kSuccess) := by
  simp only [step, borrowPooled, idle]
  cases (takeHealthy s.pool.config.idleTimeout clock
    (s.pool.pools (makePoolKey host port))).1 with
  | none => rfl
  | some conn => rfl

lemma step_borrow_pool (host : ByteString) (port : UInt16) (clock : ℕ → ℤ) :
    (s.step (.borrow host port clock)).2.pool
      = s.pool.setPool (makePoolKey host port)
          (takeHealthy s.pool.config.idleTimeout clock (s.idle host port)).2 := by
  simp only [step, borrowPooled, idle]
  cases (takeHealthy s.pool.config.idleTimeout clock
    (s.pool.pools (makePoolKey host port))).1 with
  | none => rfl
  | some conn => rfl

/-! ## What the calls should do -/

/-- The time of the return, if this event is a return of `x`. -/
def returnOf (x : ℕ) (e : PoolEvent) : Option ℤ :=
  match e.input with
  | .giveBack i _ _ _ _ now =>
      (e.pre.leases[i]?).bind fun lease => if lease.conn.socket = x then some now else none
  | _ => none

/-- When `x` was last returned. -/
def returnedAt (h : List PoolEvent) (x : ℕ) : Option ℤ :=
  lastSome (returnOf x) h

lemma returnedAt_concat (h : List PoolEvent) (e : PoolEvent) (x : ℕ) :
    returnedAt (h ++ [e]) x = (returnOf x e).or (returnedAt h x) := by
  rw [returnedAt, lastSome_append]
  simp [lastSome, returnedAt]

/-- The clock reading that belongs to the entry `c` with `n` entries above it. -/
def callTime (n : ℕ) (c : UpstreamConnection) : Action → Option ℤ
  | .borrow _ _ clock => some (clock n)
  | .giveBack _ _ _ _ _ now => some now
  | .cleanup clock => some (clock c)
  | .connect _ _ _ => none
  | .drop _ => none

/-- After the call, `x` is in its pool, or it has been borrowed from it. -/
def Remains (s : PoolSystem) (a : Action) (poolKey : ByteString) (x : ℕ) : Prop :=
  x ∈ (s.step a).2.held (.pool poolKey) ∨
    ∃ host port clock conn, a = .borrow host port clock ∧ makePoolKey host port = poolKey ∧
      (s.step a).1 = some (some conn, .kSuccess) ∧ conn.socket = x

/-- In this call idle time begins with the return: a connection that is returned open to a pool
with room is kept, and no open connection that was returned at most `idle_timeout` ago is
discarded. -/
structure CountsFromReturn (config : UpstreamConfig) (before : List Action) (a : Action) :
    Prop where
  kept : ∀ i host port lastUsedTime now lease,
    a = .giveBack i host port true lastUsedTime now →
    (reached config before).leases[i]? = some lease →
    ((reached config before).idle host port).length < config.maxConnectionsPerHost.toNat →
      lease.conn.socket ∈ ((reached config before).step a).2.held
        (.pool (makePoolKey host port))
  stays : ∀ poolKey above c below r t,
    (reached config before).pool.pools poolKey = above ++ c :: below → c.isOpen = true →
    returnedAt (history config before) c.socket = some r → callTime above.length c a = some t →
    t - r ≤ config.idleTimeout * 10 ^ 6 →
      Remains (reached config before) a poolKey c.socket

/-! ## What they do -/

/-- The call asks `check_health` about this entry of a pool, at time `t`. -/
inductive Examines (s : PoolSystem) : Action → UpstreamConnection → ℤ → Prop
  | borrow {host port clock above c below} (hpool : s.idle host port = above ++ c :: below)
      (hpasses : Passes s.pool.config.idleTimeout clock above) :
      Examines s (.borrow host port clock) c (clock above.length)
  | cleanup {clock poolKey c} (hc : c ∈ s.pool.pools poolKey) :
      Examines s (.cleanup clock) c (clock c)

/-- The time for which a connection was lent out before its return makes no difference in this
call: together with the time since the return it is at most `idle_timeout`, in whole milliseconds,
unless the latter alone is more. -/
structure LentTimeFits (config : UpstreamConfig) (before : List Action) (a : Action) : Prop where
  onReturn : ∀ i host port lastUsedTime now lease,
    a = .giveBack i host port true lastUsedTime now →
    (reached config before).leases[i]? = some lease →
    ((reached config before).idle host port).length < config.maxConnectionsPerHost.toNat →
      (now - lastUsedTime).tdiv (10 ^ 6) ≤ config.idleTimeout
  onCheck : ∀ c r t, Examines (reached config before) a c t → c.isOpen = true →
    returnedAt (history config before) c.socket = some r →
    t - r ≤ config.idleTimeout * 10 ^ 6 →
      ((t - r) + (r - c.lastUsedTime)).tdiv (10 ^ 6) ≤ config.idleTimeout

/-! ## Entries of a pool -/

lemma mem_held {poolKey : ByteString} {c : UpstreamConnection}
    (hc : c ∈ s.pool.pools poolKey) : c.socket ∈ s.held (.pool poolKey) :=
  List.mem_map_of_mem hc

/-- An entry of a pool is told by its socket. -/
lemma Invariant.eq_of_socket_eq (hi : Invariant s) {poolKey : ByteString}
    {c c' : UpstreamConnection} (hc : c ∈ s.pool.pools poolKey) (hc' : c' ∈ s.pool.pools poolKey)
    (h : c.socket = c'.socket) : c = c' :=
  List.inj_on_of_nodup_map (hi.exclusive.nodup (.pool poolKey)) hc hc' h

lemma mem_cleanup {clock : UpstreamConnection → ℤ} {poolKey : ByteString}
    {c : UpstreamConnection} :
    c ∈ (s.step (.cleanup clock)).2.pool.pools poolKey ↔
      c ∈ s.pool.pools poolKey ∧ c.HealthyAt s.pool.config.idleTimeout (clock c) := by
  simp [step, cleanupIdleConnections, checkHealth_eq_kHealthy]

/-- A return takes nothing out of a pool. -/
lemma mem_giveBack {poolKey : ByteString} {c : UpstreamConnection}
    (hc : c ∈ s.pool.pools poolKey) (i : ℕ) (host : ByteString) (port : UInt16) (isOpen : Bool)
    (lastUsedTime now : ℤ) :
    c ∈ (s.step (.giveBack i host port isOpen lastUsedTime now)).2.pool.pools poolKey := by
  have ht := transition_step s (.giveBack i host port isOpen lastUsedTime now)
  generalize (s.step (.giveBack i host port isOpen lastUsedTime now)).2 = s' at ht
  generalize (s.step (.giveBack i host port isOpen lastUsedTime now)).1 = o at ht
  cases ht with
  | keep =>
      by_cases hk : poolKey = makePoolKey host port
      · subst hk
        simp [hc]
      · rwa [setPool_of_ne _ hk]
  | discard => exact hc

/-- A healthy connection is put into a pool with room. -/
lemma mem_keep {i : ℕ} {isOpen : Bool} {lastUsedTime now : ℤ} {lease : Lease}
    (hlease : s.leases[i]? = some lease)
    (hhealthy : (returned lease isOpen lastUsedTime).HealthyAt s.pool.config.idleTimeout now)
    (host : ByteString) (port : UInt16)
    (hroom : (s.idle host port).length < s.pool.config.maxConnectionsPerHost.toNat) :
    returned lease isOpen lastUsedTime
      ∈ (s.step (.giveBack i host port isOpen lastUsedTime now)).2.pool.pools
        (makePoolKey host port) := by
  simp only [step, hlease, (returnConnection_kept_iff hhealthy).mpr hroom, List.mem_cons, true_or]

/-! ## Call by call -/

section Call

variable {config : UpstreamConfig} {before : List Action} {a : Action}

/-- An unhealthy entry that `borrow_connection` comes to does not remain. -/
lemma not_remains_of_passes (hi : Invariant s) {host : ByteString} {port : UInt16}
    {clock : ℕ → ℤ} {above below : List UpstreamConnection} {c : UpstreamConnection}
    (hpool : s.idle host port = above ++ c :: below)
    (hpasses : Passes s.pool.config.idleTimeout clock above)
    (hc : ¬c.HealthyAt s.pool.config.idleTimeout (clock above.length)) :
    ¬Remains s (.borrow host port clock) (makePoolKey host port) c.socket := by
  obtain ⟨clock', hdiscards⟩ := takeHealthy_discards below hpasses hc
  obtain ⟨hrest, hfound⟩ := takeHealthy_mem s.pool.config.idleTimeout clock' below
  have hnodup := hi.exclusive.nodup (.pool (makePoolKey host port))
  rw [held, ← idle, hpool, List.map_append, List.map_cons] at hnodup
  have hbelow : c.socket ∉ below.map UpstreamConnection.socket :=
    (List.nodup_cons.mp (List.nodup_append.mp hnodup).2.1).1
  rintro (hheld | ⟨host', port', clock'', conn, ha, _, houtput, hsocket⟩)
  · rw [held, step_borrow_pool, hpool, hdiscards] at hheld
    obtain ⟨c', hc', hsocket⟩ := List.mem_map.mp hheld
    refine hbelow (hsocket ▸ List.mem_map_of_mem (hrest c' ?_))
    rwa [setPool_self] at hc'
  · rw [step_borrow_output, hpool, hdiscards] at houtput
    obtain ⟨conn', hconn', heq⟩ := Option.map_eq_some_iff.mp houtput
    obtain rfl : conn' = conn := by simpa using heq
    exact hbelow (hsocket ▸ hfound conn' hconn')

/-- An entry that is healthy if `borrow_connection` comes to it remains. -/
lemma remains_of_passes {host : ByteString} {port : UInt16} {clock : ℕ → ℤ} {poolKey : ByteString}
    {above below : List UpstreamConnection} {c : UpstreamConnection}
    (hpool : s.pool.pools poolKey = above ++ c :: below)
    (h : poolKey = makePoolKey host port → Passes s.pool.config.idleTimeout clock above →
      c.HealthyAt s.pool.config.idleTimeout (clock above.length)) :
    Remains s (.borrow host port clock) poolKey c.socket := by
  by_cases hkey : poolKey = makePoolKey host port
  · subst hkey
    have hspares := takeHealthy_spares below (h rfl)
    rw [← hpool, ← idle] at hspares
    rcases hspares with hrest | ⟨t, hfound⟩
    · refine Or.inl ?_
      rw [held, step_borrow_pool]
      refine List.mem_map_of_mem ?_
      rwa [setPool_self]
    · refine Or.inr ⟨host, port, clock, c.markUsed t, rfl, rfl, ?_, rfl⟩
      rw [step_borrow_output, hfound]
      rfl
  · have hmem : c ∈ s.pool.pools poolKey := by simp [hpool]
    refine Or.inl ?_
    rw [held, step_borrow_pool]
    refine List.mem_map_of_mem ?_
    rwa [setPool_of_ne _ hkey]

/-- If idle time begins with the return, the time lent out before makes no difference. -/
lemma CountsFromReturn.lentTimeFits (h : CountsFromReturn config before a) :
    LentTimeFits config before a where
  onReturn := by
    rintro i host port lastUsedTime now lease rfl hlease hroom
    by_contra hlong
    -- an unhealthy connection is not put into the pool, and it was not there
    have hi := invariant_reached config before
    have hlent : lease.conn.socket ∈ (reached config before).held .lent :=
      List.mem_map_of_mem (List.mem_of_getElem? hlease)
    have hunhealthy : (returned lease true lastUsedTime).checkHealth
        (reached config before).pool.config.idleTimeout now ≠ .kHealthy := by
      rw [Ne, checkHealth_eq_kHealthy, reached_config]
      exact fun hhealthy => hlong hhealthy.2
    have hkept := h.kept i host port lastUsedTime now lease rfl hlease hroom
    simp only [step, hlease, returnConnection, ne_eq, hunhealthy, not_false_eq_true,
      if_true] at hkept
    exact hi.exclusive.disjoint (.pool (makePoolKey host port)) .lent (by simp) hkept hlent
  onCheck := by
    intro c r t hexamines hopen hreturned hsoon
    have hi := invariant_reached config before
    by_contra hlong
    have hunhealthy : ¬c.HealthyAt (reached config before).pool.config.idleTimeout t := by
      rw [reached_config]
      rintro ⟨_, hidle⟩
      rw [sub_add_sub_cancel] at hlong
      exact hlong hidle
    cases hexamines with
    | @borrow host port clock above c below hpool hpasses =>
        exact not_remains_of_passes hi hpool hpasses hunhealthy
          (h.stays _ above c below r _ hpool hopen hreturned rfl hsoon)
    | @cleanup clock poolKey c hc =>
        obtain ⟨above, below, hpool⟩ := List.append_of_mem hc
        rcases h.stays poolKey above c below r _ hpool hopen hreturned rfl hsoon with
          hheld | ⟨_, _, _, _, ha, _⟩
        · obtain ⟨c', hc', hsocket⟩ := List.mem_map.mp hheld
          obtain ⟨hmem, hhealthy⟩ := mem_cleanup.mp hc'
          obtain rfl := hi.eq_of_socket_eq hmem hc hsocket
          exact hunhealthy hhealthy
        · exact absurd ha (by simp)

/-- And conversely. -/
lemma LentTimeFits.countsFromReturn (h : LentTimeFits config before a) :
    CountsFromReturn config before a where
  kept := by
    rintro i host port lastUsedTime now lease rfl hlease hroom
    have hhealthy : (returned lease true lastUsedTime).HealthyAt
        (reached config before).pool.config.idleTimeout now := by
      rw [reached_config]
      exact ⟨rfl, h.onReturn i host port lastUsedTime now lease rfl hlease hroom⟩
    show (returned lease true lastUsedTime).socket ∈ _
    exact mem_held (mem_keep hlease hhealthy host port (by rwa [reached_config]))
  stays := by
    intro poolKey above c below r t hpool hopen hreturned htime hsoon
    have hmem : c ∈ (reached config before).pool.pools poolKey := by simp [hpool]
    have hhealthy : Examines (reached config before) a c t →
        c.HealthyAt (reached config before).pool.config.idleTimeout t := by
      intro hexamines
      have hfits := h.onCheck c r t hexamines hopen hreturned hsoon
      rw [sub_add_sub_cancel] at hfits
      rw [reached_config]
      exact ⟨hopen, hfits⟩
    cases a with
    | borrow host port clock =>
        obtain rfl : clock above.length = t := by simpa [callTime] using htime
        refine remains_of_passes hpool ?_
        rintro rfl hpasses
        exact hhealthy (Examines.borrow hpool hpasses)
    | connect k outcome now => exact absurd htime (by simp [callTime])
    | giveBack i host port isOpen lastUsedTime now =>
        exact Or.inl (mem_held (mem_giveBack hmem i host port isOpen lastUsedTime now))
    | drop i => exact absurd htime (by simp [callTime])
    | cleanup clock =>
        obtain rfl : clock c = t := by simpa [callTime] using htime
        exact Or.inl (mem_held (mem_cleanup.mpr ⟨hmem, hhealthy (Examines.cleanup hmem)⟩))

end Call

/-! ## Returns without delay -/

/-- If this is a return, it comes within a millisecond of the last use. -/
def ReturnsAtOnce (a : Action) : Prop :=
  ∀ i host port isOpen lastUsedTime now, a = .giveBack i host port isOpen lastUsedTime now →
    now - lastUsedTime < 10 ^ 6

/-- What is in a pool was there before, or is returned by this step. -/
lemma mem_pools_cases {a : Action} {o : Option BorrowResult} {s' : PoolSystem}
    (ht : Transition s a o s') {poolKey : ByteString} {c : UpstreamConnection}
    (hc : c ∈ s'.pool.pools poolKey) :
    c ∈ s.pool.pools poolKey ∨
      ∃ i host port isOpen lastUsedTime now lease,
        a = .giveBack i host port isOpen lastUsedTime now ∧ s.leases[i]? = some lease ∧
          c = returned lease isOpen lastUsedTime := by
  cases ht with
  | @reuse host port clock skipped conn rest t hpool =>
      have hrest : rest.Sublist (s.pool.pools (makePoolKey host port)) := by
        rw [hpool]
        exact (List.sublist_cons_self conn rest).trans (List.sublist_append_right skipped _)
      exact Or.inl ((setPool_sublist hrest poolKey).subset hc)
  | @wait host port clock =>
      exact Or.inl ((setPool_sublist (List.nil_sublist _) poolKey).subset hc)
  | @keep i host port isOpen lastUsedTime now lease hlease =>
      by_cases hk : poolKey = makePoolKey host port
      · subst hk
        have hcons : c = returned lease isOpen lastUsedTime ∨
            c ∈ s.pool.pools (makePoolKey host port) := by
          rwa [setPool_self, List.mem_cons] at hc
        rcases hcons with hnew | hold
        · exact Or.inr ⟨i, host, port, isOpen, lastUsedTime, now, lease, rfl, hlease, hnew⟩
        · exact Or.inl hold
      · rw [setPool_of_ne _ hk] at hc
        exact Or.inl hc
  | cleanup => exact Or.inl (List.mem_of_mem_filter hc)
  | _ => exact Or.inl hc

/-- An entry of a pool is not returned while it is there. -/
lemma returnOf_of_mem (hi : Invariant s) {poolKey : ByteString} {c : UpstreamConnection}
    (hc : c ∈ s.pool.pools poolKey) (a : Action) : returnOf c.socket (event step s a) = none := by
  cases a with
  | giveBack i host port isOpen lastUsedTime now =>
      simp only [returnOf, event]
      cases hlease : s.leases[i]? with
      | none => rfl
      | some lease =>
          refine if_neg ?_
          intro hsocket
          have hlent : lease.conn.socket ∈ s.held .lent :=
            List.mem_map_of_mem (List.mem_of_getElem? hlease)
          exact hi.exclusive.disjoint (.pool poolKey) .lent (by simp) (mem_held hc)
            (hsocket ▸ hlent)
  | _ => rfl

lemma returnOf_giveBack {i : ℕ} {lease : Lease} (hlease : s.leases[i]? = some lease)
    (host : ByteString) (port : UInt16) (isOpen : Bool) (lastUsedTime now : ℤ) :
    returnOf lease.conn.socket (event step s (.giveBack i host port isOpen lastUsedTime now))
      = some now := by
  simp [returnOf, event, hlease]

/-- **The run lemma.**  What lies in a pool was used until shortly before its return. -/
theorem returned_soon_after_use {config : UpstreamConfig} {actions : List Action}
    (h : ∀ a ∈ actions, ReturnsAtOnce a) {poolKey : ByteString} {c : UpstreamConnection} {r : ℤ}
    (hc : c ∈ (reached config actions).pool.pools poolKey)
    (hr : returnedAt (history config actions) c.socket = some r) :
    r - c.lastUsedTime < 10 ^ 6 := by
  induction actions using List.reverseRecOn with
  | nil => exact absurd hc List.not_mem_nil
  | append_singleton actions a ih =>
      rw [reached, final_concat] at hc
      rw [history, trace_concat, ← history, ← reached, returnedAt_concat] at hr
      rcases mem_pools_cases (transition_step _ a) hc with hold |
        ⟨i, host, port, isOpen, lastUsedTime, now, lease, rfl, hlease, rfl⟩
      · rw [returnOf_of_mem (invariant_reached config actions) hold, Option.none_or] at hr
        exact ih (fun b hb => h b (by simp [hb])) hold hr
      · have hleased : (reached config actions).leases[i]? = some lease := hlease
        rw [returnOf_giveBack hleased, Option.some_or, Option.some.injEq] at hr
        subst hr
        exact h _ (by simp) i host port isOpen lastUsedTime now rfl

/-- A time below a limit by less than a millisecond more is at most the limit in whole
milliseconds. -/
lemma tdiv_le_of_lt {x y timeout : ℤ} (htimeout : 0 ≤ timeout) (hx : x ≤ timeout * 10 ^ 6)
    (hy : y < 10 ^ 6) : (x + y).tdiv (10 ^ 6) ≤ timeout := by
  rcases le_or_gt 0 (x + y) with hsum | hsum
  · rw [Int.tdiv_eq_ediv_of_nonneg hsum]
    omega
  · have hneg : 0 ≤ (-(x + y)).tdiv (10 ^ 6) := Int.tdiv_nonneg (by omega) (by simp)
    rw [Int.neg_tdiv] at hneg
    linarith

/-- **Connections that are returned at once** lie idle from their return on. -/
theorem lentTimeFits_of_returnsAtOnce {config : UpstreamConfig} {actions : List Action}
    (htimeout : 0 ≤ config.idleTimeout) (h : ∀ a ∈ actions, ReturnsAtOnce a) :
    EachCall (LentTimeFits config) actions := by
  rintro before a after rfl
  refine ⟨?_, ?_⟩
  · rintro i host port lastUsedTime now lease rfl _ _
    have hsoon := h _ (by simp) i host port true lastUsedTime now rfl
    have hnow : (0 : ℤ) ≤ config.idleTimeout * 10 ^ 6 := by omega
    simpa using tdiv_le_of_lt htimeout hnow hsoon
  · intro c r t hexamines _ hr hsoon
    have hmem : ∃ poolKey, c ∈ (reached config before).pool.pools poolKey := by
      cases hexamines with
      | @borrow host port clock above c below hpool =>
          rw [idle] at hpool
          exact ⟨makePoolKey host port, by simp [hpool]⟩
      | cleanup hc => exact ⟨_, hc⟩
    obtain ⟨poolKey, hc⟩ := hmem
    exact tdiv_le_of_lt htimeout hsoon
      (returned_soon_after_use (fun b hb => h b (by simp [hb])) hc hr)

/-- A connection that is returned to a pool with room a millisecond or more after its last use is
destroyed at once, or by a cleanup when `idle_timeout` has just not passed since. -/
lemma late_return_fails {config : UpstreamConfig} {before : List Action} {i : ℕ}
    {host : ByteString} {port : UInt16} {lastUsedTime now : ℤ} {lease : Lease}
    (htimeout : 0 ≤ config.idleTimeout) (hlease : (reached config before).leases[i]? = some lease)
    (hroom : ((reached config before).idle host port).length
      < config.maxConnectionsPerHost.toNat)
    (hlate : 10 ^ 6 ≤ now - lastUsedTime) :
    ¬EachCall (CountsFromReturn config)
      (before ++ [.giveBack i host port true lastUsedTime now] ++
        [.cleanup fun _ => now + config.idleTimeout * 10 ^ 6]) := by
  intro h
  obtain ⟨hfirst, hcleanup⟩ := eachCall_concat.mp h
  obtain ⟨_, hreturn⟩ := eachCall_concat.mp hfirst
  have hfits := hreturn.lentTimeFits.onReturn i host port lastUsedTime now lease rfl hlease hroom
  -- it is kept, and lies in the pool when the cleanup comes to it
  have hconfig := reached_config config before
  have hhealthy : (returned lease true lastUsedTime).HealthyAt
      (reached config before).pool.config.idleTimeout now := by
    rw [hconfig]
    exact ⟨rfl, hfits⟩
  have hkept := mem_keep hlease hhealthy host port (by rwa [hconfig])
  rw [reached, ← final_concat, ← reached] at hkept
  have hreturned := returnedAt_concat (history config before)
    (event step (reached config before) (.giveBack i host port true lastUsedTime now))
    lease.conn.socket
  rw [returnOf_giveBack hlease, history, reached, ← trace_concat, ← history] at hreturned
  have hlong := hcleanup.lentTimeFits.onCheck _ now _ (Examines.cleanup hkept) rfl hreturned
    (by simp)
  have hused : (returned lease true lastUsedTime).lastUsedTime = lastUsedTime := rfl
  rw [hused, Int.tdiv_eq_ediv_of_nonneg (by omega)] at hlong
  omega

end PoolSystem

open PoolSystem

/-- **When idle time counts from the return of a connection.**  In a run, exactly when the time for
which a connection was lent out makes no difference in any call; in particular when every connection
is returned within a millisecond of its last use, and no later: after any run, a later return to a
pool with room, and a cleanup when `idle_timeout` has just not passed since, is too much. -/
theorem idle_from_return_iff (config : UpstreamConfig) (actions : List Action) :
    (EachCall (CountsFromReturn config) actions ↔ EachCall (LentTimeFits config) actions) ∧
      (0 ≤ config.idleTimeout → (∀ a ∈ actions, ReturnsAtOnce a) →
        EachCall (CountsFromReturn config) actions) ∧
      (0 ≤ config.idleTimeout → ∀ i host port lastUsedTime now lease,
        (reached config actions).leases[i]? = some lease →
        ((reached config actions).idle host port).length
          < config.maxConnectionsPerHost.toNat →
        10 ^ 6 ≤ now - lastUsedTime →
          ¬EachCall (CountsFromReturn config)
            (actions ++ [.giveBack i host port true lastUsedTime now] ++
              [.cleanup fun _ => now + config.idleTimeout * 10 ^ 6])) := by
  have hiff : EachCall (CountsFromReturn config) actions ↔
      EachCall (LentTimeFits config) actions := by
    constructor
    · intro h
      exact h.imp fun before a => CountsFromReturn.lentTimeFits
    · intro h
      exact h.imp fun before a => LentTimeFits.countsFromReturn
  refine ⟨hiff, fun htimeout h => hiff.mpr (lentTimeFits_of_returnsAtOnce htimeout h), ?_⟩
  intro htimeout i host port lastUsedTime now lease hlease hroom hlate
  exact late_return_fails htimeout hlease hroom hlate

/-- A request that takes 61 seconds. -/
def longRequest : List Action :=
  [.borrow (ascii "a") 80 (fun _ => 0), .connect 0 .connected 0,
    .giveBack 0 (ascii "a") 80 true 0 61000000000]

/-- **The connection of a long request is destroyed on its return**, although the pool is empty:
it is taken for idle since it was lent out. -/
theorem long_request_loses_connection :
    (reached {} (longRequest.take 2)).leases = [⟨ascii "a", 80, ⟨0, true, 0⟩⟩] ∧
      (reached {} longRequest).idle (ascii "a") 80 = [] ∧
      ¬EachCall (CountsFromReturn {}) longRequest := by
  refine ⟨by decide +kernel, by decide +kernel, ?_⟩
  intro h
  have hcall := h (longRequest.take 2) (.giveBack 0 (ascii "a") 80 true 0 61000000000) [] rfl
  have hkept := hcall.kept 0 (ascii "a") 80 0 61000000000 ⟨ascii "a", 80, ⟨0, true, 0⟩⟩ rfl
    (by decide +kernel) (by decide +kernel)
  revert hkept
  decide +kernel

end Netp2.Upstream
