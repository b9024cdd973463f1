import Netp2.Upstream.IdleTime

/-!
# The life of a connection

A connection lives from the attempt to connect that makes it until it is destroyed, in a pool or
with a borrower all the time.  `Destroys` lists the causes: a check that finds it unhealthy in its
pool, a return that finds it unhealthy or its pool full, and a borrower that drops it.

In every state that is reached, these are the causes and there are no others, and what has been
destroyed does not come back (`connection_lifecycle`).
-/

namespace Netp2.Upstream

open ByteString StepRun UpstreamConnection ConnectionPool

namespace PoolSystem

/-- The connection is in a pool or with a borrower. -/
def Alive (s : PoolSystem) (x : ℕ) : Prop :=
  ∃ p, x ∈ s.held p

/-- The call destroys connection `x`. -/
inductive Destroys (s : PoolSystem) (x : ℕ) : Action → Prop
  | examined {a c t} (hsocket : c.socket = x) (hexamines : Examines s a c t)
      (hunhealthy : ¬c.HealthyAt s.pool.config.idleTimeout t) : Destroys s x a
  | returnedUnhealthy {i host port isOpen lastUsedTime now lease}
      (hlease : s.leases[i]? = some lease) (hsocket : lease.conn.socket = x)
      (hunhealthy : ¬(returned lease isOpen lastUsedTime).HealthyAt s.pool.config.idleTimeout now) :
      Destroys s x (.giveBack i host port isOpen lastUsedTime now)
  | returnedToFull {i host port isOpen lastUsedTime now lease}
      (hlease : s.leases[i]? = some lease) (hsocket : lease.conn.socket = x)
      (hfull : s.pool.config.maxConnectionsPerHost.toNat ≤ (s.idle host port).length) :
      Destroys s x (.giveBack i host port isOpen lastUsedTime now)
  | dropped {i lease} (hlease : s.leases[i]? = some lease) (hsocket : lease.conn.socket = x) :
      Destroys s x (.drop i)

variable {s s' : PoolSystem} {x : ℕ}

/-! ## Where a connection is -/

lemma mem_lent {i : ℕ} {lease : Lease} (hlease : s.leases[i]? = some lease) :
    lease.conn.socket ∈ s.held .lent :=
  List.mem_map_of_mem (List.mem_of_getElem? hlease)

/-- A connection is in one place. -/
lemma Invariant.place_eq (hi : Invariant s) {p q : Place} (hp : x ∈ s.held p)
    (hq : x ∈ s.held q) : p = q := by
  by_contra hpq
  exact hi.exclusive.disjoint p q hpq hp hq

/-- The other leases stay when one is given up. -/
lemma mem_lent_eraseIdx {i j : ℕ} {lease : Lease} (hj : s.leases[j]? = some lease) (hij : i ≠ j) :
    lease.conn.socket ∈ held { s with leases := s.leases.eraseIdx i } .lent :=
  List.mem_map_of_mem (List.mem_eraseIdx_iff_getElem?.mpr ⟨j, hij.symm, hj⟩)

lemma Invariant.gone_of_erased (hi : Invariant s) {i : ℕ} {lease : Lease}
    (hlease : s.leases[i]? = some lease) :
    ¬Alive { s with leases := s.leases.eraseIdx i } lease.conn.socket := by
  rintro ⟨p, hp⟩
  have hold : lease.conn.socket ∈ s.held p := (loses_eraseIdx i).held_sublist p |>.subset hp
  obtain rfl := hi.place_eq hold (mem_lent hlease)
  rw [held, ← List.eraseIdx_map] at hp
  refine Custody.notMem_eraseIdx (hi.exclusive.nodup .lent) ?_ hp
  rw [held, List.getElem?_map, hlease]
  rfl

/-! ## Call by call -/

lemma step_borrow_leases (host : ByteString) (port : UInt16) (clock : ℕ → ℤ) :
    (s.step (.borrow host port clock)).2.leases
      = (takeHealthy s.pool.config.idleTimeout clock (s.idle host port)).1.toList.map
          (Lease.mk host port) ++ s.leases := by
  simp only [step, borrowPooled, idle]
  cases (takeHealthy s.pool.config.idleTimeout clock
    (s.pool.pools (makePoolKey host port))).1 with
  | none => rfl
  | some conn => rfl

/-- What remains of a pool when somebody borrows is alive. -/
lemma alive_of_remains {host : ByteString} {port : UInt16} {clock : ℕ → ℤ} {poolKey : ByteString}
    (h : Remains s (.borrow host port clock) poolKey x) :
    Alive (s.step (.borrow host port clock)).2 x := by
  rcases h with hheld | ⟨host', port', clock', conn, ha, -, houtput, rfl⟩
  · exact ⟨_, hheld⟩
  · refine ⟨.lent, ?_⟩
    rw [step_borrow_output] at houtput
    obtain ⟨conn', hconn', heq⟩ := Option.map_eq_some_iff.mp houtput
    obtain rfl : conn' = conn := by simpa using heq
    rw [held, step_borrow_leases, hconn']
    exact List.mem_cons_self

/-- What was in the pool of a borrower and does not remain of it is gone. -/
lemma gone_of_not_remains (hi : Invariant s) {host : ByteString} {port : UInt16} {clock : ℕ → ℤ}
    (hx : x ∈ s.held (.pool (makePoolKey host port)))
    (h : ¬Remains s (.borrow host port clock) (makePoolKey host port) x) :
    ¬Alive (s.step (.borrow host port clock)).2 x := by
  rintro ⟨p, hp⟩
  cases p with
  | pool poolKey =>
      by_cases hkey : poolKey = makePoolKey host port
      · exact h (.inl (hkey ▸ hp))
      · rw [held, step_borrow_pool, setPool_of_ne _ hkey] at hp
        have hplace := hi.place_eq (p := .pool poolKey) hp hx
        exact hkey (Place.pool.inj hplace)
  | lent =>
      rw [held, step_borrow_leases, List.map_append, List.mem_append] at hp
      rcases hp with hnew | hold
      · refine h (.inr ⟨host, port, clock, ?_⟩)
        obtain ⟨lease, hlease, rfl⟩ := List.mem_map.mp hnew
        obtain ⟨conn, hconn, rfl⟩ := List.mem_map.mp hlease
        rw [Option.mem_toList] at hconn
        exact ⟨conn, rfl, rfl, by rw [step_borrow_output, hconn]; rfl, rfl⟩
      · exact Place.noConfusion (hi.place_eq (p := .lent) hold hx)

lemma destroyed_borrow (hi : Invariant s) (hx : Alive s x) (host : ByteString) (port : UInt16)
    (clock : ℕ → ℤ) : ¬Alive (s.step (.borrow host port clock)).2 x ↔
      Destroys s x (.borrow host port clock) := by
  constructor
  · intro hgone
    obtain ⟨p, hp⟩ := hx
    cases p with
    | lent =>
        refine absurd ⟨.lent, ?_⟩ hgone
        rw [held, step_borrow_leases, List.map_append]
        exact List.mem_append_right _ hp
    | pool poolKey =>
        obtain ⟨c, hc, rfl⟩ := List.mem_map.mp hp
        obtain ⟨above, below, hpool⟩ := List.append_of_mem hc
        -- it would remain if it were healthy when the loop comes to it
        by_contra hnone
        refine hgone (alive_of_remains (remains_of_passes hpool ?_))
        rintro rfl hpasses
        by_contra hunhealthy
        exact hnone (.examined rfl (.borrow hpool hpasses) hunhealthy)
  · intro hdestroys
    cases hdestroys with
    | @examined _ c t hsocket hexamines hunhealthy =>
        cases hexamines with
        | @borrow _ _ _ above c below hpool hpasses =>
            have hmem : c ∈ s.pool.pools (makePoolKey host port) := by
              rw [← idle, hpool]
              simp
            subst hsocket
            exact gone_of_not_remains hi (mem_held hmem)
              (not_remains_of_passes hi hpool hpasses hunhealthy)

lemma destroyed_cleanup (hi : Invariant s) (hx : Alive s x) (clock : UpstreamConnection → ℤ) :
    ¬Alive (s.step (.cleanup clock)).2 x ↔ Destroys s x (.cleanup clock) := by
  constructor
  · intro hgone
    obtain ⟨p, hp⟩ := hx
    cases p with
    | lent => exact absurd ⟨.lent, hp⟩ hgone
    | pool poolKey =>
        obtain ⟨c, hc, rfl⟩ := List.mem_map.mp hp
        refine .examined rfl (.cleanup hc) ?_
        intro hhealthy
        exact hgone ⟨.pool poolKey, mem_held (mem_cleanup.mpr ⟨hc, hhealthy⟩)⟩
  · rintro hdestroys ⟨p, hp⟩
    cases hdestroys with
    | @examined _ c t hsocket hexamines hunhealthy =>
        cases hexamines with
        | @cleanup _ poolKey c hc =>
            have hold := (loses_cleanup (s := s) clock).held_sublist p |>.subset hp
            obtain rfl := hi.place_eq hold (hsocket ▸ mem_held hc)
            obtain ⟨c', hc', hsocket'⟩ := List.mem_map.mp hp
            obtain ⟨hc', hhealthy⟩ := mem_cleanup.mp hc'
            obtain rfl := hi.eq_of_socket_eq hc' hc (hsocket'.trans hsocket.symm)
            exact hunhealthy hhealthy

section GiveBack

variable {i : ℕ} {lease : Lease} (host : ByteString) (port : UInt16) (isOpen : Bool)
  (lastUsedTime now : ℤ)

/-- The connection that comes back is healthy, and its pool has room. -/
def Kept (s : PoolSystem) (lease : Lease) : Prop :=
  (returned lease isOpen lastUsedTime).HealthyAt s.pool.config.idleTimeout now ∧
    (s.idle host port).length < s.pool.config.maxConnectionsPerHost.toNat

lemma destroys_iff_not_kept (hlease : s.leases[i]? = some lease) :
    Destroys s lease.conn.socket (.giveBack i host port isOpen lastUsedTime now) ↔
      ¬Kept host port isOpen lastUsedTime now s lease := by
  constructor
  · rintro hdestroys ⟨hhealthy, hroom⟩
    cases hdestroys with
    | examined _ hexamines => cases hexamines
    | returnedUnhealthy hlease' _ hunhealthy =>
        obtain rfl := Option.some.inj (hlease.symm.trans hlease')
        exact hunhealthy hhealthy
    | returnedToFull _ _ hfull => exact absurd hroom (Nat.not_lt.mpr hfull)
  · intro hnot
    by_cases hhealthy : (returned lease isOpen lastUsedTime).HealthyAt s.pool.config.idleTimeout now
    · refine .returnedToFull hlease rfl (Nat.not_lt.mp ?_)
      exact fun hroom => hnot ⟨hhealthy, hroom⟩
    · exact .returnedUnhealthy hlease rfl hhealthy

lemma alive_returned_iff (hi : Invariant s) (hlease : s.leases[i]? = some lease) :
    Alive (s.step (.giveBack i host port isOpen lastUsedTime now)).2 lease.conn.socket ↔
      Kept host port isOpen lastUsedTime now s lease := by
  constructor
  · intro halive
    by_contra hnot
    -- the pool is left as it is
    have hpool : s.pool.returnConnection host port (some (returned lease isOpen lastUsedTime)) now
        = s.pool := by
      simp only [returnConnection, ne_eq, checkHealth_eq_kHealthy]
      split_ifs with hhealthy hfull
      · rfl
      · exact absurd ⟨hhealthy, Nat.not_le.mp hfull⟩ hnot
      · rfl
    simp only [step, hlease, hpool] at halive
    exact hi.gone_of_erased hlease halive
  · rintro ⟨hhealthy, hroom⟩
    exact ⟨_, mem_held (c := returned lease isOpen lastUsedTime)
      (mem_keep hlease hhealthy host port hroom)⟩

/-- Whoever does not come back stays. -/
lemma alive_giveBack_of_ne (hx : Alive s x)
    (hother : ∀ lease, s.leases[i]? = some lease → lease.conn.socket ≠ x) :
    Alive (s.step (.giveBack i host port isOpen lastUsedTime now)).2 x := by
  obtain ⟨p, hp⟩ := hx
  cases p with
  | pool poolKey =>
      obtain ⟨c, hc, rfl⟩ := List.mem_map.mp hp
      exact ⟨.pool poolKey, mem_held (mem_giveBack hc i host port isOpen lastUsedTime now)⟩
  | lent =>
      refine ⟨.lent, ?_⟩
      obtain ⟨lease', hmem, rfl⟩ := List.mem_map.mp hp
      obtain ⟨j, hj⟩ := List.mem_iff_getElem?.mp hmem
      have hij : i ≠ j := fun h => hother lease' (h ▸ hj) rfl
      cases hlease : s.leases[i]? with
      | none =>
          simp only [step, hlease]
          exact hp
      | some lease =>
          simp only [step, hlease]
          exact mem_lent_eraseIdx hj hij

/-- **A return** destroys the connection that comes back, or nothing. -/
lemma destroyed_giveBack (hi : Invariant s) (hx : Alive s x) :
    ¬Alive (s.step (.giveBack i host port isOpen lastUsedTime now)).2 x ↔
      Destroys s x (.giveBack i host port isOpen lastUsedTime now) := by
  by_cases hback : ∃ lease, s.leases[i]? = some lease ∧ lease.conn.socket = x
  · obtain ⟨lease, hlease, rfl⟩ := hback
    rw [alive_returned_iff host port isOpen lastUsedTime now hi hlease,
      destroys_iff_not_kept host port isOpen lastUsedTime now hlease]
  · refine iff_of_false (not_not.mpr (alive_giveBack_of_ne _ _ _ _ _ hx ?_)) ?_
    · intro lease hlease hsocket
      exact hback ⟨lease, hlease, hsocket⟩
    · intro hdestroys
      cases hdestroys with
      | examined _ hexamines => cases hexamines
      | returnedUnhealthy hlease hsocket => exact hback ⟨_, hlease, hsocket⟩
      | returnedToFull hlease hsocket => exact hback ⟨_, hlease, hsocket⟩

end GiveBack

/-- **Dropping** a connection destroys it, and nothing else. -/
lemma destroyed_drop (hi : Invariant s) (hx : Alive s x) (i : ℕ) :
    ¬Alive (s.step (.drop i)).2 x ↔ Destroys s x (.drop i) := by
  constructor
  · intro hgone
    obtain ⟨p, hp⟩ := hx
    cases p with
    | pool poolKey => exact absurd ⟨.pool poolKey, hp⟩ hgone
    | lent =>
        obtain ⟨lease, hmem, rfl⟩ := List.mem_map.mp hp
        obtain ⟨j, hj⟩ := List.mem_iff_getElem?.mp hmem
        by_cases hij : i = j
        · exact .dropped (hij ▸ hj) rfl
        · exact absurd ⟨.lent, mem_lent_eraseIdx hj hij⟩ hgone
  · intro hdestroys
    cases hdestroys with
    | examined _ hexamines => cases hexamines
    | dropped hlease hsocket => exact hsocket ▸ hi.gone_of_erased hlease

/-- **The step lemma.** -/
theorem destroyed_iff (hi : Invariant s) (hx : Alive s x) (a : Action) :
    ¬Alive (s.step a).2 x ↔ Destroys s x a := by
  cases a with
  | borrow host port clock => exact destroyed_borrow hi hx host port clock
  | giveBack i host port isOpen lastUsedTime now => exact destroyed_giveBack _ _ _ _ _ hi hx
  | drop i => exact destroyed_drop hi hx i
  | cleanup clock => exact destroyed_cleanup hi hx clock
  | connect k outcome now =>
      refine iff_of_false (not_not.mpr ?_) ?_
      · obtain ⟨p, hp⟩ := hx
        refine ⟨p, ?_⟩
        cases hk : s.pending[k]? with
        | none =>
            simp only [step, hk]
            exact hp
        | some upstream =>
            simp only [step, hk]
            cases p with
            | pool poolKey => exact hp
            | lent =>
                rw [held, List.map_append]
                exact List.mem_append_right _ hp
      · intro hdestroys
        cases hdestroys with
        | examined _ hexamines => cases hexamines

/-! ## From beginning to end -/

/-- A connection comes to life where one is made, under a number of its own. -/
lemma born {a : Action} {o : Option BorrowResult} (ht : Transition s a o s') (hx : Alive s' x) :
    Alive s x ∨ x = s.nextSocket ∧ ∃ k now, a = .connect k .connected now := by
  obtain ⟨p, hp⟩ := hx
  cases p with
  | pool poolKey =>
      rcases held_or_returns ht hp with hold | ⟨_, _, -, i, _, _, _, lease, -, hlease, rfl, -⟩
      · exact .inl ⟨_, hold⟩
      · exact .inl ⟨.lent, mem_lent hlease⟩
  | lent =>
      cases ht with
      | @reuse host port clock skipped conn rest t hpool =>
          rcases List.mem_cons.mp hp with rfl | hp
          · refine .inl ⟨.pool (makePoolKey host port), ?_⟩
            rw [held, hpool, List.map_append]
            exact List.mem_append_right _ List.mem_cons_self
          · exact .inl ⟨.lent, hp⟩
      | @connect k host port now hk =>
          rcases List.mem_cons.mp hp with rfl | hp
          · exact .inr ⟨rfl, k, now, rfl⟩
          · exact .inl ⟨.lent, hp⟩
      | wait => exact .inl ⟨.lent, hp⟩
      | connectFails => exact .inl ⟨.lent, hp⟩
      | cleanup => exact .inl ⟨.lent, hp⟩
      | nobody => exact .inl ⟨.lent, hp⟩
      | keep => exact .inl ⟨.lent, (loses_eraseIdx _).held_sublist .lent |>.subset hp⟩
      | discard => exact .inl ⟨.lent, (loses_eraseIdx _).held_sublist .lent |>.subset hp⟩
      | drop => exact .inl ⟨.lent, (loses_eraseIdx _).held_sublist .lent |>.subset hp⟩

lemma nextSocket_le {a : Action} {o : Option BorrowResult} (ht : Transition s a o s') :
    s.nextSocket ≤ s'.nextSocket := by
  cases ht with
  | connect => exact Nat.le_succ _
  | connectFails => exact Nat.le_succ _
  | _ => exact le_rfl

/-- **What has been destroyed does not come back.** -/
lemma gone_final (hx : x < s.nextSocket) (hgone : ¬Alive s x) (more : List Action) :
    ¬Alive (final step s more) x := by
  induction more generalizing s with
  | nil => exact hgone
  | cons a more ih =>
      have ht := transition_step s a
      refine ih (hx.trans_le (nextSocket_le ht)) ?_
      intro halive
      rcases born ht halive with hold | ⟨rfl, -⟩
      · exact hgone hold
      · exact absurd hx (lt_irrefl _)

end PoolSystem

open PoolSystem

/-- **The life of a connection.**  In every state that is reached:
* the next call destroys a connection exactly if it has one of the causes that are listed;
* a connection that there was not before is one that the call has made, with a new socket;
* a connection that has been made and is not there any more will never be there again. -/
theorem connection_lifecycle (config : UpstreamConfig) (actions : List Action) (x : ℕ) :
    (Alive (reached config actions) x → ∀ a,
      (¬Alive ((reached config actions).step a).2 x ↔ Destroys (reached config actions) x a)) ∧
    (¬Alive (reached config actions) x → ∀ a, Alive ((reached config actions).step a).2 x →
      x = (reached config actions).nextSocket ∧ ∃ k now, a = .connect k .connected now) ∧
    (x < (reached config actions).nextSocket → ¬Alive (reached config actions) x →
      ∀ more, ¬Alive (reached config (actions ++ more)) x) := by
  refine ⟨fun hx a => destroyed_iff (invariant_reached config actions) hx a, ?_, ?_⟩
  · intro hgone a halive
    exact (born (transition_step _ a) halive).resolve_left hgone
  · intro hx hgone more
    rw [reached, final_append]
    exact gone_final hx hgone more

end Netp2.Upstream
