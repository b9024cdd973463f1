import Netp2.Library.Custody
import Netp2.Upstream.ConnectionPool

/-!
# Who holds a connection

The places of a connection are the pools, one for each key, and the borrowers.  `Invariant` says
that a connection is in one place at most, that sockets not yet given out are in none, and that no
pool is larger than the configuration allows.

`PutBy` reads the history: a connection in a pool was put there by a `return_connection` and has
been there since.  Keys being injective, this was a return to the very host and port under which it
is borrowed again (`pool_custody`).
-/

namespace Netp2.Upstream

open ByteString Custody StepRun

inductive Place where
  | pool (poolKey : ByteString)
  | lent
  deriving DecidableEq

namespace PoolSystem

/-- The sockets in a place. -/
def held (s : PoolSystem) : Place → List ℕ
  | .pool poolKey => (s.pool.pools poolKey).map UpstreamConnection.socket
  | .lent => s.leases.map fun lease => lease.conn.socket

structure Invariant (s : PoolSystem) : Prop where
  exclusive : Exclusive s.held
  fresh : ∀ p, ∀ x ∈ s.held p, x < s.nextSocket
  bounded : ∀ poolKey,
    (s.pool.pools poolKey).length ≤ s.pool.config.maxConnectionsPerHost.toNat

/-! ## Losing and gaining -/

/-- Nothing but losses: every place keeps some of what it had. -/
structure Loses (s s' : PoolSystem) : Prop where
  pools : ∀ poolKey, (s'.pool.pools poolKey).Sublist (s.pool.pools poolKey)
  leases : s'.leases.Sublist s.leases
  config : s'.pool.config = s.pool.config
  nextSocket : s.nextSocket ≤ s'.nextSocket

variable {s s' : PoolSystem}

lemma Loses.held_sublist (h : Loses s s') : ∀ p, (s'.held p).Sublist (s.held p)
  | .pool poolKey => (h.pools poolKey).map _
  | .lent => h.leases.map _

lemma Invariant.lose (hi : Invariant s) (h : Loses s s') : Invariant s' where
  exclusive := hi.exclusive.lose h.held_sublist
  fresh p x hx := (hi.fresh p x ((h.held_sublist p).subset hx)).trans_le h.nextSocket
  bounded poolKey := by
    rw [h.config]
    exact (h.pools poolKey).length_le.trans (hi.bounded poolKey)

lemma setPool_sublist {p : ConnectionPool} {poolKey : ByteString}
    {pool : List UpstreamConnection} (h : pool.Sublist (p.pools poolKey)) (k : ByteString) :
    ((p.setPool poolKey pool).pools k).Sublist (p.pools k) := by
  by_cases hk : k = poolKey
  · subst hk
    rwa [ConnectionPool.setPool_self]
  · rw [ConnectionPool.setPool_of_ne p hk]

lemma loses_setPool {poolKey : ByteString} {pool : List UpstreamConnection}
    (h : pool.Sublist (s.pool.pools poolKey)) (pending : List (ByteString × UInt16)) :
    Loses s { s with pool := s.pool.setPool poolKey pool, pending := pending } :=
  ⟨setPool_sublist h, List.Sublist.refl _, rfl, le_rfl⟩

lemma loses_cleanup (clock : UpstreamConnection → ℤ) :
    Loses s { s with pool := s.pool.cleanupIdleConnections clock } :=
  ⟨fun _ => List.filter_sublist, List.Sublist.refl _, rfl, le_rfl⟩

lemma loses_eraseIdx (i : ℕ) : Loses s { s with leases := s.leases.eraseIdx i } :=
  ⟨fun _ => List.Sublist.refl _, List.eraseIdx_sublist _ _, rfl, le_rfl⟩

/-- A socket is used up, and a borrower has stopped waiting. -/
lemma loses_socket (pending : List (ByteString × UInt16)) :
    Loses s { s with pending := pending, nextSocket := s.nextSocket + 1 } :=
  ⟨fun _ => List.Sublist.refl _, List.Sublist.refl _, rfl, Nat.le_succ _⟩

/-- A borrower comes to own a connection that is nowhere else. -/
lemma Invariant.lend (hi : Invariant s) (lease : Lease) (hx : ∀ p, lease.conn.socket ∉ s.held p)
    (hlt : lease.conn.socket < s.nextSocket) :
    Invariant { s with leases := lease :: s.leases } where
  exclusive := by
    have hother : ∀ p, p ≠ .lent → held { s with leases := lease :: s.leases } p = s.held p := by
      intro p hp
      cases p with
      | pool => rfl
      | lent => exact absurd rfl hp
    exact hi.exclusive.gain hx rfl hother
  fresh p x hp := by
    cases p with
    | pool poolKey => exact hi.fresh (.pool poolKey) x hp
    | lent =>
        rcases List.mem_cons.mp hp with rfl | hp
        · exact hlt
        · exact hi.fresh .lent x hp
  bounded := hi.bounded

/-- A pool with room takes in a connection that is nowhere else. -/
lemma Invariant.store (hi : Invariant s) (conn : UpstreamConnection) {poolKey : ByteString}
    (hx : ∀ p, conn.socket ∉ s.held p) (hlt : conn.socket < s.nextSocket)
    (hfits : (s.pool.pools poolKey).length < s.pool.config.maxConnectionsPerHost.toNat) :
    Invariant { s with pool := s.pool.setPool poolKey (conn :: s.pool.pools poolKey) } := by
  have hhere : held { s with pool := s.pool.setPool poolKey (conn :: s.pool.pools poolKey) }
      (.pool poolKey) = conn.socket :: s.held (.pool poolKey) := by
    simp [held]
  have hother : ∀ p, p ≠ .pool poolKey →
      held { s with pool := s.pool.setPool poolKey (conn :: s.pool.pools poolKey) } p
        = s.held p := by
    intro p hp
    cases p with
    | lent => rfl
    | pool k =>
        have hk : k ≠ poolKey := fun hk => hp (hk ▸ rfl)
        simp [held, hk]
  refine ⟨hi.exclusive.gain hx hhere hother, ?_, ?_⟩
  · intro p x hp
    by_cases heq : p = .pool poolKey
    · rw [heq, hhere] at hp
      rcases List.mem_cons.mp hp with rfl | hp
      · exact hlt
      · exact hi.fresh _ x hp
    · rw [hother p heq] at hp
      exact hi.fresh p x hp
  · intro k
    by_cases hk : k = poolKey
    · subst hk
      simpa using hfits
    · simpa [hk] using hi.bounded k

/-! ## Every step keeps the invariant -/

lemma invariant_new (config : UpstreamConfig) : Invariant (new config) where
  exclusive := by
    refine exclusive_nil.lose ?_
    intro p
    cases p <;> exact List.Sublist.slnil
  fresh p x hx := by cases p <;> exact absurd hx List.not_mem_nil
  bounded _ := Nat.zero_le _

/-- **The step lemma**, by cases on the transition. -/
theorem invariant_transition {a : Action} {o : Option BorrowResult} (hi : Invariant s)
    (ht : Transition s a o s') : Invariant s' := by
  cases ht with
  | @reuse host port _ skipped conn rest t hpool =>
      have hsub : rest.Sublist (s.pool.pools (makePoolKey host port)) := by
        rw [hpool]
        exact (List.sublist_cons_self _ _).trans (List.sublist_append_right _ _)
      have hloses : Loses s { s with pool := s.pool.setPool (makePoolKey host port) rest } :=
        loses_setPool hsub s.pending
      have hmem : conn.socket ∈ s.held (.pool (makePoolKey host port)) := by
        simp [held, hpool]
      have hgone : conn.socket
          ∉ held { s with pool := s.pool.setPool (makePoolKey host port) rest }
            (.pool (makePoolKey host port)) := by
        have hnodup := hi.exclusive.nodup (.pool (makePoolKey host port))
        rw [held, hpool, List.map_append, List.map_cons] at hnodup
        simpa [held] using
          (List.nodup_cons.mp (List.nodup_append.mp hnodup).2.1).1
      exact (hi.lose hloses).lend ⟨host, port, conn.markUsed t⟩
        (hi.exclusive.not_mem_of_taken hmem hloses.held_sublist hgone) (hi.fresh _ _ hmem)
  | wait => exact hi.lose (loses_setPool (List.nil_sublist _) _)
  | @connect k host port now hk =>
      have hnew : ∀ p, s.nextSocket ∉ s.held p := fun p hp => (hi.fresh p _ hp).false
      exact (hi.lose (loses_socket (s.pending.eraseIdx k))).lend
        ⟨host, port, { socket := s.nextSocket, lastUsedTime := now }⟩ hnew (Nat.lt_succ_self _)
  | connectFails => exact hi.lose (loses_socket _)
  | @keep i host port isOpen lastUsedTime now lease hlease _ hfits =>
      have hloses : Loses s { s with leases := s.leases.eraseIdx i } := loses_eraseIdx i
      have hmem : lease.conn.socket ∈ s.held .lent :=
        List.mem_map_of_mem (List.mem_of_getElem? hlease)
      have hgone : lease.conn.socket ∉ held { s with leases := s.leases.eraseIdx i } .lent := by
        rw [held, ← List.eraseIdx_map]
        refine notMem_eraseIdx (hi.exclusive.nodup .lent) ?_
        rw [held, List.getElem?_map, hlease]
        rfl
      exact (hi.lose hloses).store
        { lease.conn with isOpen := isOpen, lastUsedTime := lastUsedTime }
        (hi.exclusive.not_mem_of_taken hmem hloses.held_sublist hgone) (hi.fresh _ _ hmem) hfits
  | discard => exact hi.lose (loses_eraseIdx _)
  | drop => exact hi.lose (loses_eraseIdx _)
  | cleanup => exact hi.lose (loses_cleanup _)
  | nobody => exact hi

/-! ## Where a pooled connection comes from -/

abbrev PoolEvent := Event PoolSystem Action (Option BorrowResult)

/-- In this step a borrower returns its connection `x` to `host` and `port`, and it is kept. -/
def Returns (e : PoolEvent) (host : ByteString) (port : UInt16) (x : ℕ) : Prop :=
  ∃ i isOpen lastUsedTime now lease, e.input = .giveBack i host port isOpen lastUsedTime now ∧
    e.pre.leases[i]? = some lease ∧ lease.conn.socket = x ∧
      x ∈ e.post.held (.pool (makePoolKey host port))

/-- `x` was returned to `host` and `port`, and has been in their pool since. -/
def PutBy (h : List PoolEvent) (host : ByteString) (port : UInt16) (x : ℕ) : Prop :=
  ∃ before e after, h = before ++ e :: after ∧ Returns e host port x ∧
    ∀ f ∈ after, x ∈ f.post.held (.pool (makePoolKey host port))

/-- Every connection in a pool was put there by a return. -/
def Traced (h : List PoolEvent) (s : PoolSystem) : Prop :=
  ∀ poolKey, ∀ x ∈ s.held (.pool poolKey),
    ∃ host port, makePoolKey host port = poolKey ∧ PutBy h host port x

lemma mem_held_setPool {pool : List UpstreamConnection} {poolKey k : ByteString} {x : ℕ}
    (h : x ∈ held { s with pool := s.pool.setPool poolKey pool } (.pool k)) :
    x ∈ s.held (.pool k) ∨ k = poolKey ∧ x ∈ pool.map UpstreamConnection.socket := by
  by_cases hk : k = poolKey
  · subst hk
    exact Or.inr ⟨rfl, by simpa [held] using h⟩
  · exact Or.inl (by simpa [held, hk] using h)

/-- Pools grow by returns only. -/
lemma held_or_returns {a : Action} {o : Option BorrowResult} (ht : Transition s a o s')
    {poolKey : ByteString} {x : ℕ} (hx : x ∈ s'.held (.pool poolKey)) :
    x ∈ s.held (.pool poolKey) ∨
      ∃ host port, makePoolKey host port = poolKey ∧ Returns ⟨s, a, o, s'⟩ host port x := by
  cases ht with
  | @reuse host port _ skipped conn rest _ hpool =>
      refine Or.inl ?_
      rcases mem_held_setPool (s := s) hx with hold | ⟨rfl, hold⟩
      · exact hold
      · rw [held, hpool, List.map_append, List.map_cons]
        exact List.mem_append_right _ (List.mem_cons_of_mem _ hold)
  | wait =>
      rcases mem_held_setPool (s := s) hx with hold | ⟨-, hnone⟩
      · exact Or.inl hold
      · exact absurd hnone List.not_mem_nil
  | @keep i host port isOpen lastUsedTime now lease hlease =>
      rcases mem_held_setPool (s := s) hx with hold | ⟨rfl, hnew⟩
      · exact Or.inl hold
      · rcases List.mem_cons.mp hnew with rfl | hold
        · exact Or.inr ⟨host, port, rfl, i, isOpen, lastUsedTime, now, lease, rfl, hlease, rfl, hx⟩
        · exact Or.inl hold
  | cleanup => exact Or.inl ((List.filter_sublist.map _).subset hx)
  | _ => exact Or.inl hx

lemma traced_transition {h : List PoolEvent} {a : Action} {o : Option BorrowResult}
    (htraced : Traced h s) (ht : Transition s a o s') : Traced (h ++ [⟨s, a, o, s'⟩]) s' := by
  intro poolKey x hx
  rcases held_or_returns ht hx with hold | ⟨host, port, hkey, hreturns⟩
  · obtain ⟨host, port, rfl, before, e, after, rfl, hreturns, hstays⟩ := htraced poolKey x hold
    refine ⟨host, port, rfl, before, e, after ++ [⟨s, a, o, s'⟩], by simp, hreturns, ?_⟩
    intro f hf
    rcases List.mem_append.mp hf with hf | hf
    · exact hstays f hf
    · rw [List.mem_singleton.mp hf]
      exact hx
  · exact ⟨host, port, hkey, h, ⟨s, a, o, s'⟩, [], rfl, hreturns,
      fun f hf => absurd hf List.not_mem_nil⟩

def reached (config : UpstreamConfig) (actions : List Action) : PoolSystem :=
  final step (new config) actions

def history (config : UpstreamConfig) (actions : List Action) : List PoolEvent :=
  trace step (new config) actions

/-- **The run lemmas.** -/
theorem invariant_reached (config : UpstreamConfig) (actions : List Action) :
    Invariant (reached config actions) := by
  induction actions using List.reverseRecOn with
  | nil => exact invariant_new config
  | append_singleton actions a ih =>
      rw [reached, final_concat]
      exact invariant_transition ih (transition_step _ a)

theorem traced_reached (config : UpstreamConfig) (actions : List Action) :
    Traced (history config actions) (reached config actions) :=
  invariant_trace (fun _ _ hx => absurd hx List.not_mem_nil)
    (fun _ s a htraced => traced_transition htraced (transition_step s a)) actions

lemma transition_config {a : Action} {o : Option BorrowResult} (ht : Transition s a o s') :
    s'.pool.config = s.pool.config := by
  cases ht <;> rfl

lemma reached_config (config : UpstreamConfig) (actions : List Action) :
    (reached config actions).pool.config = config := by
  induction actions using List.reverseRecOn with
  | nil => rfl
  | append_singleton actions a ih =>
      rw [reached, final_concat, transition_config (transition_step _ a)]
      exact ih

/-- A connection that is borrowed at once comes from the pool of its host and port. -/
lemma mem_held_of_reuse {host : ByteString} {port : UInt16} {clock : ℕ → ℤ}
    {conn : UpstreamConnection} {error : UpstreamError}
    (h : (s.step (.borrow host port clock)).1 = some (some conn, error)) :
    conn.socket ∈ s.held (.pool (makePoolKey host port)) := by
  have ht := transition_step s (.borrow host port clock)
  rw [h] at ht
  generalize (s.step (.borrow host port clock)).2 = s' at ht
  cases ht with
  | reuse hpool =>
      rw [held, hpool, List.map_append, List.map_cons]
      exact List.mem_append_right _ List.mem_cons_self

end PoolSystem

open PoolSystem

/-- **Connections are neither shared nor misdirected.**  In every state that is reached, a
connection is in one position of one place at most, and no pool is larger than the limit.  A
connection that is borrowed from a pool was returned to the very host and port that it is borrowed
for, and has been in that pool since; and different hosts and ports have different pools. -/
theorem pool_custody (config : UpstreamConfig) (actions : List Action) :
    (∀ (p q : Place) (i j x : ℕ), ((reached config actions).held p)[i]? = some x →
      ((reached config actions).held q)[j]? = some x → p = q ∧ i = j) ∧
    (∀ poolKey, ((reached config actions).pool.pools poolKey).length
      ≤ config.maxConnectionsPerHost.toNat) ∧
    (∀ host port clock conn error,
      ((reached config actions).step (.borrow host port clock)).1 = some (some conn, error) →
        PutBy (history config actions) host port conn.socket) ∧
    (∀ host host' port port', makePoolKey host port = makePoolKey host' port' →
      host = host' ∧ port = port') := by
  have hi := invariant_reached config actions
  refine ⟨fun p q i j x hp hq => hi.exclusive.position_unique hp hq, ?_, ?_,
    fun _ _ _ _ h => makePoolKey_injective h⟩
  · intro poolKey
    have hbounded := hi.bounded poolKey
    rwa [reached_config] at hbounded
  · intro host port clock conn error h
    obtain ⟨host', port', hkey, hput⟩ :=
      traced_reached config actions _ _ (mem_held_of_reuse h)
    obtain ⟨rfl, rfl⟩ := makePoolKey_injective hkey
    exact hput

/-- One connection, made and returned. -/
def returnedOnce : List Action :=
  [.borrow (ascii "a") 80 (fun _ => 0), .connect 0 .connected 5,
    .giveBack 0 (ascii "a") 80 true 6 7]

theorem pool_custody_returnedOnce : PutBy (history {} returnedOnce) (ascii "a") 80 0 :=
  (pool_custody {} returnedOnce).2.2.1 (ascii "a") 80 (fun _ => 8) ⟨0, true, 8⟩ .kSuccess
    (by decide +kernel)

end Netp2.Upstream
