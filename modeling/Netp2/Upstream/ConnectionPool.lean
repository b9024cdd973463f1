import Netp2.Library.ByteString
import Netp2.Library.StepRun

/-!
# The connection pool

Idle upstream connections are kept under the key `host:port`, the most recently returned one on top.
A borrower is given a connection or, when there is none that is healthy, waits for a new one;
it owns the connection until it returns or drops it.

* A connection is told by its socket.  Connecting is up to the network (`ConnectOutcome`), and so
  is what a borrower does with its connection before it returns it.
* Every clock reading of an operation is an argument, in nanoseconds; timeouts are in milliseconds.
* A pool is a list whose head is the back of the source's vector, and a key without an entry has an
  empty pool.

`borrow_connection` is a coroutine, so other operations may come between its two halves.
`PoolSystem` is the pool with its borrowers, and `Transition` says what each step can do.
-/

namespace Netp2.Upstream

open ByteString StepRun

structure UpstreamConfig where
  idleTimeout : ℤ := 60000
  maxConnectionsPerHost : UInt32 := 100
  deriving DecidableEq, Repr

inductive ConnectionHealth where
  | kHealthy
  | kUnhealthy
  deriving DecidableEq, Repr

inductive UpstreamError where
  | kSuccess
  | kConnectTimeout
  | kAllUnavailable
  | kPoolExhausted
  deriving DecidableEq, Repr

structure UpstreamConnection where
  socket : ℕ
  isOpen : Bool := true
  lastUsedTime : ℤ
  deriving DecidableEq, Repr

namespace UpstreamConnection

def checkHealth (c : UpstreamConnection) (idleTimeout now : ℤ) : ConnectionHealth :=
  let idleDuration := (now - c.lastUsedTime).tdiv (10 ^ 6)
  if idleTimeout < idleDuration then .kUnhealthy
  else if !c.isOpen then .kUnhealthy
  else .kHealthy

def markUsed (c : UpstreamConnection) (now : ℤ) : UpstreamConnection :=
  { c with lastUsedTime := now }

end UpstreamConnection

/-- How an attempt to resolve and connect ends. -/
inductive ConnectOutcome where
  | connected
  | timedOut
  | operationAborted
  | otherError
  deriving DecidableEq, Repr

structure ConnectionPool where
  config : UpstreamConfig
  pools : ByteString → List UpstreamConnection := fun _ => []

def makePoolKey (host : ByteString) (port : UInt16) : ByteString :=
  host ++ ascii ":" ++ decimal port.toNat

namespace ConnectionPool

def setPool (p : ConnectionPool) (poolKey : ByteString) (pool : List UpstreamConnection) :
    ConnectionPool :=
  { p with pools := Function.update p.pools poolKey pool }

@[simp] lemma setPool_config (p : ConnectionPool) (poolKey : ByteString)
    (pool : List UpstreamConnection) : (p.setPool poolKey pool).config = p.config := rfl

@[simp] lemma setPool_self (p : ConnectionPool) (poolKey : ByteString)
    (pool : List UpstreamConnection) : (p.setPool poolKey pool).pools poolKey = pool := by
  simp [setPool]

@[simp] lemma setPool_of_ne (p : ConnectionPool) {k poolKey : ByteString} (h : k ≠ poolKey)
    (pool : List UpstreamConnection) : (p.setPool poolKey pool).pools k = p.pools k := by
  simp [setPool, h]

/-- The loop of `borrow_connection`, with the clock readings from here on: the connection it finds,
and what is left in the pool. -/
def takeHealthy (idleTimeout : ℤ) :
    (ℕ → ℤ) → List UpstreamConnection → Option UpstreamConnection × List UpstreamConnection
  | _, [] => (none, [])
  | clock, conn :: pool =>
      if conn.checkHealth idleTimeout (clock 0) = .kHealthy then
        (some (conn.markUsed (clock 1)), pool)
      else
        takeHealthy idleTimeout (fun n => clock (n + 1)) pool

/-- `borrow_connection` up to `create_new_connection`, which follows if there is no connection. -/
def borrowPooled (p : ConnectionPool) (host : ByteString) (port : UInt16) (clock : ℕ → ℤ) :
    Option UpstreamConnection × ConnectionPool :=
  let poolKey := makePoolKey host port
  let (conn, pool) := takeHealthy p.config.idleTimeout clock (p.pools poolKey)
  (conn, p.setPool poolKey pool)

def createNewConnection (outcome : ConnectOutcome) (socket : ℕ) (now : ℤ) :
    Option UpstreamConnection × UpstreamError :=
  match outcome with
  | .connected => (some { socket := socket, lastUsedTime := now }, .kSuccess)
  | .timedOut => (none, .kConnectTimeout)
  | .operationAborted => (none, .kConnectTimeout)
  | .otherError => (none, .kAllUnavailable)

def returnConnection (p : ConnectionPool) (host : ByteString) (port : UInt16)
    (conn : Option UpstreamConnection) (now : ℤ) : ConnectionPool :=
  match conn with
  | none => p
  | some conn =>
      if conn.checkHealth p.config.idleTimeout now ≠ .kHealthy then p
      else
        let poolKey := makePoolKey host port
        if p.config.maxConnectionsPerHost.toNat ≤ (p.pools poolKey).length then p
        else p.setPool poolKey (conn :: p.pools poolKey)

/-- `cleanup_idle_connections`, with the clock reading at each connection. -/
def cleanupIdleConnections (p : ConnectionPool) (clock : UpstreamConnection → ℤ) :
    ConnectionPool :=
  { p with
    pools := fun poolKey => (p.pools poolKey).filter fun conn =>
      conn.checkHealth p.config.idleTimeout (clock conn) = .kHealthy }

end ConnectionPool

/-! ## The key -/

lemma isDigit_colon : ¬IsDigit 58 := by decide

/-- **Different upstreams have different keys**, whatever bytes the host has: the port follows the
last colon. -/
theorem makePoolKey_injective {host host' : ByteString} {port port' : UInt16}
    (h : makePoolKey host port = makePoolKey host' port') : host = host' ∧ port = port' := by
  have hsplit : ∀ (x : ByteString) (p : UInt16),
      makePoolKey x p = x ++ 58 :: decimal p.toNat := by
    intro x p
    rw [makePoolKey, List.append_assoc]
    rfl
  rw [hsplit, hsplit] at h
  have hlen := congrArg (rfind 58) h
  rw [rfind_cut (notMem_decimal isDigit_colon _), rfind_cut (notMem_decimal isDigit_colon _),
    Option.some.injEq] at hlen
  obtain ⟨hhost, htail⟩ := List.append_inj h hlen
  exact ⟨hhost, UInt16.toNat_inj.mp (decimal_injective (List.cons.inj htail).2)⟩

/-! ## The pool and its borrowers -/

/-- A connection that is lent out, with what it was borrowed for. -/
structure Lease where
  host : ByteString
  port : UInt16
  conn : UpstreamConnection
  deriving DecidableEq, Repr

/-- The pool, the borrowers that wait for a new connection, those that own one, and the next fresh
socket. -/
structure PoolSystem where
  pool : ConnectionPool
  pending : List (ByteString × UInt16) := []
  leases : List Lease := []
  nextSocket : ℕ := 0

/-- The steps.  Borrowers are named by their place in `pending` or `leases`; a connection comes back
in any condition. -/
inductive Action where
  | borrow (host : ByteString) (port : UInt16) (clock : ℕ → ℤ)
  | connect (k : ℕ) (outcome : ConnectOutcome) (now : ℤ)
  | giveBack (i : ℕ) (host : ByteString) (port : UInt16) (isOpen : Bool) (lastUsedTime now : ℤ)
  | drop (i : ℕ)
  | cleanup (clock : UpstreamConnection → ℤ)

abbrev BorrowResult := Option UpstreamConnection × UpstreamError

namespace PoolSystem

def new (config : UpstreamConfig) : PoolSystem where
  pool := { config := config }

/-- A step, with the result of the borrower that it answers. -/
def step (s : PoolSystem) : Action → Option BorrowResult × PoolSystem
  | .borrow host port clock =>
      match s.pool.borrowPooled host port clock with
      | (some conn, pool) =>
          (some (some conn, .kSuccess),
            { s with pool := pool, leases := ⟨host, port, conn⟩ :: s.leases })
      | (none, pool) => (none, { s with pool := pool, pending := s.pending ++ [(host, port)] })
  | .connect k outcome now =>
      match s.pending[k]? with
      | none => (none, s)
      | some (host, port) =>
          let result := ConnectionPool.createNewConnection outcome s.nextSocket now
          (some result,
            { s with
              pending := s.pending.eraseIdx k
              leases := result.1.toList.map (Lease.mk host port) ++ s.leases
              nextSocket := s.nextSocket + 1 })
  | .giveBack i host port isOpen lastUsedTime now =>
      match s.leases[i]? with
      | none => (none, s)
      | some lease =>
          let conn := { lease.conn with isOpen := isOpen, lastUsedTime := lastUsedTime }
          (none,
            { s with
              pool := s.pool.returnConnection host port (some conn) now
              leases := s.leases.eraseIdx i })
  | .drop i => (none, { s with leases := s.leases.eraseIdx i })
  | .cleanup clock => (none, { s with pool := s.pool.cleanupIdleConnections clock })

/-! ## What one step can do -/

/-- **The transitions** of the pool and its borrowers. -/
inductive Transition (s : PoolSystem) : Action → Option BorrowResult → PoolSystem → Prop
  | reuse {host port clock skipped conn rest t}
      (hpool : s.pool.pools (makePoolKey host port) = skipped ++ conn :: rest) :
      Transition s (.borrow host port clock) (some (some (conn.markUsed t), .kSuccess))
        { s with
          pool := s.pool.setPool (makePoolKey host port) rest
          leases := ⟨host, port, conn.markUsed t⟩ :: s.leases }
  | wait {host port clock} :
      Transition s (.borrow host port clock) none
        { s with
          pool := s.pool.setPool (makePoolKey host port) []
          pending := s.pending ++ [(host, port)] }
  | connect {k host port now} (hk : s.pending[k]? = some (host, port)) :
      Transition s (.connect k .connected now)
        (some (some { socket := s.nextSocket, lastUsedTime := now }, .kSuccess))
        { s with
          pending := s.pending.eraseIdx k
          leases := ⟨host, port, { socket := s.nextSocket, lastUsedTime := now }⟩ :: s.leases
          nextSocket := s.nextSocket + 1 }
  | connectFails {k outcome now error} (houtcome : outcome ≠ .connected)
      (herror : error = .kConnectTimeout ∨ error = .kAllUnavailable) :
      Transition s (.connect k outcome now) (some (none, error))
        { s with pending := s.pending.eraseIdx k, nextSocket := s.nextSocket + 1 }
  | keep {i host port isOpen lastUsedTime now lease} (hi : s.leases[i]? = some lease)
      (hhealthy : { lease.conn with isOpen := isOpen, lastUsedTime := lastUsedTime }.checkHealth
        s.pool.config.idleTimeout now = .kHealthy)
      (hfits : (s.pool.pools (makePoolKey host port)).length
        < s.pool.config.maxConnectionsPerHost.toNat) :
      Transition s (.giveBack i host port isOpen lastUsedTime now) none
        { s with
          pool := s.pool.setPool (makePoolKey host port)
            ({ lease.conn with isOpen := isOpen, lastUsedTime := lastUsedTime }
              :: s.pool.pools (makePoolKey host port))
          leases := s.leases.eraseIdx i }
  | discard {i host port isOpen lastUsedTime now}
      (hgone : ∀ lease, s.leases[i]? = some lease →
        { lease.conn with isOpen := isOpen, lastUsedTime := lastUsedTime }.checkHealth
            s.pool.config.idleTimeout now ≠ .kHealthy ∨
          s.pool.config.maxConnectionsPerHost.toNat
            ≤ (s.pool.pools (makePoolKey host port)).length) :
      Transition s (.giveBack i host port isOpen lastUsedTime now) none
        { s with leases := s.leases.eraseIdx i }
  | drop {i} : Transition s (.drop i) none { s with leases := s.leases.eraseIdx i }
  | cleanup {clock} :
      Transition s (.cleanup clock) none
        { s with pool := s.pool.cleanupIdleConnections clock }
  | nobody {k outcome now} (hk : s.pending[k]? = none) :
      Transition s (.connect k outcome now) none s

end PoolSystem

lemma ConnectionPool.takeHealthy_cases (idleTimeout : ℤ) :
    ∀ (clock : ℕ → ℤ) (pool : List UpstreamConnection),
      (∃ skipped conn rest t, pool = skipped ++ conn :: rest ∧
        takeHealthy idleTimeout clock pool = (some (conn.markUsed t), rest)) ∨
      takeHealthy idleTimeout clock pool = (none, [])
  | _, [] => Or.inr rfl
  | clock, conn :: pool => by
      rw [takeHealthy]
      split_ifs with hhealthy
      · exact Or.inl ⟨[], conn, pool, clock 1, rfl, rfl⟩
      · rcases takeHealthy_cases idleTimeout (fun n => clock (n + 1)) pool with
          ⟨skipped, found, rest, t, rfl, heq⟩ | hnone
        · exact Or.inl ⟨conn :: skipped, found, rest, t, rfl, heq⟩
        · exact Or.inr hnone

namespace PoolSystem

lemma transition_step (s : PoolSystem) :
    ∀ a : Action, Transition s a (s.step a).1 (s.step a).2
  | .borrow host port clock => by
      rcases ConnectionPool.takeHealthy_cases s.pool.config.idleTimeout clock
        (s.pool.pools (makePoolKey host port)) with ⟨skipped, conn, rest, t, hpool, heq⟩ | heq
      · simp only [step, ConnectionPool.borrowPooled, heq]
        exact Transition.reuse hpool
      · simp only [step, ConnectionPool.borrowPooled, heq]
        exact Transition.wait
  | .connect k outcome now => by
      cases hk : s.pending[k]? with
      | none =>
          simp only [step, hk]
          exact Transition.nobody hk
      | some upstream =>
          simp only [step, hk]
          cases outcome with
          | connected => exact Transition.connect hk
          | timedOut => exact Transition.connectFails (by decide) (Or.inl rfl)
          | operationAborted => exact Transition.connectFails (by decide) (Or.inl rfl)
          | otherError => exact Transition.connectFails (by decide) (Or.inr rfl)
  | .giveBack i host port isOpen lastUsedTime now => by
      cases hi : s.leases[i]? with
      | none =>
          have hall : s.leases.eraseIdx i = s.leases :=
            List.eraseIdx_of_length_le (List.getElem?_eq_none_iff.mp hi)
          have hdiscard : Transition s (.giveBack i host port isOpen lastUsedTime now) none
            { s with leases := s.leases.eraseIdx i } :=
            Transition.discard fun lease hlease => absurd (hi.symm.trans hlease) (by simp)
          rw [hall] at hdiscard
          simpa only [step, hi] using hdiscard
      | some lease =>
          simp only [step, hi, ConnectionPool.returnConnection]
          split_ifs with hhealthy hfull
          · refine Transition.discard ?_
            intro lease' hlease
            rw [Option.some.inj (hi.symm.trans hlease)] at hhealthy
            exact Or.inl hhealthy
          · refine Transition.discard ?_
            intro _ _
            exact Or.inr hfull
          · exact Transition.keep hi (not_not.mp hhealthy) (not_le.mp hfull)
  | .drop _ => Transition.drop
  | .cleanup _ => Transition.cleanup

end PoolSystem

end Netp2.Upstream
