import NzbNntp.Connection.Connect
import NzbNntp.Library.Interleaving

/-!
`ConnectionPool` of `pool.rs`, as the atomic steps of the tasks that use it. A
task of the pool is a call of `acquire`, `release`, `discard` or `close_idle` at
one of the points where other tasks can run, or the user of a connection. The
shared state is the idle list under its lock, the permits of the semaphore, and
the counter for the names of connections.

A pooled connection carries a drop guard: `armed` says whether dropping it adds
a permit. An `acquire` holds an owned permit from the moment it gets one, and
dropping the call gives the permit back.
-/

namespace NzbNntp

open Interruptible Interleaving

/-- `IDLE_TIMEOUT`, in seconds -/
abbrev idleTimeout : Nat := 60

/-- A connection with its guard. The tag tells it from all other connections; no
code reads it. -/
structure PooledConnection (π : Type) where
  conn : NntpConnection π
  lastUsed : Nat
  armed : Bool
  tag : Nat

structure ConnectionPool (π : Type) where
  idle : List (PooledConnection π) := []
  permits : Nat
  createdCount : Nat := 0
  nextTag : Nat := 0

namespace ConnectionPool

variable {π : Type}

def new (config : ServerConfig) : ConnectionPool π := { permits := config.connections }

/-- `Semaphore::add_permits(1)`, also what dropping an owned permit does. -/
def addPermit (pool : ConnectionPool π) : ConnectionPool π :=
  { pool with permits := pool.permits + 1 }

@[simp] theorem addPermit_permits (pool : ConnectionPool π) :
    pool.addPermit.permits = pool.permits + 1 := rfl

@[simp] theorem addPermit_idle (pool : ConnectionPool π) : pool.addPermit.idle = pool.idle := rfl

@[simp] theorem addPermit_nextTag (pool : ConnectionPool π) :
    pool.addPermit.nextTag = pool.nextTag := rfl

/-- `Drop for PooledConnection` -/
def dropConnection (p : PooledConnection π) (pool : ConnectionPool π) : ConnectionPool π :=
  if p.armed then pool.addPermit else pool

@[simp] theorem dropConnection_idle (p : PooledConnection π) (pool : ConnectionPool π) :
    (pool.dropConnection p).idle = pool.idle := by
  unfold dropConnection
  split <;> rfl

@[simp] theorem dropConnection_nextTag (p : PooledConnection π) (pool : ConnectionPool π) :
    (pool.dropConnection p).nextTag = pool.nextTag := by
  unfold dropConnection
  split <;> rfl

@[simp] theorem foldr_dropConnection_idle (conns : List (PooledConnection π))
    (pool : ConnectionPool π) : (conns.foldr dropConnection pool).idle = pool.idle := by
  induction conns with
  | nil => rfl
  | cons p conns ih => rw [List.foldr_cons, dropConnection_idle, ih]

@[simp] theorem foldr_dropConnection_nextTag (conns : List (PooledConnection π))
    (pool : ConnectionPool π) : (conns.foldr dropConnection pool).nextTag = pool.nextTag := by
  induction conns with
  | nil => rfl
  | cons p conns ih => rw [List.foldr_cons, dropConnection_nextTag, ih]

def push (p : PooledConnection π) (pool : ConnectionPool π) : ConnectionPool π :=
  { pool with idle := pool.idle ++ [p] }

/-- The number of the next connection; the counter is 32 bits wide. -/
def nextIndex (pool : ConnectionPool π) : Nat := (pool.createdCount + 1) % 2 ^ 32

end ConnectionPool

namespace PooledConnection

variable {π : Type}

def arm (p : PooledConnection π) : PooledConnection π := { p with armed := true }
def disarm (p : PooledConnection π) : PooledConnection π := { p with armed := false }

def isStale (p : PooledConnection π) (now : Nat) : Bool := now - p.lastUsed > idleTimeout

end PooledConnection

/-- A task of the pool, at a point where other tasks can run. -/
inductive PoolTask (π : Type) where
  /-- `acquire`, waiting for a permit -/
  | awaitingPermit
  /-- `acquire`, with its permit, before the idle list is popped -/
  | permitted
  /-- `acquire`, with its permit, in the health check of an idle connection -/
  | checking (p : PooledConnection π)
  /-- `acquire`, with its permit, in `wait_for_ramp_up` -/
  | rampingUp
  /-- `acquire`, with its permit, in `connect` of the connection of this name -/
  | connecting (connId : String)
  /-- the user of a connection -/
  | holding (p : PooledConnection π)
  /-- `release` of a healthy connection, with the guard disarmed -/
  | parking (p : PooledConnection π)
  /-- `release` of another connection, or `discard`, with the guard disarmed -/
  | disposing (p : PooledConnection π)
  /-- `release`, `discard` or the drop of a connection, before `add_permits(1)` -/
  | crediting
  /-- `close_idle`, before the idle list is drained -/
  | draining
  /-- `close_idle`, with the connections it has still to close -/
  | closing (conns : List (PooledConnection π))

/-- The calls that begin at any time; the others begin with a connection. -/
inductive PoolTask.Starts {π : Type} : PoolTask π → Prop where
  | acquire : Starts .awaitingPermit
  | closeIdle : Starts .draining

/-- The atomic steps of the tasks. A call that is dropped while it waits gives up
what it owns: `cancelled` steps. -/
inductive PoolStep {π : Type} [Peer π] (config : ServerConfig) : Local (ConnectionPool π) (PoolTask π)
    where
  | permitGranted {pool} (h : 0 < pool.permits) :
      PoolStep config pool .awaitingPermit { pool with permits := pool.permits - 1 } {.permitted}
  | permitTimedOut {pool} : PoolStep config pool .awaitingPermit pool 0
  | popMiss {pool} (h : pool.idle = []) : PoolStep config pool .permitted pool {.rampingUp}
  | popFresh {pool rest p now} (h : pool.idle = rest ++ [p]) (hhealthy : p.conn.isHealthy = true)
      (hfresh : p.isStale now = false) :
      PoolStep config pool .permitted { pool with idle := rest } {.holding p.arm}
  | popStale {pool rest p now} (h : pool.idle = rest ++ [p]) (hhealthy : p.conn.isHealthy = true)
      (hstale : p.isStale now = true) :
      PoolStep config pool .permitted { pool with idle := rest } {.checking p}
  | popBad {pool rest p} (h : pool.idle = rest ++ [p]) (hbad : p.conn.isHealthy = false) :
      PoolStep config pool .permitted (({ pool with idle := rest }).dropConnection p) {.rampingUp}
  | checkPassed {pool} {p : PooledConnection π} {w : World π} {events now}
      (h : ping { conn := p.conn, events } = .ok () w) :
      PoolStep config pool (.checking p) pool
        {.holding { p with conn := w.conn, lastUsed := now, armed := true }}
  | checkFailed {pool} {p : PooledConnection π} {w : World π} {events e}
      (h : ping { conn := p.conn, events } = .err e w) :
      PoolStep config pool (.checking p) (pool.dropConnection p) {.rampingUp}
  | checkCancelled {pool p} :
      PoolStep config pool (.checking p) (pool.dropConnection p).addPermit 0
  | rampedUp {pool} :
      PoolStep config pool .rampingUp { pool with createdCount := pool.nextIndex }
        {.connecting s!"{config.id}#{pool.nextIndex}"}
  | rampCancelled {pool} : PoolStep config pool .rampingUp pool.addPermit 0
  | connected {pool} {w : World π} {connId dial events now}
      (h : connect config dial { conn := .new connId, events } = .ok () w) :
      PoolStep config pool (.connecting connId) { pool with nextTag := pool.nextTag + 1 }
        {.holding { conn := w.conn, lastUsed := now, armed := true, tag := pool.nextTag }}
  | connectFailed {pool} {w : World π} {connId dial events e}
      (h : connect config dial { conn := .new connId, events } = .err e w) :
      PoolStep config pool (.connecting connId) pool.addPermit 0
  | connectCancelled {pool connId} : PoolStep config pool (.connecting connId) pool.addPermit 0
  | used {pool p conn} : PoolStep config pool (.holding p) pool {.holding { p with conn }}
  | released {pool p} :
      PoolStep config pool (.holding p) pool
        {if p.conn.isHealthy then .parking p.disarm else .disposing p.disarm}
  | discarded {pool p} : PoolStep config pool (.holding p) pool {.disposing p.disarm}
  | dropped {pool p} :
      PoolStep config pool (.holding p) pool (if p.armed then {.crediting} else 0)
  | parked {pool p now} :
      PoolStep config pool (.parking p) (pool.push { p with lastUsed := now }) {.crediting}
  | disposed {pool p} :
      PoolStep config pool (.disposing p) (pool.dropConnection p) {.crediting}
  | credited {pool} : PoolStep config pool .crediting pool.addPermit 0
  | drained {pool} :
      PoolStep config pool .draining { pool with idle := [] } {.closing pool.idle}
  | closed {pool p rest} :
      PoolStep config pool (.closing (p :: rest)) (pool.dropConnection p) {.closing rest}
  | closeEnded {pool conns} :
      PoolStep config pool (.closing conns) (conns.foldr ConnectionPool.dropConnection pool) 0

def PoolReachable {π : Type} [Peer π] (config : ServerConfig) :
    ConnectionPool π × Multiset (PoolTask π) → Prop :=
  Reachable (PoolStep config) PoolTask.Starts (.new config)

end NzbNntp
