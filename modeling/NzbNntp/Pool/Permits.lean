import NzbNntp.Connection.Negotiation
import NzbNntp.Connection.Status
import NzbNntp.Pool.Basic
import NzbNntp.ReplyServer

/-!
The permits of a pool are conserved. A slot is at any time a permit of the
semaphore, an owned permit of an `acquire`, the armed guard of a connection that
is checked out, or on its way back between the disarming of a guard and
`add_permits`. Idle connections hold none: their guards are disarmed.
-/

namespace NzbNntp

open Interruptible Interleaving

variable {π : Type}

namespace PoolTask

def ownsPermit : PoolTask π → Bool
  | .permitted | .checking _ | .rampingUp | .connecting _ => true
  | _ => false

def isGuarded : PoolTask π → Bool
  | .holding p => p.armed
  | _ => false

def isReturning : PoolTask π → Bool
  | .parking _ | .disposing _ | .crediting => true
  | _ => false

/-- The guard is armed exactly while the connection is checked out, and a
connection is checked only if it looked healthy. -/
def GuardOk : PoolTask π → Prop
  | .holding p => p.armed = true
  | .checking p => p.armed = false ∧ p.conn.isHealthy = true
  | .parking p | .disposing p => p.armed = false
  | .closing conns => ∀ p ∈ conns, p.armed = false
  | _ => True

def slots : PoolTask π → Nat
  | .permitted | .checking _ | .rampingUp | .connecting _ => 1
  | .holding p => p.armed.toNat
  | .parking _ | .disposing _ | .crediting => 1
  | .awaitingPermit | .draining | .closing _ => 0

theorem slots_eq (t : PoolTask π) :
    t.slots = (if t.ownsPermit then 1 else 0) + (if t.isGuarded then 1 else 0) +
      (if t.isReturning then 1 else 0) := by
  cases t with
  | holding p => cases h : p.armed <;> simp [slots, ownsPermit, isGuarded, isReturning, h]
  | _ => rfl

theorem load_slots (tasks : Multiset (PoolTask π)) :
    load slots tasks =
      tasks.countP (·.ownsPermit) + tasks.countP (·.isGuarded) + tasks.countP (·.isReturning) := by
  rw [← load_ite, ← load_ite, ← load_ite, ← load_add_fun, ← load_add_fun]
  exact congrArg (load · tasks) (funext slots_eq)

end PoolTask

namespace ConnectionPool

def GuardOk (pool : ConnectionPool π) : Prop := ∀ p ∈ pool.idle, p.armed = false

theorem dropConnection_of_disarmed {p : PooledConnection π} (h : p.armed = false)
    (pool : ConnectionPool π) : pool.dropConnection p = pool := by
  simp [dropConnection, h]

theorem foldr_dropConnection {conns : List (PooledConnection π)}
    (h : ∀ p ∈ conns, p.armed = false) (pool : ConnectionPool π) :
    conns.foldr dropConnection pool = pool := by
  induction conns with
  | nil => rfl
  | cons p conns ih =>
      rw [List.foldr_cons, ih fun q hq => h q (by simp [hq]),
        dropConnection_of_disarmed (h p (by simp))]

end ConnectionPool

variable [Peer π] {config : ServerConfig}

theorem guards_kept :
    Keeps (PoolStep (π := π) config) PoolTask.Starts ConnectionPool.GuardOk PoolTask.GuardOk where
  start := by
    rintro t (_ | _)
    · trivial
    · trivial
  move := by
    intro pool t pool' ts hpool ht hstep
    cases hstep with
    | permitGranted h => exact ⟨hpool, by simp [PoolTask.GuardOk]⟩
    | permitTimedOut => exact ⟨hpool, by simp⟩
    | popMiss h => exact ⟨hpool, by simp [PoolTask.GuardOk]⟩
    | popFresh h _ _ =>
        refine ⟨fun q hq => hpool q (by rw [h]; simp [hq]), ?_⟩
        simp [PoolTask.GuardOk, PooledConnection.arm]
    -- The health check runs before the guard is armed.
    | popStale h hhealthy _ =>
        refine ⟨fun q hq => hpool q (by rw [h]; simp [hq]), ?_⟩
        simpa [PoolTask.GuardOk, hhealthy] using hpool _ (by rw [h]; simp)
    | popBad h _ =>
        rw [ConnectionPool.dropConnection_of_disarmed (hpool _ (by rw [h]; simp))]
        exact ⟨fun q hq => hpool q (by rw [h]; simp [hq]), by simp [PoolTask.GuardOk]⟩
    | checkPassed _ => exact ⟨hpool, by simp [PoolTask.GuardOk]⟩
    | checkFailed _ =>
        rw [ConnectionPool.dropConnection_of_disarmed ht.1]
        exact ⟨hpool, by simp [PoolTask.GuardOk]⟩
    | checkCancelled =>
        rw [ConnectionPool.dropConnection_of_disarmed ht.1]
        exact ⟨hpool, by simp⟩
    | rampedUp => exact ⟨hpool, by simp [PoolTask.GuardOk]⟩
    | rampCancelled => exact ⟨hpool, by simp⟩
    | connected _ => exact ⟨hpool, by simp [PoolTask.GuardOk]⟩
    | connectFailed _ => exact ⟨hpool, by simp⟩
    | connectCancelled => exact ⟨hpool, by simp⟩
    | used => exact ⟨hpool, by simpa [PoolTask.GuardOk] using ht⟩
    -- `release` empties the guard before it parks or disposes of the connection.
    | released =>
        refine ⟨hpool, ?_⟩
        split <;> simp [PoolTask.GuardOk, PooledConnection.disarm]
    | discarded => exact ⟨hpool, by simp [PoolTask.GuardOk, PooledConnection.disarm]⟩
    | dropped =>
        refine ⟨hpool, ?_⟩
        split <;> simp [PoolTask.GuardOk]
    | parked =>
        refine ⟨fun q hq => ?_, by simp [PoolTask.GuardOk]⟩
        rcases List.mem_append.mp hq with hq | hq
        · exact hpool q hq
        · rw [List.mem_singleton.mp hq]
          exact ht
    | disposed =>
        rw [ConnectionPool.dropConnection_of_disarmed ht]
        exact ⟨hpool, by simp [PoolTask.GuardOk]⟩
    | credited => exact ⟨hpool, by simp⟩
    | drained =>
        refine ⟨fun q hq => absurd hq List.not_mem_nil, fun u hu => ?_⟩
        rw [Multiset.mem_singleton.mp hu]
        exact hpool
    | @closed _ p rest =>
        rw [ConnectionPool.dropConnection_of_disarmed (ht p (by simp))]
        exact ⟨hpool, by simpa [PoolTask.GuardOk] using fun q hq => ht q (by simp [hq])⟩
    | closeEnded =>
        rw [ConnectionPool.foldr_dropConnection ht]
        exact ⟨hpool, by simp⟩

/-- No step of a task makes or loses a slot. -/
theorem slots_kept {pool pool' : ConnectionPool π} {t : PoolTask π} {ts : Multiset (PoolTask π)}
    (hpool : pool.GuardOk) (ht : t.GuardOk) (hstep : PoolStep config pool t pool' ts) :
    pool'.permits + load PoolTask.slots ts = pool.permits + t.slots := by
  cases hstep with
  | permitGranted h =>
      simp only [load_singleton, PoolTask.slots]
      omega
  | popBad h _ =>
      rw [ConnectionPool.dropConnection_of_disarmed (hpool _ (by rw [h]; simp))]
      simp [PoolTask.slots]
  | checkFailed _ =>
      rw [ConnectionPool.dropConnection_of_disarmed ht.1]
      simp [PoolTask.slots]
  | checkCancelled =>
      rw [ConnectionPool.dropConnection_of_disarmed ht.1]
      simp [PoolTask.slots]
  | @released _ p =>
      have harmed : p.armed = true := ht
      split <;> simp [PoolTask.slots, harmed]
  | @dropped _ p =>
      have harmed : p.armed = true := ht
      simp [PoolTask.slots, harmed]
  | @discarded _ p =>
      have harmed : p.armed = true := ht
      simp [PoolTask.slots, harmed]
  | disposed =>
      rw [ConnectionPool.dropConnection_of_disarmed ht]
      simp [PoolTask.slots]
  | @closed _ p rest =>
      rw [ConnectionPool.dropConnection_of_disarmed (ht p (by simp))]
      simp [PoolTask.slots]
  | closeEnded =>
      rw [ConnectionPool.foldr_dropConnection ht]
      simp [PoolTask.slots]
  | _ => simp [PoolTask.slots, PooledConnection.arm, ConnectionPool.push]

theorem slots_conserved {c : ConnectionPool π × Multiset (PoolTask π)}
    (h : PoolReachable config c) : c.1.permits + load PoolTask.slots c.2 = config.connections :=
  h.conserves (g := ConnectionPool.permits) guards_kept
    (by simp [ConnectionPool.GuardOk, ConnectionPool.new])
    (fun _ _ _ _ hpool ht hstep => slots_kept hpool ht hstep)
    (by rintro t (_ | _) <;> rfl)

/-- **Permit conservation.** In every reachable state the permits that are
available, owned by an `acquire`, carried by the guard of a connection that is
checked out, or on their way back add up to the connections of the
configuration. -/
theorem permits_conserved {pool : ConnectionPool π} {tasks : Multiset (PoolTask π)}
    (h : PoolReachable config (pool, tasks)) :
    pool.permits + tasks.countP (·.ownsPermit) + tasks.countP (·.isGuarded) +
      tasks.countP (·.isReturning) = config.connections := by
  have hslots : pool.permits + load PoolTask.slots tasks = config.connections := slots_conserved h
  rw [PoolTask.load_slots] at hslots
  omega

/-! ### A run -/

section Runs

variable {pool : ConnectionPool π} {tasks : Multiset (PoolTask π)}

/-- An `acquire` that finds no idle connection gets as far as `connect`. -/
theorem connecting_beside (h : PoolReachable config (pool, tasks)) (hpermits : 0 < pool.permits)
    (hidle : pool.idle = []) :
    PoolReachable config
      ({ pool with permits := pool.permits - 1, createdCount := pool.nextIndex },
        .connecting s!"{config.id}#{pool.nextIndex}" ::ₘ tasks) := by
  have hstart : PoolReachable config (pool, .awaitingPermit ::ₘ tasks) := h.tail (.start .acquire)
  have hgranted := hstart.move_on (.permitGranted hpermits)
  have hmissed := hgranted.move_on (.popMiss hidle)
  exact hmissed.move_on .rampedUp

theorem holding_beside {dial : Dial π} {w : World π} (h : PoolReachable config (pool, tasks))
    (hpermits : 0 < pool.permits) (hidle : pool.idle = [])
    (hconnect : connect config dial
      { conn := .new s!"{config.id}#{pool.nextIndex}", events := [] } = .ok () w) :
    ∃ p : PooledConnection π, p.conn = w.conn ∧ p.armed = true ∧ p.tag = pool.nextTag ∧
      PoolReachable config
        ({ pool with
            permits := pool.permits - 1
            createdCount := pool.nextIndex
            nextTag := pool.nextTag + 1 }, .holding p ::ₘ tasks) := by
  let p : PooledConnection π :=
    { conn := w.conn, lastUsed := 0, armed := true, tag := pool.nextTag }
  exact ⟨p, rfl, rfl, rfl, (connecting_beside h hpermits hidle).move_on (.connected hconnect)⟩

end Runs

abbrev plainConfig : ServerConfig := { ssl := false }

/-- A pool of eight connections: one is idle, and its slot on its way back; one is checked
out; and one is being connected. -/
theorem busy_reachable :
    ∃ p q : PooledConnection ReplyServer, q.armed = true ∧
      PoolReachable plainConfig
        ({ idle := [p], permits := 5, createdCount := 3, nextTag := 2 },
          {.crediting, .connecting "#3", .holding q}) := by
  obtain ⟨w₁, hconnect₁, hhealthy⟩ : ∃ w, connect plainConfig dialCapable
      { conn := .new "#1", events := [] } = .ok () w ∧ w.conn.isHealthy = true := ⟨_, rfl, rfl⟩
  obtain ⟨w₂, hconnect₂⟩ : ∃ w, connect plainConfig dialCapable
      { conn := .new "#2", events := [] } = .ok () w := ⟨_, rfl⟩
  have hnew : PoolReachable plainConfig ((.new plainConfig : ConnectionPool ReplyServer), 0) :=
    .refl
  obtain ⟨p, hconn, -, -, hfirst⟩ := holding_beside hnew (by decide) rfl hconnect₁
  obtain ⟨q, -, harmed, -, hsecond⟩ := holding_beside hfirst (by decide) rfl hconnect₂
  have hthird : PoolReachable plainConfig
      (({ permits := 5, createdCount := 3, nextTag := 2 } : ConnectionPool ReplyServer),
        .connecting "#3" ::ₘ .holding q ::ₘ .holding p ::ₘ 0) :=
    connecting_beside hsecond (by decide) rfl
  rw [Multiset.cons_swap (PoolTask.holding q), Multiset.cons_swap _ (PoolTask.holding p)] at hthird
  have hreleased := hthird.move_on .released
  rw [hconn, hhealthy, if_pos rfl] at hreleased
  have hparking : PoolStep plainConfig
      ({ permits := 5, createdCount := 3, nextTag := 2 } : ConnectionPool ReplyServer)
      (.parking p.disarm)
      { idle := [{ p.disarm with lastUsed := 0 }], permits := 5, createdCount := 3, nextTag := 2 }
      {.crediting} := .parked
  exact ⟨_, q, harmed, hreleased.move_on hparking⟩

/-- Eight slots, and one of them in each of the other places. -/
theorem permits_conserved_on_busy_pool :
    ∃ (pool : ConnectionPool ReplyServer) (tasks : Multiset (PoolTask ReplyServer)),
      PoolReachable plainConfig (pool, tasks) ∧ pool.permits = 5 ∧
        tasks.countP (·.ownsPermit) = 1 ∧ tasks.countP (·.isGuarded) = 1 ∧
        tasks.countP (·.isReturning) = 1 ∧
        pool.permits + tasks.countP (·.ownsPermit) + tasks.countP (·.isGuarded) +
          tasks.countP (·.isReturning) = plainConfig.connections := by
  obtain ⟨p, q, harmed, hbusy⟩ := busy_reachable
  refine ⟨_, _, hbusy, rfl, rfl, ?_, rfl, permits_conserved hbusy⟩
  rw [Multiset.insert_eq_cons, Multiset.insert_eq_cons, countP_cons, countP_cons, countP_singleton]
  simp [PoolTask.isGuarded, harmed]

end NzbNntp
