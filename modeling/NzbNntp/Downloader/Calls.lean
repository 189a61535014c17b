import NzbNntp.Connection.Commands
import NzbNntp.Downloader.Basic
import NzbNntp.Pool.Basic

/-!
Calls of `download` on one `Downloader`, as tasks beside each other. What they share is
the list of servers, under its lock, and the pool of each server.

A call is at one of the points where other tasks can run. While it acquires a
connection, gives one back or drops one, it carries a task of the pool. The lock scope
after `fetch_article` gives the connection back step by step, so it has points of its
own, at which the lock is taken; the counters it sets are seen when it ends.

A call can be dropped where it awaits something: while the downloader is paused, in
`acquire`, in `fetch_article`, when it sends a result, and when it yields.
-/

namespace NzbNntp

open Interruptible Interleaving

namespace Downloader

structure Shared (π : Type) where
  servers : List ServerState
  pools : PoolRef → ConnectionPool π
  /-- a call is in the lock scope in which it gives a connection back -/
  locked : Bool := false

/-- The configuration of the server that was made with this pool. -/
def configOf (configs : List ServerConfig) (ref : PoolRef) : ServerConfig :=
  ((new configs).servers[ref]?.map (·.config)).getD {}

namespace Shared

variable {π : Type}

/-- `Downloader::new`, with the pools it has created. -/
def initial (configs : List ServerConfig) : Shared π where
  servers := (new configs).servers
  pools ref := .new (configOf configs ref)

def setPool (s : Shared π) (ref : PoolRef) (pool : ConnectionPool π) : Shared π :=
  { s with pools := Function.update s.pools ref pool }

def modify (s : Shared π) (index : Nat) (f : ServerState → ServerState) : Shared π :=
  { s with servers := s.servers.modify index f }

end Shared

/-- The request that a call is working on, with the server it has picked for it. -/
structure Job where
  pick : ServerPick
  request : DownloadRequest
  pending : List DownloadRequest

def Job.retried (job : Job) : List DownloadRequest :=
  job.pending ++
    [{ job.request with triedServers := job.request.triedServers ++ [job.pick.serverId] }]

/-- A call of `download`, at a point where other tasks can run. -/
inductive DownloadTask (π : Type) where
  /-- at the head of the loop, also while the downloader is paused -/
  | head (pending : List DownloadRequest)
  | acquiring (job : Job) (task : PoolTask π)
  /-- `acquire` has failed, and nothing is put down about it yet -/
  | failed (job : Job) (e : NntpError)
  /-- `acquire` has returned, and the counter is not incremented yet -/
  | acquired (job : Job) (p : PooledConnection π)
  /-- in `fetch_article` -/
  | fetching (job : Job) (p : PooledConnection π)
  /-- `fetch_article` has returned, and the lock is not taken yet -/
  | fetched (job : Job) (p : PooledConnection π) (outcome : NntpResult NntpResponse)
  /-- in the lock scope, in `release` or `discard` of the pool -/
  | returning (job : Job) (outcome : NntpResult NntpResponse) (task : PoolTask π)
  /-- in the lock scope, past it -/
  | recording (job : Job) (outcome : NntpResult NntpResponse)
  /-- in `send` of a result -/
  | sending (pending : List DownloadRequest)
  /-- no call any more, but the drop of a connection that a call has held -/
  | leaving (ref : PoolRef) (task : PoolTask π)

namespace DownloadTask

variable {π : Type}

inductive Starts : DownloadTask π → Prop where
  | download (articles : List Article) : Starts (.head ((requests articles).map Prod.snd))

def acquireAt (job : Job) : PoolTask π → DownloadTask π
  | .holding p => .acquired job p
  | task => .acquiring job task

end DownloadTask

/-- `release_connection` or `discard_connection`, up to the first point in the pool. -/
def giveBack {π : Type} (outcome : NntpResult NntpResponse) (p : PooledConnection π) : PoolTask π :=
  match outcome with
  | .ok _ | .error (.articleNotFound _) =>
      if p.conn.isHealthy then .parking p.disarm else .disposing p.disarm
  | .error e =>
      if isFatal e then .disposing p.disarm
      else if p.conn.isHealthy then .parking p.disarm else .disposing p.disarm

inductive AcquireFails {π : Type} [Peer π] (config : ServerConfig) :
    ConnectionPool π → PoolTask π → ConnectionPool π → NntpError → Prop where
  | timedOut {pool} :
      AcquireFails config pool .awaitingPermit pool
        (.timeout s!"Timed out waiting for connection to {config.name}")
  | connectFailed {pool} {w : World π} {connId dial events e}
      (h : connect config dial { conn := .new connId, events } = .err e w) :
      AcquireFails config pool (.connecting connId) pool.addPermit e

theorem AcquireFails.poolStep {π : Type} [Peer π] {config : ServerConfig}
    {pool pool' : ConnectionPool π} {task : PoolTask π} {e : NntpError}
    (h : AcquireFails config pool task pool' e) : PoolStep config pool task pool' 0 := by
  cases h with
  | timedOut => exact .permitTimedOut
  | connectFailed h => exact .connectFailed h

/-- The atomic steps of the calls. A lock scope without a point in it is one step. -/
inductive DownloadStep {π : Type} [Peer π] (configs : List ServerConfig) (gz : GzDecoder) :
    Local (Shared π) (DownloadTask π) where
  /-- The call returns, or it is dropped while the downloader is paused. -/
  | ended {s pending} : DownloadStep configs gz s (.head pending) s 0
  | exhausted {s request pending} {clock : Nat → Nat} (hlock : s.locked = false)
      (h : pickServer clock s.servers request.triedServers = none) :
      DownloadStep configs gz s (.head (request :: pending)) s {.sending pending}
  | picked {s request pending pick} {clock : Nat → Nat} (hlock : s.locked = false)
      (h : pickServer clock s.servers request.triedServers = some pick) :
      DownloadStep configs gz s (.head (request :: pending)) s
        {.acquiring { pick, request, pending } .awaitingPermit}
  /-- A step in `acquire`; without a task after it, the call was dropped there. -/
  | acquires {s job task pool' ts}
      (h : PoolStep (configOf configs job.pick.pool) (s.pools job.pick.pool) task pool' ts) :
      DownloadStep configs gz s (.acquiring job task) (s.setPool job.pick.pool pool')
        (ts.map (.acquireAt job))
  | acquireFailed {s job task pool' e}
      (h : AcquireFails (configOf configs job.pick.pool) (s.pools job.pick.pool) task pool' e) :
      DownloadStep configs gz s (.acquiring job task) (s.setPool job.pick.pool pool')
        {.failed job e}
  | penalized {s job e now} (hlock : s.locked = false) :
      DownloadStep configs gz s (.failed job e)
        (s.modify job.pick.index (·.penalizeFor e.display now)) {.head job.retried}
  | counted {s job p} (hlock : s.locked = false) :
      DownloadStep configs gz s (.acquired job p)
        (s.modify job.pick.index ServerState.countAcquired) {.fetching job p}
  | fetchReturned {s job p} {o : Outcome NntpError (World π) NntpResponse} {events outcome}
      (h : fetchArticle gz job.request.article.messageId { conn := p.conn, events } = o)
      (hresult : o.result = some outcome) :
      DownloadStep configs gz s (.fetching job p) s
        {.fetched job { p with conn := o.state.conn } outcome}
  /-- The call is dropped in `fetch_article`, and with it the connection. -/
  | fetchDropped {s job p} :
      DownloadStep configs gz s (.fetching job p) s
        (if p.armed then {.leaving job.pick.pool .crediting} else 0)
  | lockTaken {s job p outcome} (hlock : s.locked = false) :
      DownloadStep configs gz s (.fetched job p outcome) { s with locked := true }
        {.returning job outcome (giveBack outcome p)}
  | returns {s job outcome task pool' task'}
      (h : PoolStep (configOf configs job.pick.pool) (s.pools job.pick.pool) task pool' {task'}) :
      DownloadStep configs gz s (.returning job outcome task) (s.setPool job.pick.pool pool')
        {.returning job outcome task'}
  | returned {s job outcome task pool'}
      (h : PoolStep (configOf configs job.pick.pool) (s.pools job.pick.pool) task pool' 0) :
      DownloadStep configs gz s (.returning job outcome task) (s.setPool job.pick.pool pool')
        {.recording job outcome}
  | recorded {s job outcome now} :
      DownloadStep configs gz s (.recording job outcome)
        { s.modify job.pick.index (record outcome now) with locked := false }
        {match outcome with
          | .ok _ => .sending job.pending
          | .error _ => .head job.retried}
  | sent {s pending} : DownloadStep configs gz s (.sending pending) s {.head pending}
  | sendDropped {s pending} : DownloadStep configs gz s (.sending pending) s 0
  | leaves {s ref task pool' ts}
      (h : PoolStep (configOf configs ref) (s.pools ref) task pool' ts) :
      DownloadStep configs gz s (.leaving ref task) (s.setPool ref pool') (ts.map (.leaving ref))

def DownloadReachable {π : Type} [Peer π] (configs : List ServerConfig) (gz : GzDecoder) :
    Shared π × Multiset (DownloadTask π) → Prop :=
  Reachable (DownloadStep configs gz) DownloadTask.Starts (.initial configs)

/-! ### The pools -/

namespace DownloadTask

variable {π : Type}

/-- The pool that a task has to do with, and the task that it carries out there. -/
def inPool : DownloadTask π → Option (PoolRef × PoolTask π)
  | .acquiring job task | .returning job _ task => some (job.pick.pool, task)
  | .acquired job p | .fetching job p | .fetched job p _ => some (job.pick.pool, .holding p)
  | .leaving ref task => some (ref, task)
  | _ => none

def poolTask (ref : PoolRef) (t : DownloadTask π) : Option (PoolTask π) :=
  t.inPool.bind fun u => if u.1 = ref then some u.2 else none

theorem poolTask_of_none {t : DownloadTask π} (h : t.inPool = none) (ref : PoolRef) :
    t.poolTask ref = none := by
  rw [poolTask, h]
  rfl

theorem poolTask_of_some {t : DownloadTask π} {ref : PoolRef} {u : PoolTask π}
    (h : t.inPool = some (ref, u)) (ref' : PoolRef) :
    t.poolTask ref' = if ref = ref' then some u else none := by
  rw [poolTask, h]
  rfl

@[simp] theorem inPool_acquireAt (job : Job) (u : PoolTask π) :
    (acquireAt job u).inPool = some (job.pick.pool, u) := by
  cases u <;> rfl

def Carry (ref : PoolRef) (us : Multiset (PoolTask π)) (ts : Multiset (DownloadTask π)) : Prop :=
  ∀ ref', ts.filterMap (poolTask ref') = if ref = ref' then us else 0

theorem carry_singleton {t : DownloadTask π} {ref : PoolRef} {u : PoolTask π}
    (h : t.inPool = some (ref, u)) : Carry ref {u} {t} := by
  intro ref'
  rw [filterMap_singleton, poolTask_of_some h]
  split <;> rfl

theorem carry_none {t : DownloadTask π} (h : t.inPool = none) (ref : PoolRef) :
    Carry ref 0 {t} := by
  intro ref'
  rw [filterMap_singleton, poolTask_of_none h]
  split <;> rfl

theorem carry_map {f : PoolTask π → DownloadTask π} {ref : PoolRef}
    (hf : ∀ u, (f u).inPool = some (ref, u)) (us : Multiset (PoolTask π)) :
    Carry ref us (us.map f) := by
  intro ref'
  induction us using Multiset.induction with
  | empty => split <;> rfl
  | cons u us ih =>
      rw [Multiset.map_cons, filterMap_cons, ih, poolTask_of_some (hf u)]
      split <;> rfl

end DownloadTask

section Pools

variable {π : Type} [Peer π] {configs : List ServerConfig} {gz : GzDecoder} {s s' : Shared π}
  {t : DownloadTask π} {ts : Multiset (DownloadTask π)} {ref : PoolRef}

theorem giveBack_step {config : ServerConfig} {pool : ConnectionPool π}
    (outcome : NntpResult NntpResponse) (p : PooledConnection π) :
    PoolStep config pool (.holding p) pool {giveBack outcome p} := by
  unfold giveBack
  split
  · exact .released
  · exact .released
  · split
    · exact .discarded
    · exact .released

/-- A step of the task that a call carries out in a pool, which touches no other pool. -/
theorem part_move {u : PoolTask π} {us : Multiset (PoolTask π)} (ht : t.inPool = some (ref, u))
    (hts : DownloadTask.Carry ref us ts)
    (hother : ∀ ref', ref' ≠ ref → s'.pools ref' = s.pools ref')
    (h : PoolStep (configOf configs ref) (s.pools ref) u (s'.pools ref) us) (ref' : PoolRef) :
    PartMove (PoolStep (configOf configs ref')) PoolTask.Starts (fun s : Shared π => s.pools ref')
      (DownloadTask.poolTask ref') s t s' ts := by
  by_cases href : ref = ref'
  · subst href
    refine .inside ((DownloadTask.poolTask_of_some ht ref).trans (if_pos rfl)) ?_
    rw [hts ref, if_pos rfl]
    exact h
  · refine .outside (hother ref' (Ne.symm href)) ?_
    rw [hts ref', DownloadTask.poolTask_of_some ht, if_neg href, if_neg href]
    rfl

theorem part_setPool {u : PoolTask π} {us : Multiset (PoolTask π)} {pool' : ConnectionPool π}
    (ht : t.inPool = some (ref, u)) (hts : DownloadTask.Carry ref us ts)
    (h : PoolStep (configOf configs ref) (s.pools ref) u pool' us) (ref' : PoolRef) :
    PartMove (PoolStep (configOf configs ref')) PoolTask.Starts (fun s : Shared π => s.pools ref')
      (DownloadTask.poolTask ref') s t (s.setPool ref pool') ts := by
  refine part_move ht hts (fun ref' href => Function.update_of_ne href _ _) ?_ ref'
  simpa [Shared.setPool] using h

/-- Each pool, with what the calls do in it, is a system of its own. -/
theorem pool_part (ref : PoolRef) :
    Part (DownloadStep configs gz) DownloadTask.Starts (PoolStep (configOf configs ref))
      PoolTask.Starts (fun s : Shared π => s.pools ref) (DownloadTask.poolTask ref) where
  start := by
    rintro _ ⟨articles⟩
    rfl
  move := by
    intro s t s' ts h
    have hsame (u : DownloadTask π) : ({u} : Multiset (DownloadTask π)).filterMap
        (DownloadTask.poolTask ref) = ↑(u.poolTask ref).toList := filterMap_singleton _ u
    cases h with
    | ended | sendDropped => exact .outside rfl rfl
    | exhausted _ _ | penalized _ | counted _ | sent => exact .outside rfl (hsame _)
    | @picked s request pending pick _ _ _ =>
        by_cases href : pick.pool = ref
        · exact .starting rfl rfl .acquire
            ((hsame _).trans (by rw [DownloadTask.poolTask_of_some rfl, if_pos href]; rfl))
        · exact .outside rfl
            ((hsame _).trans (by rw [DownloadTask.poolTask_of_some rfl, if_neg href]; rfl))
    | acquires h => exact part_setPool rfl (DownloadTask.carry_map (by simp) _) h ref
    | acquireFailed h => exact part_setPool rfl (DownloadTask.carry_none rfl _) h.poolStep ref
    | fetchReturned _ _ =>
        exact part_move rfl (DownloadTask.carry_singleton rfl) (fun _ _ => rfl) .used ref
    | @fetchDropped s job p =>
        refine part_move rfl ?_ (fun _ _ => rfl) .dropped ref
        split
        · exact DownloadTask.carry_singleton rfl
        · intro ref'
          split <;> rfl
    | @lockTaken s job p outcome _ =>
        have hcarry : DownloadTask.Carry job.pick.pool {giveBack outcome p}
            {.returning job outcome (giveBack outcome p)} := DownloadTask.carry_singleton rfl
        refine part_move (t := .fetched job p outcome) rfl hcarry ?_ ?_ ref
        · exact fun _ _ => rfl
        · exact giveBack_step outcome p
    | returns h => exact part_setPool rfl (DownloadTask.carry_singleton rfl) h ref
    | returned h => exact part_setPool rfl (DownloadTask.carry_none rfl _) h ref
    | @recorded s job outcome now =>
        refine .outside rfl ((hsame _).trans ?_)
        split <;> rfl
    | leaves h => exact part_setPool rfl (DownloadTask.carry_map (fun _ => rfl) _) h ref

/-- What the calls do in a pool is a run of that pool. -/
theorem DownloadReachable.pool {c : Shared π × Multiset (DownloadTask π)}
    (h : DownloadReachable configs gz c) (ref : PoolRef) :
    PoolReachable (configOf configs ref)
      (c.1.pools ref, c.2.filterMap (DownloadTask.poolTask ref)) :=
  Reachable.part h (pool_part ref)

end Pools

end Downloader

end NzbNntp
