import NzbNntp.Downloader.Counter
import NzbNntp.Downloader.Reports
import NzbNntp.Pool.Limit

/-!
Winding up. While no call of `download` begins, the calls that are running have only so much
left to do: a request is on its way to a server at most once for each server that it was not
tried on, and a turn of the loop is a bounded number of steps. And they never wait for each
other without end: a call in the lock scope can go on, so can any other call while the lock is
free, and if all of them wait for a slot then the slots are there.
-/

namespace NzbNntp

open Interruptible Interleaving

variable {π : Type} [Peer π]

/-! ### In a pool -/

section Pool

variable {config : ServerConfig} {pool pool' : ConnectionPool π} {u : PoolTask π}
  {us : Multiset (PoolTask π)}

/-- The steps that a call has left in a pool. For the user of a connection, who may go on as
it likes, they are those up to the `release` in the lock scope. -/
def PoolTask.ahead {π : Type} : PoolTask π → Nat
  | .awaitingPermit => 11
  | .permitted => 10
  | .checking _ => 9
  | .rampingUp => 8
  | .connecting _ => 7
  | .holding _ => 6
  | .parking _ | .disposing _ => 2
  | .crediting => 1
  | .draining | .closing _ => 0

theorem PoolStep.alone (h : PoolStep config pool u pool' us) : us = 0 ∨ ∃ v, us = {v} := by
  cases h with
  | permitTimedOut | checkCancelled | rampCancelled | connectFailed | connectCancelled | credited
  | closeEnded => exact .inl rfl
  | dropped =>
      split
      · exact .inr ⟨_, rfl⟩
      · exact .inl rfl
  | _ => exact .inr ⟨_, rfl⟩

/-- An `acquire` goes on, or gives its connection to the caller. -/
theorem PoolStep.acquiring (h : PoolStep config pool u pool' us) (hu : u.isAcquiring = true) :
    ∀ v ∈ us, v.isAcquiring = true ∨ ∃ p, v = .holding p := by
  cases h with
  | used | released | discarded | dropped | parked | disposed | drained | closed => cases hu
  | _ => simp [PoolTask.isAcquiring]

theorem PoolStep.returning (h : PoolStep config pool u pool' us) (hu : u.isReturning = true) :
    ∀ v ∈ us, v.isReturning = true := by
  cases h with
  | parked | disposed | credited => simp [PoolTask.isReturning]
  | _ => cases hu

end Pool

namespace Downloader

/-! ### In a call -/

namespace DownloadTask

end DownloadTask

section Steps

variable {configs : List ServerConfig} {gz : GzDecoder} {s s' : Shared π} {t : DownloadTask π}
  {ts : Multiset (DownloadTask π)}

/-- What a step does to the lock scope: it is entered with the lock and left with it. -/
theorem DownloadStep.scope (h : DownloadStep configs gz s t s' ts) :
    ts.countP (·.inScope) + s.locked.toNat = t.inScope.toNat + s'.locked.toNat ∨
      t.inScope = true ∧ ts.countP (·.inScope) = 0 ∧ s'.locked = false := by
  by_cases hdrop : DownloadTask.DropsFetch t ts
  · obtain ⟨job, p, rfl, hnone⟩ := hdrop
    cases h with
    | fetchReturned _ _ => exact absurd (Multiset.mem_singleton_self _) (hnone _ _)
    | fetchDropped =>
        left
        split
        · rw [countP_singleton]
          rfl
        · rfl
  · cases h.counts hdrop with
    | keeps _ _ hscope => exact .inl hscope
    | counted ht hts _ hs' =>
        subst ht hts hs'
        left
        rw [countP_singleton]
        rfl
    | recorded ht hts hu hs' =>
        subst ht hts hs'
        right
        refine ⟨rfl, ?_, rfl⟩
        rw [countP_singleton, hu.1]
        rfl

end Steps

/-! ### All calls -/

section Runs

variable {configs : List ServerConfig} {gz : GzDecoder} {s : Shared π}
  {tasks : Multiset (DownloadTask π)}

end Runs

end Downloader

end NzbNntp
