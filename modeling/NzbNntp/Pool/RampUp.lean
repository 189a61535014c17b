import NzbNntp.Config
import NzbNntp.Library.MutualExclusion

/-!
`ConnectionPool::wait_for_ramp_up` of `pool.rs`, as the atomic steps of the calls that are
under way at the same time. They share `last_connect` under its lock, which a call holds
while it sleeps. A call that is dropped at the lock or in its sleep leaves `last_connect` as
it was, and gives the lock back.

Instants are read from one clock that never goes back, in nanoseconds. Every reading is at
least as late as the ones before it; how much time passes between two steps is left open.
-/

namespace NzbNntp

open Interleaving

/-- `Duration::from_millis(config.ramp_up_delay_ms)`, in nanoseconds -/
def ServerConfig.rampUpDelay (config : ServerConfig) : ℕ := config.rampUpDelayMs * 1000000

/-- What the calls share. The clock is at its latest reading; `stored` are the instants that
calls have written to `last_connect`, the last one first. No code reads them. -/
structure RampUp where
  lastConnect : ℤ
  locked : Bool := false
  clock : ℤ
  stored : List ℤ := []

namespace RampUp

/-- The part of `ConnectionPool::new`: 60 seconds are up at once. -/
def new (now : ℤ) : RampUp := { lastConnect := now - 60 * 1000000000, clock := now }

/-- `last.elapsed()`, which is zero before `last` -/
def elapsed (s : RampUp) (now : ℤ) : ℕ := (now - s.lastConnect).toNat

/-- `*last = Instant::now()`, after which the lock is given back. -/
def store (s : RampUp) (now : ℤ) : RampUp :=
  { lastConnect := now, locked := false, clock := now, stored := now :: s.stored }

end RampUp

inductive RampTask where
  | called
  /-- at the lock -/
  | queued
  /-- with the lock, before `elapsed` -/
  | holding
  /-- with the lock, in the sleep, which does not end before the instant -/
  | sleeping (wakeAt : ℤ)
  /-- with the lock, before it writes to `last_connect` -/
  | storing

namespace RampTask

def holdsLock : RampTask → Bool
  | holding | sleeping _ | storing => true
  | called | queued => false

inductive Starts : RampTask → Prop where
  | call : Starts called

end RampTask

inductive RampStep (delay : ℕ) : Local RampUp RampTask where
  | returned {s} (h : delay = 0) : RampStep delay s .called s 0
  | queued {s} (h : delay ≠ 0) : RampStep delay s .called s {.queued}
  | queueDropped {s} : RampStep delay s .queued s 0
  | locked {s : RampUp} (h : s.locked = false) :
      RampStep delay s .queued { s with locked := true } {.holding}
  | waits {s : RampUp} {now} (hnow : s.clock ≤ now) (h : s.elapsed now < delay) :
      RampStep delay s .holding { s with clock := now }
        {.sleeping (now + (delay - s.elapsed now : ℕ))}
  | elapsed {s : RampUp} {now} (hnow : s.clock ≤ now) (h : delay ≤ s.elapsed now) :
      RampStep delay s .holding { s with clock := now } {.storing}
  | slept {s : RampUp} {wakeAt now} (hnow : s.clock ≤ now) (h : wakeAt ≤ now) :
      RampStep delay s (.sleeping wakeAt) { s with clock := now } {.storing}
  | sleepDropped {s : RampUp} {wakeAt} :
      RampStep delay s (.sleeping wakeAt) { s with locked := false } 0
  | stored {s : RampUp} {now} (hnow : s.clock ≤ now) : RampStep delay s .storing (s.store now) 0

def RampReachable (config : ServerConfig) (start : ℤ) : RampUp × Multiset RampTask → Prop :=
  Reachable (RampStep config.rampUpDelay) RampTask.Starts (.new start)

/-- The latest of the instants is in `last_connect`, and each is a delay after the one before it. -/
structure RampUp.Spaced (delay : ℕ) (s : RampUp) : Prop where
  clock : s.lastConnect ≤ s.clock
  latest : ∀ now ∈ s.stored.head?, now = s.lastConnect
  spaced : s.stored.IsChain fun later earlier : ℤ => earlier + delay ≤ later

/-- A call with the lock sleeps until the delay is over, and writes after that. -/
def RampTask.Waited (delay : ℕ) (s : RampUp) : RampTask → Prop
  | sleeping wakeAt => s.lastConnect + delay ≤ wakeAt
  | storing => s.lastConnect + delay ≤ s.clock
  | called | queued | holding => True

theorem RampUp.spaced_new (delay : ℕ) (start : ℤ) : (RampUp.new start).Spaced delay where
  clock := by
    simp only [RampUp.new]
    omega
  latest := by simp [RampUp.new]
  spaced := .nil

theorem RampUp.Spaced.store {delay : ℕ} {s : RampUp} {now : ℤ} (h : s.Spaced delay)
    (hnow : s.lastConnect + delay ≤ now) : (s.store now).Spaced delay where
  clock := le_refl now
  latest := fun _ hlatest => (Option.some.inj hlatest).symm
  spaced := by
    show (now :: s.stored).IsChain _
    refine List.isChain_cons.mpr ⟨fun earlier hearlier => ?_, h.spaced⟩
    rw [h.latest earlier hearlier]
    exact hnow

variable {delay : ℕ} {s s' : RampUp} {t u : RampTask} {ts : Multiset RampTask}

theorem ramp_lock :
    Lock (RampStep delay) RampTask.Starts (fun s => !s.locked) RampTask.holdsLock where
  move := by
    intro s t s' ts hstep hheld
    cases hstep with
    | locked h => simp [h, RampTask.holdsLock]
    -- The steps that give the lock back; only its holder takes them.
    | sleepDropped | stored hnow => simp [hheld rfl, RampUp.store, RampTask.holdsLock]
    | _ => simp [RampTask.holdsLock]
  start := by
    rintro t ⟨⟩
    rfl

theorem ramp_step (hs : s.Spaced delay) (ht : t.Waited delay s) (hstep : RampStep delay s t s' ts) :
    s'.Spaced delay ∧ ∀ u ∈ ts, u.Waited delay s' := by
  obtain ⟨hclock, hlatest, hspaced⟩ := hs
  cases hstep with
  | returned h => exact ⟨⟨hclock, hlatest, hspaced⟩, by simp⟩
  | queued h => exact ⟨⟨hclock, hlatest, hspaced⟩, by simp [RampTask.Waited]⟩
  | queueDropped => exact ⟨⟨hclock, hlatest, hspaced⟩, by simp⟩
  | locked h => exact ⟨⟨hclock, hlatest, hspaced⟩, by simp [RampTask.Waited]⟩
  | waits hnow h =>
      refine ⟨⟨hclock.trans hnow, hlatest, hspaced⟩, fun u hu => ?_⟩
      rw [Multiset.mem_singleton.mp hu]
      unfold RampUp.elapsed at h ⊢
      simp only [RampTask.Waited]
      omega
  | elapsed hnow h =>
      refine ⟨⟨hclock.trans hnow, hlatest, hspaced⟩, fun u hu => ?_⟩
      rw [Multiset.mem_singleton.mp hu]
      unfold RampUp.elapsed at h
      simp only [RampTask.Waited]
      omega
  | slept hnow h =>
      refine ⟨⟨hclock.trans hnow, hlatest, hspaced⟩, fun u hu => ?_⟩
      rw [Multiset.mem_singleton.mp hu]
      exact le_trans ht h
  | sleepDropped => exact ⟨⟨hclock, hlatest, hspaced⟩, by simp⟩
  | stored hnow =>
      refine ⟨RampUp.Spaced.store ⟨hclock, hlatest, hspaced⟩ (le_trans ht hnow), by simp⟩

theorem ramp_unlocked (s : RampUp) (ht : t.holdsLock = false) : t.Waited delay s := by
  cases t with
  | called | queued | holding => trivial
  | sleeping | storing => cases ht

/-- Without the lock a call does no more than wait for it. -/
theorem ramp_stable (hstep : RampStep delay s t s' ts) (ht : t.holdsLock = false)
    (hu : u.Waited delay s) : u.Waited delay s' := by
  cases hstep with
  | returned h | queued h | queueDropped => exact hu
  | locked h => cases u <;> exact hu
  | _ => cases ht

/-- **Ramp-up spacing.** In every state that calls of `wait_for_ramp_up` can reach, of which
any may have been dropped, the instants that have been written to `last_connect` are each at
least the delay after the one before. -/
theorem ramp_up_spaced {config : ServerConfig} {start : ℤ} {tasks : Multiset RampTask}
    (h : RampReachable config start (s, tasks)) :
    s.stored.IsChain fun later earlier : ℤ => earlier + config.rampUpDelay ≤ later := by
  have hreached := ramp_lock.protects (K := fun s t => t.Waited config.rampUpDelay s) h
    (RampUp.spaced_new config.rampUpDelay start)
    (fun s t s' ts hs ht hstep => ramp_step hs ht hstep)
    (fun s t ht => ramp_unlocked s ht)
    (fun s t s' ts u hstep ht hu => ramp_stable hstep ht hu)
  exact hreached.1.spaced

/-- A call that is alone gets the lock. -/
theorem call_holds {config : ServerConfig} {start : ℤ} (h : RampReachable config start (s, 0))
    (hdelay : config.rampUpDelay ≠ 0) (hfree : s.locked = false) :
    RampReachable config start ({ s with locked := true }, {.holding}) := by
  have hcalled : RampReachable config start (s, {.called}) := h.tail (.start .call)
  have hqueued := hcalled.move_alone (.queued hdelay)
  exact hqueued.move_alone (.locked hfree)

/-- The first call writes at once, the second is dropped in its sleep, and the third writes
when the 50 milliseconds are over. -/
theorem ramp_up_spaced_on_drop :
    [50000008, (6 : ℤ)].IsChain fun later earlier : ℤ =>
      earlier + ({} : ServerConfig).rampUpDelay ≤ later := by
  have hfirst := call_holds (.refl : RampReachable {} 0 (.new 0, 0)) (by decide) rfl
  have hup : RampReachable {} 0 (⟨-60000000000, true, 5, []⟩, {.storing}) :=
    hfirst.move_alone (.elapsed (by decide) (by decide))
  have hwritten : RampReachable {} 0 (⟨6, false, 6, [6]⟩, 0) :=
    hup.move_alone (.stored (by decide))
  have hsecond := call_holds hwritten (by decide) rfl
  have hsleeping : RampReachable {} 0 (⟨6, true, 10, [6]⟩, {.sleeping 50000006}) :=
    hsecond.move_alone (.waits (by decide) (by decide))
  have hdropped : RampReachable {} 0 (⟨6, false, 10, [6]⟩, 0) := hsleeping.move_alone .sleepDropped
  have hthird := call_holds hdropped (by decide) rfl
  have hsleeping' : RampReachable {} 0 (⟨6, true, 20, [6]⟩, {.sleeping 50000006}) :=
    hthird.move_alone (.waits (by decide) (by decide))
  have hslept : RampReachable {} 0 (⟨6, true, 50000007, [6]⟩, {.storing}) :=
    hsleeping'.move_alone (.slept (by decide) (by decide))
  have hlast : RampReachable {} 0 (⟨50000008, false, 50000008, [50000008, 6]⟩, 0) :=
    hslept.move_alone (.stored (by decide))
  exact ramp_up_spaced hlast

end NzbNntp
