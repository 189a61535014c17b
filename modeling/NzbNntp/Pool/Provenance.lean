import Mathlib.Algebra.Order.Group.Nat
import NzbNntp.Pool.Permits

/-!
Several pools side by side, and connections that change hands between them. The guard of a
connection refers to the semaphore of the pool that handed it out; the guard of
`PooledConnection::unmanaged` is empty. `release` and `discard` take any connection: they
empty its guard without looking at it and add a permit to their own pool. So a pool whose
users bring it connections of others gains slots. One that gets back only what it handed out
never has more permits than its configuration allows, whatever happens to its connections
elsewhere.
-/

namespace NzbNntp

open Interruptible Interleaving

variable {ι π : Type}

def PooledConnection.unmanaged (conn : NntpConnection π) (now tag : Nat) : PooledConnection π :=
  { conn, lastUsed := now, armed := false, tag }

/-- A task of one of the pools, or the user of a connection that no pool handed out. -/
inductive PoolsTask (ι π : Type) where
  | of (i : ι) (t : PoolTask π)
  | unmanaged (p : PooledConnection π)

namespace PoolsTask

def held : PoolsTask ι π → Option (PooledConnection π)
  | of _ (.holding p) => some p
  | unmanaged p => some p
  | _ => none

def guard : PoolsTask ι π → Option ι
  | of i (.holding p) => if p.armed then some i else none
  | _ => none

inductive Starts : PoolsTask ι π → Prop where
  | task {i t} (h : t.Starts) : Starts (of i t)
  | unmanaged {conn now tag} : Starts (unmanaged (.unmanaged conn now tag))

end PoolsTask

/-- The atomic steps of the tasks of all pools. A connection may always go back to the pool
that handed it out; `Passes j guard` says whether the users of pool `j` also pass it, to
`release` or `discard`, a connection with that guard. -/
inductive PoolsStep [DecidableEq ι] [Peer π] (configs : ι → ServerConfig)
    (Passes : ι → Option ι → Prop) : Local (ι → ConnectionPool π) (PoolsTask ι π) where
  | within {pools i t pool' ts} (h : PoolStep (configs i) (pools i) t pool' ts) :
      PoolsStep configs Passes pools (.of i t) (Function.update pools i pool') (ts.map (.of i))
  | released {pools t p} (j : ι) (hheld : t.held = some p) (hpasses : Passes j t.guard) :
      PoolsStep configs Passes pools t pools
        {.of j (if p.conn.isHealthy then .parking p.disarm else .disposing p.disarm)}
  | discarded {pools t p} (j : ι) (hheld : t.held = some p) (hpasses : Passes j t.guard) :
      PoolsStep configs Passes pools t pools {.of j (.disposing p.disarm)}
  | used {pools p conn} :
      PoolsStep configs Passes pools (.unmanaged p) pools {.unmanaged { p with conn }}
  | dropped {pools p} : PoolsStep configs Passes pools (.unmanaged p) pools 0

def PoolsReachable [DecidableEq ι] [Peer π] (configs : ι → ServerConfig)
    (Passes : ι → Option ι → Prop) :
    (ι → ConnectionPool π) × Multiset (PoolsTask ι π) → Prop :=
  Reachable (PoolsStep configs Passes) PoolsTask.Starts fun i => .new (configs i)

namespace PoolsTask

def GuardOk : PoolsTask ι π → Prop
  | of _ t => t.GuardOk
  | unmanaged p => p.armed = false

def slots [DecidableEq ι] (i : ι) : PoolsTask ι π → Nat
  | of j t => if j = i then t.slots else 0
  | unmanaged _ => 0

variable [DecidableEq ι] {i : ι}

@[simp] theorem slots_of_self (i : ι) (t : PoolTask π) : (of i t).slots i = t.slots := if_pos rfl

theorem slots_of_ne {j : ι} (h : j ≠ i) (t : PoolTask π) : (of j t).slots i = 0 := if_neg h

theorem load_slots_self (i : ι) (ts : Multiset (PoolTask π)) :
    load (slots i) (ts.map (of i)) = load PoolTask.slots ts := by
  rw [load, load, Multiset.map_map]
  exact congrArg Multiset.sum (Multiset.map_congr rfl fun t _ => slots_of_self i t)

theorem load_slots_of_ne {j : ι} (h : j ≠ i) (ts : Multiset (PoolTask π)) :
    load (slots i) (ts.map (of j)) = 0 := by
  rw [load, Multiset.map_map]
  exact Multiset.sum_eq_zero fun n hn => by
    obtain ⟨t, -, rfl⟩ := Multiset.mem_map.mp hn
    exact slots_of_ne h t

/-- A connection with the guard of a pool accounts for one of its slots. -/
theorem slots_of_guard {t : PoolsTask ι π} (h : t.guard = some i) : t.slots i = 1 := by
  unfold guard at h
  split at h
  next j p =>
    split at h
    next harmed =>
      obtain rfl := Option.some.inj h
      simp [PoolTask.slots, harmed]
    next => cases h
  next => cases h

end PoolsTask

variable [DecidableEq ι] [Peer π] {configs : ι → ServerConfig} {Passes : ι → Option ι → Prop}

/-- Whatever is passed to whom, a guard is armed exactly while its connection is checked out. -/
theorem all_guards_kept :
    Keeps (PoolsStep (π := π) configs Passes) PoolsTask.Starts
      (fun pools => ∀ i, (pools i).GuardOk) PoolsTask.GuardOk where
  start := by
    intro t ht
    obtain ⟨_ | _⟩ | _ := ht
    · trivial
    · trivial
    · rfl
  move := by
    intro pools t pools' ts hpools ht hstep
    cases hstep with
    | @within _ i u pool' us h =>
        obtain ⟨hpool', hus⟩ := guards_kept.move _ _ _ _ (hpools i) ht h
        refine ⟨fun j => ?_, fun t ht => ?_⟩
        · by_cases hj : j = i
          · subst hj
            rwa [Function.update_self]
          · rw [Function.update_of_ne hj]
            exact hpools j
        · obtain ⟨u, hu, rfl⟩ := Multiset.mem_map.mp ht
          exact hus u hu
    | released j hheld _ =>
        refine ⟨hpools, ?_⟩
        split <;> simp [PoolsTask.GuardOk, PoolTask.GuardOk, PooledConnection.disarm]
    | discarded j hheld _ =>
        exact ⟨hpools, by simp [PoolsTask.GuardOk, PoolTask.GuardOk, PooledConnection.disarm]⟩
    | used => exact ⟨hpools, by simpa [PoolsTask.GuardOk] using ht⟩
    | dropped => exact ⟨hpools, by simp⟩

/-- No step makes a slot of a pool to which only its own connections are passed. One that
passes a connection of the pool to another loses a slot. -/
theorem pool_slots_le {i : ι} (hown : ∀ guard, Passes i guard → guard = some i)
    {pools pools' : ι → ConnectionPool π} {t : PoolsTask ι π} {ts : Multiset (PoolsTask ι π)}
    (hpools : ∀ i, (pools i).GuardOk) (ht : t.GuardOk)
    (hstep : PoolsStep configs Passes pools t pools' ts) :
    (pools' i).permits + load (PoolsTask.slots i) ts ≤ (pools i).permits + t.slots i := by
  have htaken : ∀ (j : ι) (u : PoolTask π), Passes j t.guard → u.slots = 1 →
      (PoolsTask.of j u).slots i ≤ t.slots i := by
    intro j u hpasses hu
    by_cases hj : j = i
    · subst hj
      rw [PoolsTask.slots_of_self, hu, PoolsTask.slots_of_guard (hown _ hpasses)]
    · rw [PoolsTask.slots_of_ne hj]
      exact Nat.zero_le _
  cases hstep with
  | @within _ j u pool' us h =>
      by_cases hj : j = i
      · subst hj
        rw [Function.update_self, PoolsTask.load_slots_self, PoolsTask.slots_of_self]
        exact le_of_eq (slots_kept (hpools j) ht h)
      · rw [Function.update_of_ne (Ne.symm hj), PoolsTask.load_slots_of_ne hj,
          PoolsTask.slots_of_ne hj]
  | released j _ hpasses =>
      rw [load_singleton]
      apply Nat.add_le_add_left
      split
      · exact htaken j _ hpasses rfl
      · exact htaken j _ hpasses rfl
  | discarded j _ hpasses =>
      rw [load_singleton]
      apply Nat.add_le_add_left
      exact htaken j _ hpasses rfl
  | used => simp [PoolsTask.slots]
  | dropped => simp

/-- **No slots are minted.** As long as the users of a pool pass to `release` and `discard`
only connections that it handed out itself, its permits never exceed the connections of its
configuration, whatever the users of other pools do, with its connections too. -/
theorem permits_le_connections {i : ι} {pools : ι → ConnectionPool π}
    {tasks : Multiset (PoolsTask ι π)}
    (h : PoolsReachable configs (fun j guard => j = i → guard = some i) (pools, tasks)) :
    (pools i).permits ≤ (configs i).connections := by
  have hslots : (pools i).permits + load (PoolsTask.slots i) tasks ≤ (configs i).connections :=
    h.bounds (g := fun pools => (pools i).permits) all_guards_kept
      (by simp [ConnectionPool.GuardOk, ConnectionPool.new])
      (fun _ _ _ _ hpools ht hstep => pool_slots_le (fun _ hguard => hguard rfl) hpools ht hstep)
      (by
        rintro t (⟨_ | _⟩ | _)
        · simp [PoolsTask.slots, PoolTask.slots]
        · simp [PoolsTask.slots, PoolTask.slots]
        · rfl)
  omega

def strayConnection : PooledConnection ReplyServer := .unmanaged (.new "") 0 0

/-- A connection without a guard, in the `discard` of one of two pools. -/
theorem stray_reachable {Passes : Bool → Option Bool → Prop} (hpasses : Passes true none) :
    PoolsReachable (fun _ => {}) Passes
      ((fun _ => .new {}), {.of true (.disposing strayConnection)}) := by
  have hstart : PoolsReachable (fun _ : Bool => {}) Passes
      ((fun _ => .new {}), {.unmanaged strayConnection}) :=
    .single (.start .unmanaged)
  exact hstart.move_alone (.discarded (p := strayConnection) true rfl hpasses)

/-- A run of one pool, with the others untouched. -/
theorem pool_alone {i : ι} {pool : ConnectionPool π} {tasks : Multiset (PoolTask π)}
    (h : PoolReachable (configs i) (pool, tasks)) :
    PoolsReachable configs Passes
      (Function.update (fun j => .new (configs j)) i pool, tasks.map (.of i)) := by
  refine h.invariant (P := fun c => PoolsReachable configs Passes
    (Function.update (fun j => .new (configs j)) i c.1, c.2.map (.of i))) ?_ ?_ ?_
  · rw [Function.update_eq_self]
    exact .refl
  · intro pool t pool' ts rest hrun hstep
    dsimp only at hrun ⊢
    rw [Multiset.map_cons] at hrun
    have hwithin : PoolsStep configs Passes (Function.update (fun j => .new (configs j)) i pool)
        (.of i t) (Function.update (Function.update (fun j => .new (configs j)) i pool) i pool')
        (ts.map (.of i)) := .within (by rwa [Function.update_self])
    rw [Function.update_idem] at hwithin
    rw [Multiset.map_add]
    exact hrun.tail (.move hwithin)
  · intro pool t rest hrun hstart
    dsimp only at hrun ⊢
    rw [Multiset.map_cons]
    exact hrun.tail (.start (.task hstart))

/-- A pool has handed out a connection and taken it back. -/
theorem returned_reachable :
    ∃ p : PooledConnection ReplyServer, PoolReachable plainConfig
      ({ idle := [p], permits := 8, createdCount := 1, nextTag := 1 }, 0) := by
  obtain ⟨w, hconnect, hhealthy⟩ : ∃ w, connect plainConfig dialCapable
      { conn := .new "#1", events := [] } = .ok () w ∧ w.conn.isHealthy = true := ⟨_, rfl, rfl⟩
  have hnew : PoolReachable plainConfig ((.new plainConfig : ConnectionPool ReplyServer), 0) :=
    .refl
  obtain ⟨p, hconn, -, -, hholding⟩ := holding_beside hnew (by decide) rfl hconnect
  have hreleased := hholding.move_alone .released
  rw [hconn, hhealthy, if_pos rfl] at hreleased
  have hparking : PoolStep plainConfig
      ({ permits := 7, createdCount := 1, nextTag := 1 } : ConnectionPool ReplyServer)
      (.parking p.disarm)
      { idle := [{ p.disarm with lastUsed := 0 }], permits := 7, createdCount := 1, nextTag := 1 }
      {.crediting} := .parked
  have hparked := hreleased.move_alone hparking
  exact ⟨_, hparked.move_alone .credited⟩

/-- One pool has its connection back while another discards one that no pool handed out. -/
theorem permits_le_connections_on_stray :
    ∃ (pools : Bool → ConnectionPool ReplyServer) (p : PooledConnection ReplyServer),
      PoolsReachable (fun _ => plainConfig) (fun j guard => j = false → guard = some false)
        (pools, {.of true (.disposing strayConnection)}) ∧
      (pools false).idle = [p] ∧ (pools false).permits ≤ plainConfig.connections := by
  obtain ⟨p, hreturned⟩ := returned_reachable
  let pools : Bool → ConnectionPool ReplyServer := Function.update (fun _ => .new plainConfig) false
    { idle := [p], permits := 8, createdCount := 1, nextTag := 1 }
  have hpools : PoolsReachable (fun _ => plainConfig) (fun j guard => j = false → guard = some false)
      (pools, (0 : Multiset (PoolTask ReplyServer)).map (.of false)) := pool_alone hreturned
  have hstarts : PoolsTask.Starts (.unmanaged strayConnection : PoolsTask Bool ReplyServer) :=
    .unmanaged
  have hstray : PoolsReachable (fun _ => plainConfig) (fun j guard => j = false → guard = some false)
      (pools, {.unmanaged strayConnection}) := hpools.tail (.start hstarts)
  have hdiscarding := hstray.move_alone (.discarded true rfl (by simp))
  exact ⟨pools, p, hdiscarding, rfl, permits_le_connections hdiscarding⟩

/-- The pool that discards the connection without a guard has one permit too many. -/
theorem stray_mints :
    ¬ ∀ (pools : Bool → ConnectionPool ReplyServer) (tasks : Multiset (PoolsTask Bool ReplyServer)),
      PoolsReachable (fun _ => {}) (fun _ _ => True) (pools, tasks) →
        ∀ i, (pools i).permits ≤ ({} : ServerConfig).connections := by
  intro h
  have hdiscarded : PoolsReachable (fun _ : Bool => {}) (fun _ _ => True)
      ((fun _ => .new {}), {.of true (.disposing strayConnection)}) := stray_reachable trivial
  have hcrediting := hdiscarded.move_alone (.within .disposed)
  have hcredited := hcrediting.move_alone (.within .credited)
  exact absurd (h _ _ hcredited true) (by decide)

end NzbNntp
