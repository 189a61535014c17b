import NzbNntp.Pool.Permits

/-!
The limit of a pool. Parked connections hold no permit, so the permits alone do
not bound the connections. What does is that every idle connection is matched by
a spare slot: a permit, or the slot of an `acquire` that has not popped yet, or
one that is about to be credited. An `acquire` goes on to create a connection
without taking an idle one only if there was none, and uses up one spare slot
otherwise.
-/

namespace NzbNntp

open Interruptible Interleaving

variable {π : Type}

def tagsOf (conns : List (PooledConnection π)) : Multiset Nat := ↑(conns.map (·.tag))

@[simp] theorem tagsOf_nil : tagsOf ([] : List (PooledConnection π)) = 0 := rfl

@[simp] theorem tagsOf_cons (p : PooledConnection π) (conns : List (PooledConnection π)) :
    tagsOf (p :: conns) = p.tag ::ₘ tagsOf conns := rfl

@[simp] theorem tagsOf_append (conns conns' : List (PooledConnection π)) :
    tagsOf (conns ++ conns') = tagsOf conns + tagsOf conns' := by
  rw [tagsOf, List.map_append, ← Multiset.coe_add]
  rfl

namespace PoolTask

/-- A connection that is checked out, to its user or to the call that takes it back. -/
def isCheckedOut : PoolTask π → Bool
  | .holding _ | .parking _ | .disposing _ => true
  | _ => false

/-- An `acquire` past the idle pop, with a connection to check or to create. -/
def isPastPop : PoolTask π → Bool
  | .checking _ | .rampingUp | .connecting _ => true
  | _ => false

def isAcquiring : PoolTask π → Bool
  | .awaitingPermit | .permitted | .checking _ | .rampingUp | .connecting _ => true
  | _ => false

def spare : PoolTask π → Nat
  | .permitted | .crediting => 1
  | _ => 0

theorem slots_eq_spare {t : PoolTask π} (ht : t.GuardOk) :
    t.slots = t.spare + ((if t.isCheckedOut then 1 else 0) + (if t.isPastPop then 1 else 0)) := by
  cases t with
  | holding p =>
      have harmed : p.armed = true := ht
      simp [slots, spare, isCheckedOut, isPastPop, harmed]
  | _ => rfl

theorem load_slots_eq_spare {tasks : Multiset (PoolTask π)} (h : ∀ t ∈ tasks, t.GuardOk) :
    load slots tasks =
      load spare tasks + (tasks.countP (·.isCheckedOut) + tasks.countP (·.isPastPop)) := by
  rw [← load_ite, ← load_ite, ← load_add_fun, ← load_add_fun]
  exact congrArg Multiset.sum (Multiset.map_congr rfl fun t ht => slots_eq_spare (h t ht))

def tags : PoolTask π → Multiset Nat
  | .holding p | .checking p | .parking p | .disposing p => {p.tag}
  | .closing conns => tagsOf conns
  | _ => 0

end PoolTask

def ConnectionPool.tags (pool : ConnectionPool π) : Multiset Nat := tagsOf pool.idle

section Steps

variable [Peer π] {config : ServerConfig} {pool pool' : ConnectionPool π} {t : PoolTask π}
  {ts : Multiset (PoolTask π)}

/-- Every step keeps the idle connections matched by spare slots, `others` being
those of the other tasks. -/
theorem spare_kept (hpool : pool.GuardOk) (ht : t.GuardOk) (hstep : PoolStep config pool t pool' ts)
    {others : Nat} (h : pool.idle.length ≤ pool.permits + (t.spare + others)) :
    pool'.idle.length ≤ pool'.permits + (load PoolTask.spare ts + others) := by
  cases hstep with
  | permitGranted hpermits =>
      simp only [load_singleton, PoolTask.spare] at h ⊢
      omega
  | popMiss hidle =>
      rw [hidle]
      exact Nat.zero_le _
  -- One idle connection less, for the spare slot that the call gives up.
  | popFresh hidle _ _ | popStale hidle _ _ =>
      rw [hidle, List.length_append, List.length_singleton] at h
      simp only [load_singleton, PoolTask.spare] at h ⊢
      omega
  | popBad hidle _ =>
      rw [ConnectionPool.dropConnection_of_disarmed (hpool _ (by rw [hidle]; simp))]
      rw [hidle, List.length_append, List.length_singleton] at h
      simp only [load_singleton, PoolTask.spare] at h ⊢
      omega
  | checkFailed _ =>
      rw [ConnectionPool.dropConnection_of_disarmed ht.1]
      simpa [PoolTask.spare] using h
  | checkCancelled =>
      rw [ConnectionPool.dropConnection_of_disarmed ht.1]
      simp only [ConnectionPool.addPermit_idle, ConnectionPool.addPermit_permits, load_zero,
        PoolTask.spare] at h ⊢
      omega
  | rampCancelled | connectFailed _ | connectCancelled | credited =>
      simp only [ConnectionPool.addPermit_idle, ConnectionPool.addPermit_permits, load_zero,
        PoolTask.spare] at h ⊢
      omega
  | released =>
      split <;> simpa [PoolTask.spare] using h
  -- A connection in use carries an armed guard, so its drop is about to credit a permit.
  | @dropped _ p =>
      have harmed : p.armed = true := ht
      simp only [harmed, if_true, load_singleton, PoolTask.spare] at h ⊢
      omega
  | parked =>
      simp only [ConnectionPool.push, List.length_append, List.length_singleton, load_singleton,
        PoolTask.spare] at h ⊢
      omega
  | disposed =>
      rw [ConnectionPool.dropConnection_of_disarmed ht]
      simp only [load_singleton, PoolTask.spare] at h ⊢
      omega
  | drained => exact Nat.zero_le _
  | @closed _ p rest =>
      rw [ConnectionPool.dropConnection_of_disarmed (ht p (by simp))]
      simpa [PoolTask.spare] using h
  | closeEnded =>
      rw [ConnectionPool.foldr_dropConnection ht]
      simpa [PoolTask.spare] using h
  | _ => simpa [PoolTask.spare] using h

theorem spare_matches {c : ConnectionPool π × Multiset (PoolTask π)}
    (h : PoolReachable config c) : c.1.idle.length ≤ c.1.permits + load PoolTask.spare c.2 := by
  refine h.invariant_of_keeps (P := fun c : ConnectionPool π × Multiset (PoolTask π) =>
    c.1.idle.length ≤ c.1.permits + load PoolTask.spare c.2) guards_kept
    (by simp [ConnectionPool.GuardOk, ConnectionPool.new]) (Nat.zero_le _) ?_ ?_
  · intro pool t pool' ts rest hpool ht hP hstep
    rw [load_cons] at hP
    rw [load_add]
    exact spare_kept hpool ht hstep hP
  · rintro pool t rest hP (_ | _)
    · simpa [PoolTask.spare] using hP
    · simpa [PoolTask.spare] using hP

/-- A step hands connections on or drops them, or creates one. -/
theorem tags_kept (hstep : PoolStep config pool t pool' ts) :
    (pool'.tags + load PoolTask.tags ts ≤ pool.tags + t.tags ∧ pool'.nextTag = pool.nextTag) ∨
      (pool'.tags + load PoolTask.tags ts = pool.nextTag ::ₘ (pool.tags + t.tags) ∧
        pool'.nextTag = pool.nextTag + 1) := by
  cases hstep with
  | popFresh hidle _ _ | popStale hidle _ _ =>
      refine .inl ⟨le_of_eq ?_, rfl⟩
      simp [ConnectionPool.tags, hidle, PoolTask.tags, PooledConnection.arm]
  | popBad hidle _ =>
      refine .inl ⟨?_, by simp⟩
      simp [ConnectionPool.tags, hidle, PoolTask.tags]
  -- The only step that brings a tag into the pool.
  | connected _ =>
      refine .inr ⟨?_, rfl⟩
      simp only [ConnectionPool.tags, PoolTask.tags, load_singleton, add_zero]
      rw [add_comm, Multiset.singleton_add]
  | released =>
      refine .inl ⟨le_of_eq ?_, rfl⟩
      split <;> simp [PoolTask.tags, PooledConnection.disarm]
  | dropped =>
      refine .inl ⟨?_, rfl⟩
      split <;> simp [PoolTask.tags]
  | parked =>
      refine .inl ⟨le_of_eq ?_, rfl⟩
      simp [ConnectionPool.tags, ConnectionPool.push, PoolTask.tags]
  | drained =>
      refine .inl ⟨le_of_eq ?_, rfl⟩
      simp [ConnectionPool.tags, PoolTask.tags]
  | closed =>
      refine .inl ⟨?_, by simp⟩
      simp [ConnectionPool.tags, PoolTask.tags, Multiset.le_cons_self]
  | closeEnded =>
      refine .inl ⟨?_, by simp⟩
      rw [ConnectionPool.tags, ConnectionPool.foldr_dropConnection_idle, load_zero, add_zero]
      exact Multiset.le_add_right _ _
  | _ =>
      refine .inl ⟨?_, by simp⟩
      simp [ConnectionPool.tags, PoolTask.tags, PooledConnection.disarm]

/-- No connection is in two places. The tags of the connections to come are not
in use yet. -/
theorem tags_nodup {c : ConnectionPool π × Multiset (PoolTask π)} (h : PoolReachable config c) :
    (c.1.tags + load PoolTask.tags c.2).Nodup ∧
      ∀ tag ∈ c.1.tags + load PoolTask.tags c.2, tag < c.1.nextTag := by
  refine h.invariant (P := fun c : ConnectionPool π × Multiset (PoolTask π) =>
    (c.1.tags + load PoolTask.tags c.2).Nodup ∧
      ∀ tag ∈ c.1.tags + load PoolTask.tags c.2, tag < c.1.nextTag) ?_ ?_ ?_
  · exact ⟨Multiset.nodup_zero, fun tag htag => absurd htag (Multiset.notMem_zero tag)⟩
  · rintro pool t pool' ts rest ⟨hnodup, hlt⟩ hstep
    rw [load_cons, ← add_assoc] at hnodup hlt
    rw [load_add, ← add_assoc]
    rcases tags_kept hstep with ⟨hle, hnext⟩ | ⟨heq, hnext⟩
    · have hle' := add_le_add_left hle (load PoolTask.tags rest)
      refine ⟨Multiset.nodup_of_le hle' hnodup, fun tag htag => ?_⟩
      rw [hnext]
      exact hlt tag (Multiset.mem_of_le hle' htag)
    · rw [heq, Multiset.cons_add, hnext]
      refine ⟨Multiset.nodup_cons.mpr ⟨fun hmem => absurd (hlt _ hmem) (lt_irrefl _), hnodup⟩, ?_⟩
      intro tag htag
      rcases Multiset.mem_cons.mp htag with rfl | htag
      · exact Nat.lt_succ_self _
      · exact Nat.lt_succ_of_lt (hlt tag htag)
  · rintro pool t rest hP (_ | _)
    · simpa [PoolTask.tags] using hP
    · simpa [PoolTask.tags] using hP

/-- An `acquire` that returns a connection returns a healthy one. -/
theorem acquired_healthy {p : PooledConnection π} (ht : t.GuardOk)
    (hstep : PoolStep config pool t pool' ts) (hacquiring : t.isAcquiring = true)
    (hp : .holding p ∈ ts) : p.conn.isHealthy = true := by
  cases hstep with
  | popFresh _ hhealthy _ =>
      obtain rfl : p = _ := PoolTask.holding.inj (Multiset.mem_singleton.mp hp)
      exact hhealthy
  | @checkPassed _ q w events now h =>
      obtain rfl : p = _ := PoolTask.holding.inj (Multiset.mem_singleton.mp hp)
      have htransport : HasTransport { conn := q.conn, events } := (isHealthy_iff.mp ht.2).2
      exact wp_ok (ping_healthy htransport) h
  | connected h =>
      obtain rfl : p = _ := PoolTask.holding.inj (Multiset.mem_singleton.mp hp)
      exact wp_ok (connect_healthy config _) h
  | used | released | discarded | dropped => cases hacquiring
  | _ => simp at hp

end Steps

/-- **The limit.** In every reachable state the idle connections, those that are
checked out and the `acquire` calls past the idle pop are together at most the
connections of the configuration; no connection is in two places; and an
`acquire` that returns gives a connection that is `Ready` and has a transport. -/
theorem pool_within_limit [Peer π] {config : ServerConfig} {pool : ConnectionPool π}
    {tasks : Multiset (PoolTask π)} (h : PoolReachable config (pool, tasks)) :
    pool.idle.length + tasks.countP (·.isCheckedOut) + tasks.countP (·.isPastPop) ≤
        config.connections ∧
      (pool.tags + load PoolTask.tags tasks).Nodup ∧
      ∀ t ∈ tasks, ∀ pool' ts p, PoolStep config pool t pool' ts → t.isAcquiring = true →
        .holding p ∈ ts → p.conn.state = .ready ∧ p.conn.transport.isSome = true := by
  have hguards : pool.GuardOk ∧ ∀ t ∈ tasks, t.GuardOk :=
    h.keeps guards_kept (by simp [ConnectionPool.GuardOk, ConnectionPool.new])
  have hspare : pool.idle.length ≤ pool.permits + load PoolTask.spare tasks := spare_matches h
  have hslots : pool.permits + load PoolTask.slots tasks = config.connections := slots_conserved h
  rw [PoolTask.load_slots_eq_spare hguards.2] at hslots
  refine ⟨by omega, (tags_nodup h).1, ?_⟩
  intro t ht pool' ts p hstep hacquiring hp
  exact isHealthy_iff.mp (acquired_healthy (hguards.2 t ht) hstep hacquiring hp)

/-- One connection is idle, one checked out, and one, that will be healthy, about to be made. -/
theorem pool_within_limit_on_busy_pool :
    ∃ (pool : ConnectionPool ReplyServer) (tasks : Multiset (PoolTask ReplyServer)),
      pool.idle.length = 1 ∧ tasks.countP (·.isCheckedOut) = 1 ∧ tasks.countP (·.isPastPop) = 1 ∧
        pool.idle.length + tasks.countP (·.isCheckedOut) + tasks.countP (·.isPastPop) ≤
          plainConfig.connections ∧
        (pool.tags + load PoolTask.tags tasks).Nodup ∧
        ∃ t ∈ tasks, ∃ pool' p, PoolStep plainConfig pool t pool' {.holding p} ∧
          t.isAcquiring = true ∧ p.conn.state = .ready ∧ p.conn.transport.isSome = true := by
  obtain ⟨p, q, -, hbusy⟩ := busy_reachable
  obtain ⟨hlimit, hnodup, hhealthy⟩ := pool_within_limit hbusy
  obtain ⟨w, hconnect⟩ : ∃ w, connect plainConfig dialCapable
      { conn := .new "#3", events := [] } = .ok () w := ⟨_, rfl⟩
  have hconnected : PoolStep plainConfig { idle := [p], permits := 5, createdCount := 3, nextTag := 2 }
      (.connecting "#3") { idle := [p], permits := 5, createdCount := 3, nextTag := 3 }
      {.holding { conn := w.conn, lastUsed := 0, armed := true, tag := 2 }} := .connected hconnect
  refine ⟨_, _, rfl, rfl, rfl, hlimit, hnodup, .connecting "#3", by simp, _, _, hconnected, rfl, ?_⟩
  exact hhealthy _ (by simp) _ _ _ hconnected rfl (Multiset.mem_singleton_self _)

end NzbNntp
