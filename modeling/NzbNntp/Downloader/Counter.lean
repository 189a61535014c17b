import NzbNntp.Connection.Calls
import NzbNntp.Connection.Negotiation
import NzbNntp.Downloader.Calls
import NzbNntp.Downloader.Choice
import NzbNntp.Pool.Permits

/-!
The counter of the connections of a server that are in use. A call counts its connection
when `acquire` has given it, and takes it off the counter in the lock scope that gives it
back. So the counter is the number of the calls between the two, and each of them holds a
slot of the pool, but for the one in the lock scope; while that one is there, no other
call counts a connection.

A call that is dropped in `fetch_article` gives its slot back, by the guard of the
connection, and never takes it off the counter.
-/

namespace NzbNntp

open Interruptible Interleaving

namespace Downloader

namespace DownloadTask

variable {π : Type}

/-- The call has counted its connection, of the pool `ref`, and it is still on the
counter. -/
def holds (ref : PoolRef) : DownloadTask π → Bool
  | .fetching job _ | .fetched job _ _ | .returning job _ _ | .recording job _ =>
      job.pick.pool = ref
  | _ => false

def inScope : DownloadTask π → Bool
  | .returning _ _ _ | .recording _ _ => true
  | _ => false

/-- The call has a connection of the pool `ref` checked out, and does not give it back
yet. -/
def hasConnection (ref : PoolRef) : DownloadTask π → Bool
  | .acquired job _ | .fetching job _ | .fetched job _ _ => job.pick.pool = ref
  | _ => false

theorem poolTask_of_hasConnection {t : DownloadTask π} {ref : PoolRef}
    (h : t.hasConnection ref = true) : ∃ p, t.poolTask ref = some (.holding p) := by
  cases t with
  | acquired job p | fetching job p | fetched job p outcome =>
      exact ⟨p, (poolTask_of_some rfl ref).trans (if_pos (of_decide_eq_true h))⟩
  | _ => cases h

def isCall : DownloadTask π → Bool
  | .leaving _ _ => false
  | _ => true

theorem isCall_of_holds {t : DownloadTask π} {ref : PoolRef} (h : t.holds ref = true) :
    t.isCall = true := by
  cases t <;> first | rfl | cases h

theorem hasConnection_of_holds {t : DownloadTask π} {ref : PoolRef} (h : t.holds ref = true)
    (hscope : t.inScope = false) : t.hasConnection ref = true := by
  cases t with
  | fetching job p | fetched job p outcome => exact h
  | returning job outcome task | recording job outcome => cases hscope
  | _ => cases h

def job? : DownloadTask π → Option Job
  | .acquiring job _ | .failed job _ | .acquired job _ | .fetching job _ | .fetched job _ _
  | .returning job _ _ | .recording job _ => some job
  | _ => none

@[simp] theorem job?_acquireAt (job : Job) (u : PoolTask π) : (acquireAt job u).job? = some job := by
  cases u <;> rfl

theorem holds_acquireAt (job : Job) (u : PoolTask π) (ref : PoolRef) :
    (acquireAt job u).holds ref = false := by
  cases u <;> rfl

theorem inScope_acquireAt (job : Job) (u : PoolTask π) :
    (acquireAt job u).inScope = false := by
  cases u <;> rfl

/-- The pool of the server that was picked is the one it was made with. -/
def PickOk (t : DownloadTask π) : Prop := ∀ job, t.job? = some job → job.pick.pool = job.pick.index

def DropsFetch (t : DownloadTask π) (ts : Multiset (DownloadTask π)) : Prop :=
  ∃ job p, t = .fetching job p ∧ ∀ q outcome, .fetched job q outcome ∉ ts

end DownloadTask

section Picks

variable {π : Type} [Peer π] {configs : List ServerConfig} {gz : GzDecoder}

theorem Later.modify {servers : List ServerState} (h : Later configs servers) (index : Nat)
    {f : ServerState → ServerState} (hf : ∀ server, (f server).identity = server.identity) :
    Later configs (servers.modify index f) :=
  (roster_modify servers index hf).trans h

theorem Later.pick {servers : List ServerState} (h : Later configs servers) {clock : Nat → Nat}
    {tried : List String} {pick : ServerPick} (hpick : pickServer clock servers tried = some pick) :
    pick.pool = pick.index := by
  obtain ⟨server, hserver, -, -, hpool, -⟩ := pickFrom_names hpick
  rw [hpool, (h.madeFor hserver).1, Nat.sub_zero]

theorem picks_kept :
    Keeps (DownloadStep (π := π) configs gz) DownloadTask.Starts
      (fun s => Later configs s.servers) DownloadTask.PickOk where
  start := by
    rintro _ ⟨articles⟩ job hjob
    cases hjob
  move := by
    intro s t s' ts hs ht h
    cases h with
    | ended | sendDropped => exact ⟨hs, by simp⟩
    | exhausted _ _ | sent => exact ⟨hs, by simp [DownloadTask.PickOk, DownloadTask.job?]⟩
    | picked _ hpick =>
        refine ⟨hs, fun u hu job hjob => ?_⟩
        rw [Multiset.mem_singleton.mp hu] at hjob
        obtain rfl := Option.some.inj hjob
        exact hs.pick hpick
    | acquires _ =>
        refine ⟨hs, fun u hu => ?_⟩
        obtain ⟨task, -, rfl⟩ := Multiset.mem_map.mp hu
        intro job hjob
        rw [DownloadTask.job?_acquireAt] at hjob
        exact ht job hjob
    | leaves _ =>
        refine ⟨hs, fun u hu => ?_⟩
        obtain ⟨task, -, rfl⟩ := Multiset.mem_map.mp hu
        exact fun job hjob => by cases hjob
    | fetchDropped =>
        refine ⟨hs, fun u hu job hjob => ?_⟩
        split at hu
        · rw [Multiset.mem_singleton.mp hu] at hjob
          cases hjob
        · exact absurd hu (Multiset.notMem_zero u)
    | penalized _ =>
        refine ⟨hs.modify _ fun server => server.penalizeFor_identity _ _, fun u hu job hjob => ?_⟩
        rw [Multiset.mem_singleton.mp hu] at hjob
        cases hjob
    | counted _ =>
        refine ⟨hs.modify _ ServerState.countAcquired_identity, fun u hu => ?_⟩
        rw [Multiset.mem_singleton.mp hu]
        exact ht
    | @recorded s job outcome now =>
        refine ⟨hs.modify _ (record_identity _ _), fun u hu job hjob => ?_⟩
        rw [Multiset.mem_singleton.mp hu] at hjob
        cases outcome <;> cases hjob
    | acquireFailed _ | fetchReturned _ _ | lockTaken _ | returns _ | returned _ =>
        refine ⟨hs, fun u hu => ?_⟩
        rw [Multiset.mem_singleton.mp hu]
        exact ht

end Picks

/-! ### The counters -/

namespace Shared

variable {π : Type}

def active (s : Shared π) (index : Nat) : Option UInt16 :=
  s.servers[index]?.map (·.connectionsActive)

theorem active_modify (s : Shared π) (index : Nat) (f : ServerState → ServerState)
    (g : UInt16 → UInt16) (hf : ∀ server, (f server).connectionsActive = g server.connectionsActive)
    (i : Nat) : (s.modify index f).active i = if index = i then (s.active i).map g else s.active i := by
  simp only [active, modify, List.getElem?_modify]
  split
  · cases s.servers[i]? with
    | none => rfl
    | some server => exact congrArg some (hf server)
  · simp

end Shared

theorem record_connectionsActive (fetched : NntpResult NntpResponse) (now : Nat)
    (server : ServerState) : (record fetched now server).connectionsActive =
      if server.connectionsActive = 0 then 0 else server.connectionsActive - 1 := by
  unfold record
  split
  · rfl
  · rfl
  · dsimp only
    split
    · rfl
    · rfl

section Counters

variable {π : Type} [Peer π] {configs : List ServerConfig} {gz : GzDecoder} {s s' : Shared π}
  {t : DownloadTask π} {ts : Multiset (DownloadTask π)}

/-- What a step does to the counters: nothing, or it counts a connection, or takes one off. -/
inductive Counts (s : Shared π) (t : DownloadTask π) (s' : Shared π)
    (ts : Multiset (DownloadTask π)) : Prop where
  | keeps (hactive : ∀ i, s'.active i = s.active i)
      (hholds : ∀ ref, ts.countP (·.holds ref) = (t.holds ref).toNat)
      (hscope : ts.countP (·.inScope) + s.locked.toNat = t.inScope.toNat + s'.locked.toNat)
  | counted {job p} (ht : t = .acquired job p) (hts : ts = {.fetching job p})
      (hlock : s.locked = false) (hs' : s' = s.modify job.pick.index ServerState.countAcquired)
  | recorded {job outcome now u} (ht : t = .recording job outcome) (hts : ts = {u})
      (hu : u.inScope = false ∧ ∀ ref, u.holds ref = false)
      (hs' : s' = { s.modify job.pick.index (record outcome now) with locked := false })

theorem DownloadStep.counts (h : DownloadStep configs gz s t s' ts)
    (hkept : ¬ DownloadTask.DropsFetch t ts) : Counts s t s' ts := by
  cases h with
  | counted hlock => exact .counted rfl rfl hlock rfl
  | @recorded s job outcome now =>
      refine .recorded rfl rfl ?_ rfl
      cases outcome with
      | ok response => exact ⟨rfl, fun _ => rfl⟩
      | error e => exact ⟨rfl, fun _ => rfl⟩
  -- The step that leaves the counter behind; it is excluded by `hkept`.
  | @fetchDropped s job p =>
      refine absurd ⟨job, p, rfl, fun q outcome hmem => ?_⟩ hkept
      split at hmem
      · cases Multiset.mem_singleton.mp hmem
      · exact absurd hmem (Multiset.notMem_zero _)
  | acquires _ =>
      refine .keeps (fun _ => rfl) (fun ref => ?_) ?_
      · exact countP_map_eq_zero (fun u => DownloadTask.holds_acquireAt _ u ref) _
      · rw [countP_map_eq_zero fun u => DownloadTask.inScope_acquireAt _ u]
        rfl
  | leaves _ =>
      refine .keeps (fun _ => rfl) (fun ref => countP_map_eq_zero (fun _ => rfl) _) ?_
      rw [countP_map_eq_zero fun _ => rfl]
      rfl
  | penalized _ =>
      refine .keeps (fun i => ?_) (fun ref => countP_singleton _ _) ?_
      · refine (Shared.active_modify s _ _ id ?_ i).trans ?_
        · exact fun _ => rfl
        · simp
      · rw [countP_singleton]
        rfl
  | ended | sendDropped => exact .keeps (fun _ => rfl) (fun _ => rfl) rfl
  | lockTaken hlock =>
      refine .keeps (fun _ => rfl) (fun ref => countP_singleton _ _) ?_
      rw [countP_singleton, hlock]
      rfl
  | _ =>
      refine .keeps (fun _ => rfl) (fun ref => countP_singleton _ _) ?_
      rw [countP_singleton]
      rfl

omit [Peer π] in
/-- Among the tasks of a pool there are at least those of the calls that have a connection
checked out, and each of these takes up a slot. -/
theorem hasConnection_le_slots (ref : PoolRef) (tasks : Multiset (DownloadTask π))
    (h : ∀ u ∈ tasks.filterMap (DownloadTask.poolTask ref), u.GuardOk) :
    tasks.countP (·.hasConnection ref) ≤
      load PoolTask.slots (tasks.filterMap (DownloadTask.poolTask ref)) := by
  induction tasks using Multiset.induction with
  | empty => exact le_rfl
  | cons t rest ih =>
      rw [filterMap_cons] at h ⊢
      rw [Multiset.countP_cons, load_add]
      have hrest := ih fun u hu => h u (Multiset.mem_add.mpr (.inr hu))
      split
      · rename_i hconnection
        obtain ⟨p, hp⟩ := DownloadTask.poolTask_of_hasConnection hconnection
        have harmed : p.armed = true := h (.holding p) (by simp [hp])
        have hslot : load PoolTask.slots (↑(t.poolTask ref).toList : Multiset (PoolTask π)) = 1 := by
          rw [hp]
          simp [load, PoolTask.slots, harmed]
        omega
      · omega

/-- The connections that the calls have checked out of a pool. -/
theorem hasConnection_le {c : Shared π × Multiset (DownloadTask π)}
    (h : DownloadReachable configs gz c) (ref : PoolRef) :
    c.2.countP (·.hasConnection ref) ≤ (configOf configs ref).connections := by
  have hpool := h.pool ref
  have hguards := hpool.keeps guards_kept (by simp [ConnectionPool.GuardOk, ConnectionPool.new])
  have hslots := slots_conserved hpool
  have hle := hasConnection_le_slots ref c.2 hguards.2
  dsimp only at hslots
  omega

/-- The steps of the calls, but for the drop of a call in `fetch_article`. -/
def KeptStep (configs : List ServerConfig) (gz : GzDecoder) :
    Local (Shared π) (DownloadTask π) := fun s t s' ts =>
  DownloadStep configs gz s t s' ts ∧ ¬ DownloadTask.DropsFetch t ts

omit [Peer π] in
/-- While the lock is free, every call that holds a connection has it checked out. -/
theorem holds_le_hasConnection {rest : Multiset (DownloadTask π)}
    (hfree : rest.countP (·.inScope) = 0) (ref : PoolRef) :
    rest.countP (·.holds ref) ≤ rest.countP (·.hasConnection ref) := by
  induction rest using Multiset.induction with
  | empty => exact le_rfl
  | cons u rest ih =>
      rw [countP_cons] at hfree
      rw [countP_cons, countP_cons]
      have hu : u.inScope = false := by
        cases hu : u.inScope with
        | false => rfl
        | true => rw [hu, Bool.toNat_true] at hfree; omega
      have hle := ih (by omega)
      have hone : (u.holds ref).toNat ≤ (u.hasConnection ref).toNat := by
        cases hholds : u.holds ref with
        | false => exact Nat.zero_le _
        | true => rw [DownloadTask.hasConnection_of_holds hholds hu]
      omega

/-- What calls reach when none is dropped in `fetch_article`. -/
abbrev KeptReachable (configs : List ServerConfig) (gz : GzDecoder) :
    Shared π × Multiset (DownloadTask π) → Prop :=
  Reachable (KeptStep configs gz) DownloadTask.Starts (.initial configs)

/-- There is room for a call that is about to count its connection. -/
theorem room_of_free {job : Job} {p : PooledConnection π} {rest : Multiset (DownloadTask π)}
    (h : DownloadReachable configs gz (s, .acquired job p ::ₘ rest))
    (hfree : rest.countP (·.inScope) = 0) :
    1 + rest.countP (·.holds job.pick.pool) ≤ (configOf configs job.pick.pool).connections := by
  have hchecked := hasConnection_le h job.pick.pool
  have hheld := holds_le_hasConnection hfree job.pick.pool
  dsimp only at hchecked
  rw [countP_cons, DownloadTask.hasConnection, decide_eq_true rfl, Bool.toNat_true] at hchecked
  omega

/-- The lock is taken exactly while a call is in its scope, and each counter is the number
of the calls that hold a connection of the server's pool. -/
structure Counted (configs : List ServerConfig) (c : Shared π × Multiset (DownloadTask π)) :
    Prop where
  scope : c.2.countP (·.inScope) = c.1.locked.toNat
  counters : ∀ i n, c.1.active i = some n →
    n.toNat = c.2.countP (·.holds i) ∧ n.toNat ≤ (configOf configs i).connections

omit [Peer π] in
/-- The same, with one call told from the others. -/
theorem counted_cons_iff {rest : Multiset (DownloadTask π)} :
    Counted configs (s, t ::ₘ rest) ↔
      t.inScope.toNat + rest.countP (·.inScope) = s.locked.toNat ∧
        ∀ i n, s.active i = some n →
          n.toNat = (t.holds i).toNat + rest.countP (·.holds i) ∧
            n.toNat ≤ (configOf configs i).connections := by
  constructor
  · rintro ⟨hscope, hcounters⟩
    refine ⟨(countP_cons _ _ _).symm.trans hscope, fun i n hn => ?_⟩
    rw [← countP_cons]
    exact hcounters i n hn
  · rintro ⟨hscope, hcounters⟩
    refine ⟨(countP_cons _ _ _).trans hscope, fun i n hn => ?_⟩
    rw [countP_cons]
    exact hcounters i n hn

section Moves

variable {job : Job} {p : PooledConnection π} {outcome : NntpResult NntpResponse}
  {rest : Multiset (DownloadTask π)}

omit [Peer π] in
theorem Counted.keeps (hactive : ∀ i, s'.active i = s.active i)
    (hholds : ∀ ref, ts.countP (·.holds ref) = (t.holds ref).toNat)
    (hscope : ts.countP (·.inScope) + s.locked.toNat = t.inScope.toNat + s'.locked.toNat)
    (h : Counted configs (s, t ::ₘ rest)) : Counted configs (s', ts + rest) := by
  obtain ⟨hbefore, hcounters⟩ := counted_cons_iff.mp h
  refine ⟨?_, fun i n hn => ?_⟩
  · rw [Multiset.countP_add]
    dsimp only
    omega
  · rw [Multiset.countP_add, hholds]
    exact hcounters i n ((hactive i).symm.trans hn)

omit [Peer π] in
theorem Counted.count (hpool : job.pick.pool = job.pick.index)
    (hroom : 1 + rest.countP (·.holds job.pick.pool) ≤ (configOf configs job.pick.pool).connections)
    (hwidth : ∀ ref, (configOf configs ref).connections < 2 ^ 16)
    (h : Counted configs (s, .acquired job p ::ₘ rest)) :
    Counted configs (s.modify job.pick.index ServerState.countAcquired, .fetching job p ::ₘ rest) := by
  obtain ⟨hscope, hcounters⟩ := counted_cons_iff.mp h
  rw [hpool] at hroom
  refine counted_cons_iff.mpr ⟨hscope, fun i n hn => ?_⟩
  rw [s.active_modify _ _ (· + 1) fun _ => rfl] at hn
  rw [DownloadTask.holds, hpool]
  by_cases hi : job.pick.index = i
  · subst hi
    rw [if_pos rfl] at hn
    obtain ⟨m, hm, rfl⟩ := Option.map_eq_some_iff.mp hn
    have hbefore : m.toNat = rest.countP (·.holds job.pick.index) := by
      simpa [DownloadTask.holds] using (hcounters _ m hm).1
    have hfits := hwidth job.pick.index
    have hnext : (m + 1).toNat = 1 + rest.countP (·.holds job.pick.index) := by
      rw [UInt16.toNat_add, UInt16.toNat_one, hbefore, Nat.add_comm]
      exact Nat.mod_eq_of_lt (by omega)
    rw [decide_eq_true rfl, Bool.toNat_true, hnext]
    exact ⟨rfl, hroom⟩
  · rw [if_neg hi] at hn
    rw [decide_eq_false hi]
    exact hcounters i n hn

omit [Peer π] in
/-- Its own call holds a connection, so the counter is not zero. -/
theorem Counted.takeOff (hpool : job.pick.pool = job.pick.index) {now : Nat}
    (hscope : t.inScope = false) (hholds : ∀ ref, t.holds ref = false)
    (h : Counted configs (s, .recording job outcome ::ₘ rest)) :
    Counted configs ({ s.modify job.pick.index (record outcome now) with locked := false },
      t ::ₘ rest) := by
  obtain ⟨hbefore, hcounters⟩ := counted_cons_iff.mp h
  refine counted_cons_iff.mpr ⟨?_, fun i n hn => ?_⟩
  · have hlocked := s.locked.toNat_le
    rw [DownloadTask.inScope, Bool.toNat_true] at hbefore
    rw [hscope, Bool.toNat_false]
    omega
  have hn : (s.modify job.pick.index (record outcome now)).active i = some n := hn
  rw [s.active_modify _ _ (fun n => if n = 0 then 0 else n - 1)
    (record_connectionsActive outcome now)] at hn
  rw [hholds, Bool.toNat_false, Nat.zero_add]
  have hheld : (DownloadTask.recording job outcome : DownloadTask π).holds i =
      decide (job.pick.index = i) := by rw [DownloadTask.holds, hpool]
  by_cases hi : job.pick.index = i
  · subst hi
    rw [if_pos rfl] at hn
    obtain ⟨m, hm, rfl⟩ := Option.map_eq_some_iff.mp hn
    obtain ⟨hcount, hle⟩ := hcounters _ m hm
    rw [hheld, decide_eq_true rfl, Bool.toNat_true] at hcount
    have hone : (1 : UInt16) ≤ m := by
      rw [UInt16.le_iff_toNat_le, UInt16.toNat_one]
      omega
    have hne : m ≠ 0 := by
      rintro rfl
      exact absurd hcount (by rw [UInt16.toNat_zero]; omega)
    rw [if_neg hne, UInt16.toNat_sub_of_le _ _ hone, UInt16.toNat_one]
    omega
  · rw [if_neg hi] at hn
    have hother := hcounters i n hn
    rwa [hheld, decide_eq_false hi, Bool.toNat_false, Nat.zero_add] at hother

theorem Counted.move (hwidth : ∀ ref, (configOf configs ref).connections < 2 ^ 16)
    (hreach : DownloadReachable configs gz (s, t ::ₘ rest)) (ht : t.PickOk)
    (hcounts : Counts s t s' ts) (h : Counted configs (s, t ::ₘ rest)) :
    Counted configs (s', ts + rest) := by
  cases hcounts with
  | keeps hactive hholds hscope => exact h.keeps hactive hholds hscope
  | @counted job p hjob hts hlock hs' =>
      subst hjob hts hs'
      have hfree : rest.countP (·.inScope) = 0 := by
        have hscope := (counted_cons_iff.mp h).1
        rw [hlock] at hscope
        simpa [DownloadTask.inScope] using hscope
      rw [Multiset.singleton_add]
      exact h.count (ht job rfl) (room_of_free hreach hfree) hwidth
  | @recorded job outcome now u hjob hts hu hs' =>
      subst hjob hts hs'
      rw [Multiset.singleton_add]
      exact h.takeOff (ht job rfl) hu.1 hu.2

end Moves

end Counters

/-! ### All runs -/

section Runs

variable {π : Type} [Peer π] {configs : List ServerConfig} {gz : GzDecoder} {s : Shared π}
  {tasks : Multiset (DownloadTask π)}

theorem mem_new {server : ServerState} (h : server ∈ (new configs).servers) :
    server.config ∈ configs ∧ server.connectionsActive = 0 := by
  obtain ⟨⟨config, ref⟩, hconfig, rfl⟩ := List.mem_map.mp h
  have hsorted := List.mem_of_mem_filter (List.fst_mem_of_mem_zipIdx hconfig)
  exact ⟨(List.mem_insertionSort _).mp hsorted, rfl⟩

/-- What holds of the default configuration and of all that were given. -/
theorem configOf_holds {P : ServerConfig → Prop} (hdefault : P {})
    (h : ∀ config ∈ configs, P config) (ref : PoolRef) : P (configOf configs ref) := by
  unfold configOf
  cases hserver : (new configs).servers[ref]? with
  | none => exact hdefault
  | some server => exact h _ (mem_new (List.mem_of_getElem? hserver)).1

theorem configOf_connections_lt (hwidth : ∀ config ∈ configs, config.connections < 2 ^ 16)
    (ref : PoolRef) : (configOf configs ref).connections < 2 ^ 16 :=
  configOf_holds (P := fun config => config.connections < 2 ^ 16) (by decide) hwidth ref

theorem Later.configOf {servers : List ServerState} (h : Later configs servers) {i : Nat}
    {server : ServerState} (hserver : servers[i]? = some server) :
    server.config = configOf configs i := by
  have hi : (servers[i]?).map (·.identity) = ((new configs).servers[i]?).map (·.identity) := by
    rw [← List.getElem?_map, ← List.getElem?_map]
    exact congrArg (·[i]?) h
  rw [hserver] at hi
  obtain ⟨server', hserver', hsame⟩ := Option.map_eq_some_iff.mp hi.symm
  rw [Downloader.configOf, hserver']
  exact (congrArg Prod.fst hsame).symm

omit [Peer π] in
theorem counted_initial : Counted configs ((.initial configs : Shared π), 0) := by
  refine ⟨rfl, fun i n hn => ?_⟩
  obtain ⟨server, hserver, rfl⟩ := Option.map_eq_some_iff.mp hn
  rw [(mem_new (List.mem_of_getElem? hserver)).2]
  exact ⟨rfl, Nat.zero_le _⟩

theorem counted_of_reachable (hwidth : ∀ config ∈ configs, config.connections < 2 ^ 16)
    {c : Shared π × Multiset (DownloadTask π)}
    (h : KeptReachable configs gz c) :
    Counted configs c := by
  have hkeeps : Keeps (KeptStep configs gz) DownloadTask.Starts
      (fun s : Shared π => Later configs s.servers) DownloadTask.PickOk :=
    picks_kept.mono fun _ _ _ _ hstep => hstep.1
  have hrun := h.invariant_of_keeps
    (P := fun c => DownloadReachable configs gz c ∧ Counted configs c) hkeeps
    (later_new configs) ⟨.refl, counted_initial⟩ ?_ ?_
  · exact hrun.2
  · rintro s t s' ts rest - ht ⟨hreach, hcounted⟩ ⟨hstep, hkept⟩
    exact ⟨hreach.tail (.move hstep),
      hcounted.move (configOf_connections_lt hwidth) hreach ht (hstep.counts hkept)⟩
  · rintro s t rest ⟨hreach, hcounted⟩ ⟨articles⟩
    refine ⟨hreach.tail (.start ⟨articles⟩), ?_⟩
    refine counted_cons_iff.mpr ⟨?_, fun i n hn => ?_⟩
    · exact (Nat.zero_add _).trans hcounted.scope
    · obtain ⟨hcount, hle⟩ := hcounted.counters i n hn
      exact ⟨hcount.trans (Nat.zero_add _).symm, hle⟩

/-- **The counter is exact, as long as no call is dropped in `fetch_article`.** In every
state that any number of calls reach, in any order of their steps, the counter of a
server is the number of the calls that have counted a connection of its pool and hold it
still. It is at most the connections of the configuration, and zero when no call is
running. -/
theorem connectionsActive_exact (hwidth : ∀ config ∈ configs, config.connections < 2 ^ 16)
    (h : KeptReachable configs gz (s, tasks)) :
    ∀ (i : Nat) (server : ServerState), s.servers[i]? = some server →
      server.connectionsActive.toNat = tasks.countP (·.holds server.pool) ∧
        tasks.countP (·.holds server.pool) ≤ server.config.connections ∧
        ((∀ t ∈ tasks, t.isCall = false) → server.connectionsActive = 0) := by
  intro i server hserver
  have hpicks : Keeps (KeptStep configs gz) DownloadTask.Starts
      (fun s : Shared π => Later configs s.servers) DownloadTask.PickOk :=
    picks_kept.mono fun _ _ _ _ hstep => hstep.1
  have hlater : Later configs s.servers := (h.keeps hpicks (later_new configs)).1
  have hactive : s.active i = some server.connectionsActive := by rw [Shared.active, hserver]; rfl
  obtain ⟨hcount, hle⟩ := (counted_of_reachable hwidth h).counters i _ hactive
  rw [(hlater.madeFor hserver).1, hlater.configOf hserver]
  refine ⟨hcount, hcount ▸ hle, fun hidle => UInt16.toNat_inj.mp ?_⟩
  rw [hcount, UInt16.toNat_zero, Multiset.countP_eq_zero]
  intro t ht hholds
  have hcall := DownloadTask.isCall_of_holds hholds
  rw [hidle t ht] at hcall
  cases hcall

section Alone

variable {job : Job} {s : Shared π}

theorem pick_alone {clock : Nat → Nat} (hlock : s.locked = false)
    (hpick : pickServer clock s.servers job.request.triedServers = some job.pick)
    (h : KeptReachable configs gz (s, {.head (job.request :: job.pending)})) :
    KeptReachable configs gz (s, {.acquiring job .awaitingPermit}) :=
  h.move_alone ⟨.picked hlock hpick, fun ⟨_, _, hfetching, _⟩ => by cases hfetching⟩

/-- The call goes on in `acquire`. -/
theorem acquire_alone {u u' : PoolTask π} {pool pool' : ConnectionPool π}
    (hpool : s.pools job.pick.pool = pool)
    (h : KeptReachable configs gz (s, {.acquiring job u}))
    (hstep : PoolStep (configOf configs job.pick.pool) pool u pool' {u'}) :
    ∃ s' : Shared π, s'.pools job.pick.pool = pool' ∧ s'.servers = s.servers ∧
      s'.locked = s.locked ∧ KeptReachable configs gz (s', {.acquireAt job u'}) := by
  subst hpool
  refine ⟨s.setPool job.pick.pool pool', Function.update_self _ _ _, rfl, rfl, ?_⟩
  exact h.move_alone ⟨.acquires hstep, fun ⟨_, _, hfetching, _⟩ => by cases hfetching⟩

theorem count_alone {p : PooledConnection π} (hlock : s.locked = false)
    (h : KeptReachable configs gz (s, {.acquired job p})) :
    KeptReachable configs gz
      (s.modify job.pick.index ServerState.countAcquired, {.fetching job p}) :=
  h.move_alone ⟨.counted hlock, fun ⟨_, _, hfetching, _⟩ => by cases hfetching⟩

end Alone

end Runs

/-! ### A run -/

def oneServer : List ServerConfig := [{ id := "a", ssl := false }]

def onlyJob : Job :=
  { pick := ⟨0, "a", 0⟩, request := { article := { messageId := "x@y" }, triedServers := [] }
    pending := [] }

/-- A call has picked the server, connected to it, and counted the connection. -/
theorem fetching_reachable :
    ∃ (s : Shared ReplyServer) (p : PooledConnection ReplyServer),
      KeptReachable oneServer rawDecoder (s, {.fetching onlyJob p}) ∧ p.armed = true ∧
      s.servers.map (·.connectionsActive) = [1] := by
  have hstart : KeptReachable oneServer rawDecoder
      ((.initial oneServer : Shared ReplyServer), {.head (onlyJob.request :: onlyJob.pending)}) :=
    .single (.start (.download [{ messageId := "x@y" }]))
  have hpick : pickServer (fun _ => 0) (new oneServer).servers onlyJob.request.triedServers =
      some onlyJob.pick := by
    decide +kernel
  have hpicked := pick_alone rfl hpick hstart
  have hconfig : configOf oneServer onlyJob.pick.pool = { id := "a", ssl := false } := by
    decide +kernel
  have hgrant : PoolStep (configOf oneServer onlyJob.pick.pool)
      (.new (configOf oneServer onlyJob.pick.pool) : ConnectionPool ReplyServer) .awaitingPermit
      { permits := 7 } {.permitted} := by
    rw [hconfig]
    exact .permitGranted (by decide)
  have hname : PoolStep (configOf oneServer onlyJob.pick.pool)
      ({ permits := 7 } : ConnectionPool ReplyServer) .rampingUp { permits := 7, createdCount := 1 }
      {.connecting "a#1"} := by
    rw [hconfig]
    exact .rampedUp
  obtain ⟨w, hconnect⟩ : ∃ w, connect { id := "a", ssl := false } dialCapable
      { conn := .new "a#1", events := [] } = .ok () w := ⟨_, rfl⟩
  rw [← hconfig] at hconnect
  have hdial : PoolStep (configOf oneServer onlyJob.pick.pool)
      { permits := 7, createdCount := 1 } (.connecting "a#1")
      { permits := 7, createdCount := 1, nextTag := 1 }
      {.holding { conn := w.conn, lastUsed := 0, armed := true, tag := 0 }} := .connected hconnect
  obtain ⟨s₁, hpool₁, hservers₁, hlocked₁, hpermitted⟩ := acquire_alone rfl hpicked hgrant
  obtain ⟨s₂, hpool₂, hservers₂, hlocked₂, hmissed⟩ :=
    acquire_alone hpool₁ hpermitted (.popMiss rfl)
  obtain ⟨s₃, hpool₃, hservers₃, hlocked₃, hramped⟩ := acquire_alone hpool₂ hmissed hname
  obtain ⟨s₄, -, hservers₄, hlocked₄, hacquired⟩ := acquire_alone hpool₃ hramped hdial
  have hlocked : s₄.locked = false := by rw [hlocked₄, hlocked₃, hlocked₂, hlocked₁]; rfl
  refine ⟨_, _, count_alone hlocked hacquired, rfl, ?_⟩
  have hservers : s₄.servers = (new oneServer).servers := by
    rw [hservers₄, hservers₃, hservers₂, hservers₁]
    rfl
  show (s₄.servers.modify onlyJob.pick.index ServerState.countAcquired).map _ = _
  rw [hservers]
  decide +kernel

/-- While the call fetches its article, the counter is one. -/
theorem connectionsActive_exact_on_fetch :
    ∃ (s : Shared ReplyServer) (p : PooledConnection ReplyServer) (server : ServerState),
      s.servers = [server] ∧ server.connectionsActive = 1 ∧
        server.connectionsActive.toNat = ({.fetching onlyJob p} :
          Multiset (DownloadTask ReplyServer)).countP (·.holds server.pool) := by
  obtain ⟨s, p, hreach, -, hcounter⟩ := fetching_reachable
  obtain ⟨server, hserver, hone⟩ := List.map_eq_singleton_iff.mp hcounter
  refine ⟨s, p, server, hserver, hone, ?_⟩
  exact (connectionsActive_exact (by decide) hreach 0 server (by rw [hserver]; rfl)).1

/-- The call has been dropped in `fetch_article`, and its slot given back. -/
theorem dropped_reachable :
    ∃ s : Shared ReplyServer, DownloadReachable oneServer rawDecoder (s, 0) ∧
      s.servers.map (·.connectionsActive) = [1] := by
  obtain ⟨s, p, hkept, harmed, hcounter⟩ := fetching_reachable
  have hfetching : DownloadReachable oneServer rawDecoder (s, {.fetching onlyJob p}) :=
    hkept.mono fun _ _ _ _ hstep => hstep.1
  have hdropped := hfetching.move_alone .fetchDropped
  rw [harmed, if_pos rfl] at hdropped
  exact ⟨_, hdropped.move_alone (.leaves .credited), hcounter⟩

/-- A call that is dropped in `fetch_article` leaves its connection on the counter. -/
theorem dropped_fetch_stays_counted :
    ∃ (s : Shared ReplyServer) (server : ServerState),
      DownloadReachable oneServer rawDecoder (s, 0) ∧ s.servers = [server] ∧
        server.connectionsActive = 1 ∧
        server.connectionsActive.toNat ≠
          (0 : Multiset (DownloadTask ReplyServer)).countP (·.holds server.pool) := by
  obtain ⟨s, hdropped, hcounter⟩ := dropped_reachable
  obtain ⟨server, hserver, hone⟩ := List.map_eq_singleton_iff.mp hcounter
  refine ⟨s, server, hdropped, hserver, hone, ?_⟩
  rw [hone, Multiset.countP_zero]
  decide

end Downloader

end NzbNntp
