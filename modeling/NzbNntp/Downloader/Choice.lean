import NzbNntp.Downloader.Reports
import NzbNntp.Library.StableSort

/-!
Which server is asked. The servers stand in the order of their priorities, and where
these are equal in the order of the configurations that were given; the scan takes the
first that is eligible, so it takes the least.
-/

namespace NzbNntp

open StableSort

namespace Downloader

/-! ### The order of the servers -/

/-- The enabled configurations in the order of the servers, each with its place among
those that were given. -/
def ranked (configs : List ServerConfig) : List (ServerConfig × Nat) :=
  (configs.zipIdx.insertionSort fun a b => a.1.priority ≤ b.1.priority).filter (·.1.enabled)

def Precedes (a b : ServerConfig × Nat) : Prop :=
  a.1.priority < b.1.priority ∨ a.1.priority = b.1.priority ∧ a.2 < b.2

section Ranks

variable {configs : List ServerConfig}

instance : Std.Total fun a b : ServerConfig => a.priority ≤ b.priority :=
  ⟨fun _ _ => Nat.le_total _ _⟩

instance : IsTrans ServerConfig fun a b => a.priority ≤ b.priority :=
  ⟨fun _ _ _ => Nat.le_trans⟩

instance : Std.Total fun a b : ServerConfig × Nat => a.1.priority ≤ b.1.priority :=
  ⟨fun _ _ => Nat.le_total _ _⟩

instance : IsTrans (ServerConfig × Nat) fun a b => a.1.priority ≤ b.1.priority :=
  ⟨fun _ _ _ => Nat.le_trans⟩

theorem mem_ranked {config : ServerConfig} {place : Nat} :
    (config, place) ∈ ranked configs ↔ configs[place]? = some config ∧ config.enabled = true := by
  rw [ranked, List.mem_filter, List.mem_insertionSort, List.mk_mem_zipIdx_iff_getElem?]

theorem pairwise_ranked (configs : List ServerConfig) : (ranked configs).Pairwise Precedes := by
  refine List.Pairwise.filter _ ?_
  refine (pairwise_insertionSort (pairwise_zipIdx configs 0)).imp ?_
  rintro a b ⟨hle, hplace⟩
  rcases Nat.lt_or_eq_of_le hle with hlt | heq
  · exact .inl hlt
  · exact .inr ⟨heq, hplace heq.ge⟩

/-- The servers of `new`, and each one's pool. -/
theorem roster_new (configs : List ServerConfig) :
    roster (new configs).servers = (ranked configs).zipIdx.map fun r => (r.1.1, r.2) := by
  have hconfigs : (ranked configs).map (·.1) =
      (configs.insertionSort (·.priority ≤ ·.priority)).filter (·.enabled) := by
    rw [← map_insertionSort_zipIdx configs 0, List.filter_map]
    rfl
  rw [roster, new, ← hconfigs, List.zipIdx_map, List.map_map, List.map_map]
  rfl

end Ranks

/-! ### The scan -/

structure Eligible (now : Nat) (tried : List String) (server : ServerState) : Prop where
  active : server.active = true
  unpenalised : ∀ instant, server.penaltyUntil = some instant → instant < now
  untried : server.config.id ∉ tried

theorem eligible_iff {now : Nat} {tried : List String} {server : ServerState} :
    Eligible now tried server ↔
      server.isAvailable now = true ∧ tried.contains server.config.id = false := by
  rw [ServerState.isAvailable]
  constructor
  · rintro ⟨hactive, hpenalty, htried⟩
    refine ⟨?_, by simpa using htried⟩
    rw [hactive, Bool.true_and, Option.all_eq_true]
    simpa using hpenalty
  · rintro ⟨havailable, htried⟩
    obtain ⟨hactive, hpenalty⟩ := Bool.and_eq_true_iff.mp havailable
    exact ⟨hactive, by simpa [Option.all_eq_true] using hpenalty, by simpa using htried⟩

section Scan

variable {clock : Nat → Nat} {tried : List String} {servers : List ServerState}

theorem pickFrom_cons_of_eligible {start : Nat} {server : ServerState}
    (h : Eligible (clock start) tried server) :
    pickFrom clock tried start (server :: servers) =
      some { index := start, serverId := server.config.id, pool := server.pool } := by
  obtain ⟨havailable, htried⟩ := eligible_iff.mp h
  rw [pickFrom, havailable, htried]
  rfl

theorem pickFrom_cons_of_not {start : Nat} {server : ServerState}
    (h : ¬ Eligible (clock start) tried server) :
    pickFrom clock tried start (server :: servers) = pickFrom clock tried (start + 1) servers := by
  rw [pickFrom]
  split
  · rfl
  · rename_i havailable
    split
    · rfl
    · rename_i htried
      exact absurd (eligible_iff.mpr ⟨by simpa using havailable, by simpa using htried⟩) h

/-- By induction on the servers that are still to be asked. -/
theorem pickFrom_eq_none {start : Nat} (h : pickFrom clock tried start servers = none) :
    ∀ i server, servers[i]? = some server → ¬ Eligible (clock (start + i)) tried server := by
  induction servers generalizing start with
  | nil => simp
  | cons first rest ih =>
      by_cases hfirst : Eligible (clock start) tried first
      · rw [pickFrom_cons_of_eligible hfirst] at h
        cases h
      · rw [pickFrom_cons_of_not hfirst] at h
        intro i server hserver
        cases i with
        | zero =>
            obtain rfl := Option.some.inj hserver
            exact hfirst
        | succ i =>
            rw [← Nat.add_assoc, Nat.add_right_comm]
            exact ih h i server hserver

/-- The scan takes the first server that is eligible. -/
theorem pickFrom_first {start : Nat} {pick : ServerPick}
    (h : pickFrom clock tried start servers = some pick) :
    ∀ i server, servers[i]? = some server → Eligible (clock (start + i)) tried server →
      pick.index ≤ start + i := by
  induction servers generalizing start with
  | nil => cases h
  | cons first rest ih =>
      by_cases hfirst : Eligible (clock start) tried first
      · rw [pickFrom_cons_of_eligible hfirst] at h
        cases h
        exact fun i _ _ _ => Nat.le_add_right start i
      · rw [pickFrom_cons_of_not hfirst] at h
        intro i server hserver heligible
        cases i with
        | zero =>
            obtain rfl := Option.some.inj hserver
            exact absurd heligible hfirst
        | succ i =>
            rw [← Nat.add_assoc, Nat.add_right_comm] at heligible ⊢
            exact ih h i server hserver heligible

end Scan

/-! ### The choice -/

section Choice

variable {configs : List ServerConfig} {servers : List ServerState}

/-- `server` is the one that was made for the configuration at `place`, and stands at
`index`. -/
def MadeFor (configs : List ServerConfig) (servers : List ServerState) (place index : Nat)
    (server : ServerState) : Prop :=
  (ranked configs)[index]? = some (server.config, place) ∧ servers[index]? = some server

/-- The servers as some run has left them: each keeps the configuration and the pool it
was made with, whatever its penalties, its flag and its counters are. -/
def Later (configs : List ServerConfig) (servers : List ServerState) : Prop :=
  roster servers = roster (new configs).servers

theorem later_new (configs : List ServerConfig) : Later configs (new configs).servers := rfl

/-- A turn of a call leaves the servers so, and so do the calls that run beside it. -/
theorem Later.serve (h : Later configs servers) {turn : Turn} {request : DownloadRequest}
    {servers' : List ServerState} {seen : Seen} {back : Option DownloadRequest}
    (hturn : turn.serve servers request = .ok (servers', seen, back)) : Later configs servers' := by
  have hrunning : turn.shutsDown = false := by
    by_contra hdown
    rw [Turn.serve, if_pos (by simpa using hdown)] at hturn
    cases hturn
  obtain ⟨_, _, _, hserved, hkeeps, -⟩ :=
    Turn.serve_handles hrunning (roster servers) servers request rfl
  rw [hturn] at hserved
  cases hserved
  exact hkeeps.trans h

theorem Later.getElem? (h : Later configs servers) (i : Nat) :
    (servers[i]?).map (·.identity) = ((ranked configs)[i]?).map fun r => (r.1, i) := by
  have hi := congrArg (·[i]?) h
  rw [roster_new] at hi
  simpa [roster, List.getElem?_zipIdx, Function.comp_def] using hi

theorem Later.madeFor (h : Later configs servers) {i : Nat} {server : ServerState}
    (hserver : servers[i]? = some server) :
    server.pool = i ∧ ∃ place, MadeFor configs servers place i server := by
  have hi := h.getElem? i
  rw [hserver] at hi
  obtain ⟨⟨config, place⟩, hrank, hsame⟩ := Option.map_eq_some_iff.mp hi.symm
  obtain ⟨rfl, hpool⟩ := Prod.mk.inj hsame
  exact ⟨hpool.symm, place, hrank, hserver⟩

theorem Later.exists_server (h : Later configs servers) {i place : Nat} {config : ServerConfig}
    (hrank : (ranked configs)[i]? = some (config, place)) :
    ∃ server, MadeFor configs servers place i server ∧ server.config = config := by
  have hi := h.getElem? i
  rw [hrank] at hi
  obtain ⟨server, hserver, hsame⟩ := Option.map_eq_some_iff.mp hi
  obtain ⟨rfl, -⟩ := Prod.mk.inj hsame
  exact ⟨server, ⟨hrank, hserver⟩, rfl⟩

theorem MadeFor.config {place i : Nat} {server : ServerState}
    (h : MadeFor configs servers place i server) :
    configs[place]? = some server.config ∧ server.config.enabled = true :=
  mem_ranked.mp (List.mem_of_getElem? h.1)

/-- The servers stand in the order of their ranks. -/
theorem MadeFor.precedes {place place' i j : Nat} {server other : ServerState} (hij : i < j)
    (h : MadeFor configs servers place i server) (h' : MadeFor configs servers place' j other) :
    Precedes (server.config, place) (other.config, place') := by
  obtain ⟨hj, hother⟩ := List.getElem?_eq_some_iff.mp h'.1
  obtain ⟨hi, hserver⟩ := List.getElem?_eq_some_iff.mp h.1
  rw [← hother, ← hserver]
  exact List.pairwise_iff_getElem.mp (pairwise_ranked configs) i j hi hj hij

/-- The server that `pick` names is the one to ask: the eligible one of the least
priority, and of these the first of the given configurations. -/
structure Chosen (configs : List ServerConfig) (servers : List ServerState) (clock : Nat → Nat)
    (tried : List String) (pick : ServerPick) (place : Nat) (server : ServerState) : Prop where
  stands : MadeFor configs servers place pick.index server
  config : configs[place]? = some server.config
  enabled : server.config.enabled = true
  eligible : Eligible (clock pick.index) tried server
  least : ∀ place' index other, MadeFor configs servers place' index other →
    Eligible (clock index) tried other → server.config.priority ≤ other.config.priority
  earliest : ∀ place' index other, MadeFor configs servers place' index other →
    Eligible (clock index) tried other → other.config.priority = server.config.priority →
      place ≤ place'
  lasting : ∀ later, Later configs later → ∃ server', MadeFor configs later place pick.index server' ∧
    server'.config = server.config ∧ server'.config.id = pick.serverId ∧ server'.pool = pick.pool

/-- **The choice of a server is the priority minimum.** In every state of the servers and
at every instant: no server is chosen exactly if each one is inactive, penalised or tried
already; the server that is chosen is the least of those that can be asked, and what is
returned names it for as long as the servers last. -/
theorem pickServer_minimum (configs : List ServerConfig) (servers : List ServerState)
    (clock : Nat → Nat) (tried : List String) (h : Later configs servers) :
    (∀ place config, configs[place]? = some config → config.enabled = true →
        ∃ index server, MadeFor configs servers place index server ∧ server.config = config) ∧
      (pickServer clock servers tried = none ↔ ∀ place index server,
        MadeFor configs servers place index server → ¬ Eligible (clock index) tried server) ∧
      ∀ pick, pickServer clock servers tried = some pick →
        ∃ place server, Chosen configs servers clock tried pick place server := by
  refine ⟨fun place config hconfig henabled => ?_, ⟨fun hnone => ?_, fun hnone => ?_⟩,
    fun pick hpick => ?_⟩
  · obtain ⟨index, hrank⟩ := List.mem_iff_getElem?.mp (mem_ranked.mpr ⟨hconfig, henabled⟩)
    exact ⟨index, h.exists_server hrank⟩
  · intro place index server hmade
    simpa using pickFrom_eq_none hnone index server hmade.2
  · by_contra hsome
    obtain ⟨pick, hpick⟩ := Option.ne_none_iff_exists'.mp hsome
    obtain ⟨server, hserver, -, hid, -, havailable, htried⟩ := pickFrom_names hpick
    obtain ⟨-, place, hmade⟩ := h.madeFor hserver
    refine hnone place _ server hmade (eligible_iff.mpr ⟨?_, ?_⟩)
    · simpa using havailable
    · rw [← hid]
      simpa using htried
  · obtain ⟨server, hserver, -, hid, hpool, havailable, htried⟩ := pickFrom_names hpick
    rw [Nat.sub_zero] at hserver
    obtain ⟨hindex, place, hmade⟩ := h.madeFor hserver
    have heligible : Eligible (clock pick.index) tried server :=
      eligible_iff.mpr ⟨havailable, by rw [← hid]; simpa using htried⟩
    -- The scan has met no eligible server before this one, so each comes later in the order.
    have hprecedes : ∀ place' index other, MadeFor configs servers place' index other →
        Eligible (clock index) tried other →
        (server.config, place) = (other.config, place') ∨
          Precedes (server.config, place) (other.config, place') := by
      intro place' index other hother helig
      have hle := pickFrom_first hpick index other hother.2 (by simpa using helig)
      rcases Nat.lt_or_eq_of_le hle with hlt | heq
      · exact .inr (hmade.precedes (by simpa using hlt) hother)
      · rw [Nat.zero_add] at heq
        subst heq
        exact .inl (Option.some.inj (hmade.1.symm.trans hother.1))
    refine ⟨place, server, hmade, hmade.config.1, hmade.config.2, heligible, ?_, ?_, ?_⟩
    · intro place' index other hother helig
      rcases hprecedes place' index other hother helig with heq | hlt | ⟨heq, -⟩
      · exact (congrArg (·.1.priority) heq).le
      · exact hlt.le
      · exact heq.le
    · intro place' index other hother helig hpriority
      rcases hprecedes place' index other hother helig with heq | hlt | ⟨-, hplace⟩
      · exact (congrArg Prod.snd heq).le
      · exact absurd hpriority hlt.ne'
      · exact hplace.le
    · intro later hlater
      obtain ⟨server', hmade', hconfig⟩ := hlater.exists_server hmade.1
      refine ⟨server', hmade', hconfig, ?_, ?_⟩
      · rw [hconfig, hid]
      · rw [(hlater.madeFor hmade'.2).1, hpool, hindex]

/-- The second of the given configurations has the lesser priority. -/
theorem pickServer_minimum_of_two :
    let configs : List ServerConfig := [{ id := "b", priority := 1 }, { id := "a" }]
    Later configs (new configs).servers ∧
      pickServer (fun _ => 0) (new configs).servers [] = some ⟨0, "a", 0⟩ ∧
      ∃ server, Chosen configs (new configs).servers (fun _ => 0) [] ⟨0, "a", 0⟩ 1 server := by
  intro configs
  have hpick : pickServer (fun _ => 0) (new configs).servers [] = some ⟨0, "a", 0⟩ := by
    decide +kernel
  have hminimum := pickServer_minimum configs (new configs).servers (fun _ => 0) [] (later_new _)
  obtain ⟨place, server, hchosen⟩ := hminimum.2.2 _ hpick
  have hrank : (ranked configs)[0]? = some ({ id := "a" }, 1) := by decide +kernel
  have hplace : (server.config, place) = ({ id := "a" }, 1) :=
    Option.some.inj (hchosen.stands.1.symm.trans hrank)
  obtain ⟨-, rfl⟩ := Prod.mk.inj hplace
  exact ⟨later_new _, hpick, server, hchosen⟩

end Choice

end Downloader

end NzbNntp
