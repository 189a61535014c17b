import NzbNntp.Downloader.Choice

/-!
Where an article comes from. While the servers answer steadily, each with the articles it
has and with a refusal that is not fatal for the others, a request goes down the list of the
servers: in the order of the priorities, each name once, and past the ones it was tried on
before. It stops at the first server that has the article.
-/

namespace NzbNntp

open RetryQueue

namespace Downloader

abbrev Holdings := PoolRef → String → Option Bytes

/-- The servers that an article is offered to, in their order: each name once, and none that
was tried. -/
def asked (tried : List String) :
    List (ServerConfig × PoolRef) → List (ServerConfig × PoolRef)
  | [] => []
  | server :: rest =>
      if server.1.id ∈ tried then asked tried rest
      else server :: asked (server.1.id :: tried) rest

/-- The servers up to the first one that has the article. -/
def offers (holdings : Holdings) (messageId : String) :
    List (ServerConfig × PoolRef) → List (ServerConfig × PoolRef)
  | [] => []
  | server :: rest =>
      if (holdings server.2 messageId).isSome then [server]
      else server :: offers holdings messageId rest

def found (holdings : Holdings) (article : Article) (servers : List (ServerConfig × PoolRef)) :
    ArticleResult :=
  match servers.findSome? fun server =>
      (holdings server.2 article.messageId).map (server.1.id, ·) with
  | some source => { article, serverId := source.1, result := .ok source.2 }
  | none =>
      { article, serverId := none, result := .error (.allServersExhausted article.messageId) }

def AllUp (servers : List ServerState) : Prop :=
  ∀ server ∈ servers, server.active = true ∧ server.penaltyUntil = none

/-- A turn in which each server has a connection to give and answers from what it holds;
what the other calls do takes no server away. -/
structure Turn.Steady (holdings : Holdings) (turn : Turn) : Prop where
  running : turn.shutsDown = false
  beforePick : ∀ servers, AllUp servers → AllUp (turn.beforePick.run servers)
  acquires : ∀ pool, turn.acquire pool = .ok ()
  beforeCount : ∀ servers, AllUp servers → AllUp (turn.beforeCount.run servers)
  holds : ∀ pool messageId data, holdings pool messageId = some data →
    ∃ response, turn.fetchArticle pool messageId = .ok response ∧ response.data.getD [] = data
  lacks : ∀ pool messageId, holdings pool messageId = none →
    ∃ e, turn.fetchArticle pool messageId = .error e ∧ isFatal e = false
  beforeRecord : ∀ servers, AllUp servers → AllUp (turn.beforeRecord.run servers)

/-! ### The order of the offers -/

section Asked

/-- Only membership in the list of tried servers counts. -/
theorem asked_congr {tried tried' : List String} (h : ∀ id, id ∈ tried ↔ id ∈ tried')
    (servers : List (ServerConfig × PoolRef)) : asked tried servers = asked tried' servers := by
  induction servers generalizing tried tried' with
  | nil => rfl
  | cons server rest ih =>
      rw [asked, asked]
      by_cases htried : server.1.id ∈ tried
      · rw [if_pos htried, if_pos ((h _).mp htried), ih h]
      · have hcons : ∀ id, id ∈ server.1.id :: tried ↔ id ∈ server.1.id :: tried' :=
          fun id => by simp [h id]
        rw [if_neg htried, if_neg (mt (h _).mpr htried), ih hcons]

/-- A server that has been asked in vain is off the list, and the others stay. -/
theorem asked_snoc {tried : List String} {servers rest : List (ServerConfig × PoolRef)}
    {server : ServerConfig × PoolRef} (h : asked tried servers = server :: rest) :
    asked (tried ++ [server.1.id]) servers = rest := by
  induction servers with
  | nil => cases h
  | cons first later ih =>
      rw [asked] at h ⊢
      by_cases htried : first.1.id ∈ tried
      · rw [if_pos htried] at h
        rw [if_pos (by simp [htried])]
        exact ih h
      · rw [if_neg htried] at h
        obtain ⟨rfl, hrest⟩ := List.cons.inj h
        rw [if_pos (by simp), ← hrest]
        exact asked_congr (by simp [or_comm]) later

end Asked

/-! ### One turn -/

section Turns

variable {holdings : Holdings} {servers : List ServerState}

theorem AllUp.modify (h : AllUp servers) (index : Nat) {f : ServerState → ServerState}
    (hf : ∀ server, (f server).active = server.active ∧
      (f server).penaltyUntil = server.penaltyUntil) : AllUp (servers.modify index f) := by
  intro server hserver
  obtain ⟨i, hi⟩ := List.mem_iff_getElem?.mp hserver
  rw [List.getElem?_modify] at hi
  obtain ⟨before, hbefore, rfl⟩ := Option.map_eq_some_iff.mp hi
  have hup := h before (List.mem_of_getElem? hbefore)
  split
  · exact ⟨(hf before).1.trans hup.1, (hf before).2.trans hup.2⟩
  · exact hup

/-- What is put down about an answer that is not fatal takes no server away. -/
theorem record_keeps_up {fetched : NntpResult NntpResponse} (now : Nat) (server : ServerState)
    (h : ∀ e, fetched = .error e → isFatal e = false) :
    (record fetched now server).active = server.active ∧
      (record fetched now server).penaltyUntil = server.penaltyUntil := by
  unfold record
  split
  · exact ⟨rfl, rfl⟩
  · exact ⟨rfl, rfl⟩
  · rename_i e _
    rw [h e rfl]
    exact ⟨rfl, rfl⟩

/-- The scan finds the first server on the list. -/
theorem pickFrom_asked (clock : Nat → Nat) (tried : List String) (hup : AllUp servers)
    (start : Nat) :
    (asked tried (roster servers) = [] ∧ pickFrom clock tried start servers = none) ∨
      ∃ server rest index, asked tried (roster servers) = server :: rest ∧
        pickFrom clock tried start servers =
          some { index, serverId := server.1.id, pool := server.2 } := by
  induction servers generalizing start with
  | nil => exact .inl ⟨rfl, rfl⟩
  | cons server rest ih =>
      obtain ⟨hactive, hpenalty⟩ := hup server (by simp)
      have hrest : AllUp rest := fun other h => hup other (by simp [h])
      have hroster : roster (server :: rest) = server.identity :: roster rest := rfl
      rw [hroster, asked]
      by_cases htried : server.identity.1.id ∈ tried
      · rw [if_pos htried, pickFrom_cons_of_not fun h => h.untried htried]
        exact ih hrest (start + 1)
      · have heligible : Eligible (clock start) tried server :=
          ⟨hactive, by simp [hpenalty], htried⟩
        rw [if_neg htried, pickFrom_cons_of_eligible heligible]
        exact .inr ⟨server.identity, _, start, rfl, rfl⟩

/-- A turn with the article at the head of the queue: it is asked of the first server on its
list. -/
inductive Offered (holdings : Holdings) (servers : List (ServerConfig × PoolRef)) :
    DownloadRequest → Seen → Option DownloadRequest → Prop where
  | exhausted {article tried} (hasked : asked tried servers = []) :
      Offered holdings servers ⟨article, tried⟩
        { sent := some ⟨article, none, .error (.allServersExhausted article.messageId)⟩ } none
  | served {article tried server rest pick response}
      (hasked : asked tried servers = server :: rest)
      (hpick : pick.serverId = server.1.id)
      (hholds : holdings server.2 article.messageId = some (response.data.getD [])) :
      Offered holdings servers ⟨article, tried⟩
        { attempt := some ⟨pick, article.messageId, .ok response⟩
          sent := some ⟨article, some pick.serverId, .ok (response.data.getD [])⟩ } none
  | passed {article tried server rest pick e} (hasked : asked tried servers = server :: rest)
      (hpick : pick.serverId = server.1.id)
      (hlacks : holdings server.2 article.messageId = none) :
      Offered holdings servers ⟨article, tried⟩
        { attempt := some ⟨pick, article.messageId, .error e⟩ }
        (some ⟨article, tried ++ [pick.serverId]⟩)

theorem Turn.Steady.attempt_up {turn : Turn} (hturn : turn.Steady holdings) (pick : ServerPick)
    (messageId : String) (hup : AllUp servers) :
    AllUp (turn.attempt pick messageId servers).1 ∧
      (turn.attempt pick messageId servers).2 = turn.fetchArticle pick.pool messageId := by
  have hcounted : AllUp
      ((turn.beforeCount.run servers).modify pick.index ServerState.countAcquired) :=
    AllUp.modify (hturn.beforeCount servers hup) pick.index fun server => ⟨rfl, rfl⟩
  have hanswer : ∀ e, turn.fetchArticle pick.pool messageId = .error e → isFatal e = false := by
    intro e he
    cases hholds : holdings pick.pool messageId with
    | some data =>
        obtain ⟨response, hok, -⟩ := hturn.holds _ _ _ hholds
        cases he.symm.trans hok
    | none =>
        obtain ⟨e', hlacks, hfatal⟩ := hturn.lacks _ _ hholds
        cases he.symm.trans hlacks
        exact hfatal
  rw [Turn.attempt, hturn.acquires]
  refine ⟨?_, rfl⟩
  exact AllUp.modify (hturn.beforeRecord _ hcounted) pick.index fun server =>
    record_keeps_up turn.recordedAt server hanswer

theorem Turn.Steady.serve_offered {turn : Turn} (hturn : turn.Steady holdings)
    (servers : List (ServerConfig × PoolRef)) :
    Serves (fun s => AllUp s ∧ roster s = servers) (Offered holdings servers) turn.serve := by
  rintro s ⟨article, tried⟩ ⟨hup, rfl⟩
  have hup' := hturn.beforePick s hup
  have hroster := turn.beforePick.fixed s
  simp only [Turn.serve, hturn.running, Bool.false_eq_true, if_false]
  rcases pickFrom_asked turn.clock tried hup' 0 with
    ⟨hasked, hpick⟩ | ⟨server, rest, index, hasked, hpick⟩
  · rw [pickServer, hpick]
    rw [hroster] at hasked
    exact ⟨_, _, _, rfl, ⟨hup', hroster⟩, .exhausted hasked⟩
  · rw [pickServer, hpick]
    rw [hroster] at hasked
    let pick : ServerPick := { index, serverId := server.1.id, pool := server.2 }
    obtain ⟨hafter, houtcome⟩ := hturn.attempt_up pick article.messageId hup'
    have hkept : roster (turn.attempt pick article.messageId (turn.beforePick.run s)).1 =
        roster s := (turn.attempt_roster pick _ _).trans hroster
    dsimp only
    rw [houtcome]
    cases hholds : holdings server.2 article.messageId with
    | some data =>
        obtain ⟨response, hok, rfl⟩ := hturn.holds _ _ _ hholds
        rw [hok]
        exact ⟨_, _, _, rfl, ⟨hafter, hkept⟩, .served hasked rfl hholds⟩
    | none =>
        obtain ⟨e, hlacks, -⟩ := hturn.lacks _ _ hholds
        rw [hlacks]
        exact ⟨_, _, _, rfl, ⟨hafter, hkept⟩, .passed hasked rfl hholds⟩

end Turns

/-! ### Whole runs -/

section Runs

theorem allUp_new (configs : List ServerConfig) : AllUp (new configs).servers := by
  intro server hserver
  obtain ⟨config, hconfig, rfl⟩ := List.mem_map.mp hserver
  have hmem := List.fst_mem_of_mem_zipIdx hconfig
  have henabled : config.1.enabled = true := List.of_mem_filter hmem
  exact ⟨henabled, rfl⟩

/-- The servers stand in the order of their priorities. -/
theorem Later.pairwise_priority {configs : List ServerConfig} {servers : List ServerState}
    (h : Later configs servers) : (roster servers).Pairwise (·.1.priority ≤ ·.1.priority) := by
  have hranked : ((ranked configs).map (·.1)).Pairwise (·.priority ≤ ·.priority) := by
    refine List.pairwise_map.mpr ((pairwise_ranked configs).imp ?_)
    rintro a b (hlt | ⟨heq, -⟩)
    · exact hlt.le
    · exact heq.le
  have hconfigs : (roster servers).map (·.1) = (ranked configs).map (·.1) := by
    have hfst := congrArg (List.map (·.1)) (List.zipIdx_map_fst 0 (ranked configs))
    rw [List.map_map] at hfst
    rw [h, roster_new, List.map_map]
    exact hfst
  rw [← hconfigs] at hranked
  have hroster := List.pairwise_map.mp hranked
  exact hroster

/-- A call that is not shut down ends within these turns. -/
theorem exists_report (downloader : Downloader) (articles : List Article) (turns : List Turn)
    (hrunning : ∀ turn ∈ turns, turn.shutsDown = false)
    (henough : articles.length * ((serverIds (roster downloader.servers)).card + 1) ≤
      turns.length) :
    ∃ report, downloader.download articles turns = some report ∧ report.result = .ok () := by
  have hshrinks : ∀ request seen back, Handles (roster downloader.servers) request seen (some back) →
      untried (roster downloader.servers) back < untried (roster downloader.servers) request :=
    fun _ _ _ h => h.untried_lt
  refine run_ends (J := fun s => roster s = roster downloader.servers) ?_ hshrinks rfl ?_
  · intro serve hserve
    obtain ⟨turn, hturn, rfl⟩ := List.mem_map.mp hserve
    exact Turn.serve_handles (hrunning turn hturn) _
  · refine (effort_le fun job _ => untried_le _ job.2).trans ?_
    simpa [requests] using henough

/-- The attempts for an article, and what is sent of it: by induction along the list of the
servers that it is offered to, one turn for each. -/
theorem offers_of_course {holdings : Holdings} {servers : List (ServerConfig × PoolRef)}
    {request : DownloadRequest} {seen : List Seen} (h : Course (Offered holdings servers) request seen) :
    (seen.filterMap (·.attempt)).map (·.pick.serverId) =
        (offers holdings request.article.messageId
          (asked request.triedServers servers)).map (·.1.id) ∧
      seen.filterMap (·.sent) =
        [found holdings request.article (asked request.triedServers servers)] := by
  induction h with
  | settled h =>
      cases h with
      | exhausted hasked =>
          rw [hasked]
          exact ⟨rfl, rfl⟩
      | served hasked hpick hholds =>
          rw [hasked]
          simp [offers, found, hholds, hpick]
  | retried h course ih =>
      cases h with
      | passed hasked hpick hlacks =>
          rw [hpick, asked_snoc hasked] at ih
          rw [hasked]
          simpa [offers, found, hlacks, hpick] using ih

/-- The attempts and the report of each article, by its course. -/
theorem download_offers (holdings : Holdings) (downloader : Downloader) (articles : List Article)
    (turns : List Turn) (hup : AllUp downloader.servers)
    (hsteady : ∀ turn ∈ turns, turn.Steady holdings)
    (henough : articles.length * ((serverIds (roster downloader.servers)).card + 1) ≤
      turns.length) :
    ∃ report, downloader.download articles turns = some report ∧ report.result = .ok () ∧
      ∀ tag article, articles[tag]? = some article →
        (attemptsFor tag report.log).map (·.pick.serverId) =
            (offers holdings article.messageId
              (asked article.triedServers (roster downloader.servers))).map (·.1.id) ∧
          sentFor tag report.log =
            [found holdings article (asked article.triedServers (roster downloader.servers))] := by
  obtain ⟨report, hrun, hok⟩ :=
    exists_report downloader articles turns (fun turn h => (hsteady turn h).running) henough
  have hserves : ∀ turn ∈ turns.map Turn.serve,
      Serves (fun s => AllUp s ∧ roster s = roster downloader.servers)
        (Offered holdings (roster downloader.servers)) turn := by
    intro serve hserve
    obtain ⟨turn, hturn, rfl⟩ := List.mem_map.mp hserve
    exact (hsteady turn hturn).serve_offered _
  have htags : ((requests articles).map Prod.fst).Nodup := by
    rw [requests_tags]
    exact List.nodup_range
  refine ⟨report, hrun, hok, fun tag article hget => ?_⟩
  exact offers_of_course (run_course hserves ⟨hup, rfl⟩ htags hrun _ (mem_requests hget))

/-- **The first server that has it.** While the servers answer steadily, a call of `download`
offers each article to the servers in the order of their priorities, each name once, past
those it was tried on before and no further than to the first server that has it; and it
reports the data of that server, or that none has it. -/
theorem download_fails_over (holdings : Holdings) (configs : List ServerConfig)
    (downloader : Downloader) (articles : List Article) (turns : List Turn)
    (hlater : Later configs downloader.servers) (hup : AllUp downloader.servers)
    (hsteady : ∀ turn ∈ turns, turn.Steady holdings)
    (henough : articles.length * ((serverIds (roster downloader.servers)).card + 1) ≤
      turns.length) :
    (roster downloader.servers).Pairwise (·.1.priority ≤ ·.1.priority) ∧
    ∃ report, downloader.download articles turns = some report ∧ report.result = .ok () ∧
      ∀ tag article, articles[tag]? = some article →
        (attemptsFor tag report.log).map (·.pick.serverId) =
            (offers holdings article.messageId
              (asked article.triedServers (roster downloader.servers))).map (·.1.id) ∧
          sentFor tag report.log =
            [found holdings article (asked article.triedServers (roster downloader.servers))] :=
  ⟨hlater.pairwise_priority, download_offers holdings downloader articles turns hup hsteady henough⟩

end Runs

def answering (holdings : Holdings) : Turn where
  clock _ := 0
  acquire _ := .ok ()
  fetchArticle pool messageId :=
    match holdings pool messageId with
    | some data => .ok { code := 220, message := "", data := some data }
    | none => .error (.articleNotFound messageId)
  recordedAt := 0

theorem answering_steady (holdings : Holdings) : (answering holdings).Steady holdings where
  running := rfl
  beforePick _ h := h
  acquires _ := rfl
  beforeCount _ h := h
  holds pool messageId data h := by
    refine ⟨{ code := 220, message := "", data := some data }, ?_, rfl⟩
    simp only [answering, h]
  lacks pool messageId h := by
    refine ⟨.articleNotFound messageId, ?_, rfl⟩
    simp only [answering, h]
  beforeRecord _ h := h

/-- The server that is second in priority has the article. -/
theorem download_fails_over_to_second :
    ∃ report, (new [{ id := "b", priority := 1 }, { id := "a" }]).download [{ messageId := "x@y" }]
        (List.replicate 3 (answering fun pool _ => if pool = 1 then some [7] else none)) =
          some report ∧
      (attemptsFor 0 report.log).map (·.pick.serverId) = ["a", "b"] ∧
      sentFor 0 report.log = [⟨{ messageId := "x@y" }, some "b", .ok [7]⟩] := by
  obtain ⟨-, report, hrun, -, hall⟩ := download_fails_over
    (fun pool _ => if pool = 1 then some [7] else none) _
    (new [{ id := "b", priority := 1 }, { id := "a" }]) [{ messageId := "x@y" }]
    (List.replicate 3 (answering fun pool _ => if pool = 1 then some [7] else none))
    (later_new _) (allUp_new _)
    (fun turn hturn => List.eq_of_mem_replicate hturn ▸ answering_steady _) (by decide)
  exact ⟨report, hrun, hall 0 _ rfl⟩

end Downloader

end NzbNntp
