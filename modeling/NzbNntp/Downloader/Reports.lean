import NzbNntp.Downloader.Basic
import Mathlib.Data.Finset.Card
import Mathlib.Data.Finset.Dedup

/-!
Every article is reported once. A request that goes back to the queue has one
more of the servers on its list, so the number of the servers that are not on it
bounds its turns. What happens to one article is the course of its request, and
does not depend on the others.
-/

namespace NzbNntp

open RetryQueue

namespace Downloader

def serverIds (servers : List (ServerConfig × PoolRef)) : Finset String :=
  (servers.map (·.1.id)).toFinset

theorem roster_modify (servers : List ServerState) (index : Nat)
    {f : ServerState → ServerState} (hf : ∀ server, (f server).identity = server.identity) :
    roster (servers.modify index f) = roster servers := by
  apply List.ext_getElem?
  intro i
  simp only [roster, List.getElem?_map, List.getElem?_modify]
  cases servers[i]? with
  | none => rfl
  | some server => by_cases h : index = i <;> simp [h, hf]

theorem record_identity (fetched : NntpResult NntpResponse) (now : Nat)
    (server : ServerState) : (record fetched now server).identity = server.identity := by
  unfold record
  split
  · rfl
  · rfl
  · dsimp only
    split <;> rfl

/-- The connection that `pick` asks for is one of the server it names. -/
def Names (servers : List (ServerConfig × PoolRef)) (pick : ServerPick) : Prop :=
  ∃ config, servers[pick.index]? = some (config, pick.pool) ∧ config.id = pick.serverId

theorem pickFrom_names {clock : Nat → Nat} {tried : List String} {start : Nat}
    {servers : List ServerState} {pick : ServerPick}
    (h : pickFrom clock tried start servers = some pick) :
    ∃ server, servers[pick.index - start]? = some server ∧ start ≤ pick.index ∧
      pick.serverId = server.config.id ∧ pick.pool = server.pool ∧
      server.isAvailable (clock pick.index) ∧ pick.serverId ∉ tried := by
  induction servers generalizing start with
  | nil => cases h
  | cons server rest ih =>
      have hlater (hrest : pickFrom clock tried (start + 1) rest = some pick) :
          ∃ later, (server :: rest)[pick.index - start]? = some later ∧ start ≤ pick.index ∧
            pick.serverId = later.config.id ∧ pick.pool = later.pool ∧
            later.isAvailable (clock pick.index) ∧ pick.serverId ∉ tried := by
        obtain ⟨later, hget, hstart, hfound⟩ := ih hrest
        have hindex : pick.index - start = pick.index - (start + 1) + 1 := by omega
        exact ⟨later, by rw [hindex]; simpa using hget, by omega, hfound⟩
      unfold pickFrom at h
      split at h
      · exact hlater h
      · rename_i havailable
        split at h
        · exact hlater h
        · rename_i huntried
          cases h
          exact ⟨server, by simp, le_rfl, rfl, rfl, by simpa using havailable, by simpa using huntried⟩

theorem pickServer_names {clock : Nat → Nat} {tried : List String} {servers : List ServerState}
    {pick : ServerPick} (h : pickServer clock servers tried = some pick) :
    Names (roster servers) pick ∧ pick.serverId ∉ tried := by
  obtain ⟨server, hget, -, hid, hpool, -, huntried⟩ := pickFrom_names h
  refine ⟨⟨server.config, ?_, hid.symm⟩, huntried⟩
  rw [Nat.sub_zero] at hget
  simp [roster, hget, ServerState.identity, hpool]

theorem Names.mem_serverIds {servers : List (ServerConfig × PoolRef)} {pick : ServerPick}
    (h : Names servers pick) : pick.serverId ∈ serverIds servers := by
  obtain ⟨config, hget, hid⟩ := h
  exact List.mem_toFinset.mpr (List.mem_map.mpr ⟨_, List.mem_of_getElem? hget, hid⟩)

theorem Turn.attempt_roster (turn : Turn) (pick : ServerPick) (messageId : String)
    (servers : List ServerState) :
    roster (turn.attempt pick messageId servers).1 = roster servers := by
  unfold Turn.attempt
  split
  · rw [roster_modify _ _ (record_identity _ _), turn.beforeRecord.fixed,
      roster_modify _ _ ServerState.countAcquired_identity, turn.beforeCount.fixed]
  · rw [roster_modify _ _ fun server => server.penalizeFor_identity _ _, turn.beforeRecord.fixed]

inductive Handles (servers : List (ServerConfig × PoolRef)) :
    DownloadRequest → Seen → Option DownloadRequest → Prop where
  | exhausted {article tried} :
      Handles servers ⟨article, tried⟩
        { sent := some ⟨article, none, .error (.allServersExhausted article.messageId)⟩ } none
  | fetched {article tried pick response} (hnames : Names servers pick)
      (huntried : pick.serverId ∉ tried) :
      Handles servers ⟨article, tried⟩
        { attempt := some ⟨pick, article.messageId, .ok response⟩
          sent := some ⟨article, some pick.serverId, .ok (response.data.getD [])⟩ } none
  | failed {article tried pick e} (hnames : Names servers pick)
      (huntried : pick.serverId ∉ tried) :
      Handles servers ⟨article, tried⟩
        { attempt := some ⟨pick, article.messageId, .error e⟩ }
        (some ⟨article, tried ++ [pick.serverId]⟩)

theorem Turn.serve_handles {turn : Turn} (h : turn.shutsDown = false)
    (servers : List (ServerConfig × PoolRef)) :
    Serves (fun s => roster s = servers) (Handles servers) turn.serve := by
  rintro s ⟨article, tried⟩ hs
  have hroster : roster (turn.beforePick.run s) = servers := by rw [turn.beforePick.fixed, hs]
  simp only [Turn.serve, h, Bool.false_eq_true, if_false]
  cases hpick : pickServer turn.clock (turn.beforePick.run s) tried with
  | none => exact ⟨_, _, _, rfl, hroster, .exhausted⟩
  | some pick =>
      obtain ⟨hnames, huntried⟩ := pickServer_names hpick
      rw [hroster] at hnames
      have hafter : roster (turn.attempt pick article.messageId (turn.beforePick.run s)).1 =
          servers := by rw [Turn.attempt_roster, hroster]
      dsimp only
      cases houtcome : (turn.attempt pick article.messageId (turn.beforePick.run s)).2 with
      | ok response => exact ⟨_, _, _, rfl, hafter, .fetched hnames huntried⟩
      | error e => exact ⟨_, _, _, rfl, hafter, .failed hnames huntried⟩

def untried (servers : List (ServerConfig × PoolRef)) (request : DownloadRequest) : Nat :=
  (serverIds servers \ request.triedServers.toFinset).card

theorem untried_le (servers : List (ServerConfig × PoolRef)) (request : DownloadRequest) :
    untried servers request ≤ (serverIds servers).card :=
  Finset.card_le_card Finset.sdiff_subset

/-- A request that goes back has fewer servers left. -/
theorem untried_lt {servers : List (ServerConfig × PoolRef)} {pick : ServerPick}
    {request : DownloadRequest} (hnames : Names servers pick)
    (huntried : pick.serverId ∉ request.triedServers) :
    untried servers { request with triedServers := request.triedServers ++ [pick.serverId] } <
      untried servers request := by
  have hmem : pick.serverId ∈ serverIds servers \ request.triedServers.toFinset := by
    simp [hnames.mem_serverIds, huntried]
  refine Finset.card_lt_card (Finset.ssubset_iff_of_subset ?_ |>.mpr ⟨pick.serverId, hmem, ?_⟩)
  · intro id hid
    simp only [List.toFinset_append, Finset.mem_sdiff, Finset.mem_union, not_or] at hid ⊢
    exact ⟨hid.1, hid.2.1⟩
  · simp

theorem Handles.untried_lt {servers : List (ServerConfig × PoolRef)} {request back : DownloadRequest}
    {seen : Seen} (h : Handles servers request seen (some back)) :
    untried servers back < untried servers request := by
  cases h with
  | @failed article tried pick e hnames huntried =>
      exact @Downloader.untried_lt _ _ ⟨article, tried⟩ hnames huntried

/-- What is reported of an article, with the attempts made for it. -/
structure Reported (servers : List (ServerConfig × PoolRef)) (article : Article)
    (tried : List String) (attempts : List Attempt) (sent : List ArticleResult) : Prop where
  distinct : (attempts.map (·.pick.serverId)).Nodup
  untried : ∀ attempt ∈ attempts, attempt.pick.serverId ∉ tried
  asked : ∀ attempt ∈ attempts,
    Names servers attempt.pick ∧ attempt.messageId = article.messageId
  served : ∀ attempt ∈ attempts, ∀ response, attempt.outcome = .ok response →
    sent = [⟨article, some attempt.pick.serverId, .ok (response.data.getD [])⟩]
  exhausted : (∀ attempt ∈ attempts, ∀ response, attempt.outcome ≠ .ok response) →
    sent = [⟨article, none, .error (.allServersExhausted article.messageId)⟩]

theorem Reported.sent_article {servers : List (ServerConfig × PoolRef)} {article : Article}
    {tried : List String} {attempts : List Attempt} {sent : List ArticleResult}
    (h : Reported servers article tried attempts sent) : sent.map (·.article) = [article] := by
  by_cases hserved : ∃ attempt ∈ attempts, ∃ response, attempt.outcome = .ok response
  · obtain ⟨attempt, hmem, response, hok⟩ := hserved
    rw [h.served attempt hmem response hok]
    rfl
  · push Not at hserved
    rw [h.exhausted hserved]
    rfl

/-- By induction on the turns of the request: a failed attempt only adds a server. -/
theorem reported_of_course {servers : List (ServerConfig × PoolRef)} {request : DownloadRequest}
    {seen : List Seen} (h : Course (Handles servers) request seen) :
    Reported servers request.article request.triedServers (seen.filterMap (·.attempt))
      (seen.filterMap (·.sent)) := by
  induction h with
  | settled h =>
      cases h with
      | exhausted => constructor <;> simp
      | fetched hnames huntried => constructor <;> simp [hnames, huntried]
  | retried h course ih =>
      cases h with
      | failed hnames huntried =>
          have hlater := fun attempt hmem => ih.untried attempt hmem
          simp only [List.mem_append, List.mem_singleton, not_or] at hlater
          constructor
          · simp only [List.filterMap_cons, List.map_cons, List.nodup_cons]
            refine ⟨fun hmem => ?_, ih.distinct⟩
            obtain ⟨attempt, hattempt, hsame⟩ := List.mem_map.mp hmem
            exact (hlater attempt hattempt).2 hsame
          · simpa [huntried] using fun attempt seen hseen hattempt =>
              (hlater attempt (List.mem_filterMap.mpr ⟨seen, hseen, hattempt⟩)).1
          · simpa [hnames] using fun attempt seen hseen hattempt =>
              ih.asked attempt (List.mem_filterMap.mpr ⟨seen, hseen, hattempt⟩)
          · simpa using fun attempt seen hseen hattempt =>
              ih.served attempt (List.mem_filterMap.mpr ⟨seen, hseen, hattempt⟩)
          · simpa using ih.exhausted

theorem requests_tags (articles : List Article) :
    (requests articles).map Prod.fst = List.range articles.length := by
  apply List.ext_getElem <;> simp [requests]

theorem mem_requests {articles : List Article} {tag : Nat} {article : Article}
    (h : articles[tag]? = some article) :
    (tag, ⟨article, article.triedServers⟩) ∈ requests articles := by
  refine List.mem_map.mpr ⟨(article, tag), ?_, rfl⟩
  exact List.mem_zipIdx_iff_getElem?.mpr h

def sentResults (log : List (Nat × Seen)) : List ArticleResult := log.filterMap (·.2.sent)

/-- The attempts made for the article at a place of the batch, and what was sent for it. -/
def attemptsFor (tag : Nat) (log : List (Nat × Seen)) : List Attempt :=
  (outputs tag log).filterMap (·.attempt)

def sentFor (tag : Nat) (log : List (Nat × Seen)) : List ArticleResult :=
  (outputs tag log).filterMap (·.sent)

theorem flatMap_getElem? (articles : List Article) :
    ((List.range articles.length).flatMap fun tag => articles[tag]?.toList) = articles := by
  induction articles with
  | nil => rfl
  | cons article articles ih =>
      rw [List.length_cons, List.range_succ_eq_map, List.flatMap_cons, List.flatMap_map]
      simpa using ih

/-- One result for each tag makes one result for each article. -/
theorem sentResults_perm {articles : List Article} {log : List (Nat × Seen)}
    (hlog : ∀ entry ∈ log, entry.1 ∈ List.range articles.length)
    (hone : ∀ tag article, articles[tag]? = some article →
      (sentFor tag log).map (·.article) = [article]) :
    ((sentResults log).map (·.article)).Perm articles := by
  have hperm := perm_flatMap_outputs (List.range articles.length) log List.nodup_range hlog
  have hsent := (hperm.filterMap (·.sent)).map (·.article)
  have hleft : sentResults log = (log.map Prod.snd).filterMap (·.sent) := by
    rw [sentResults, List.filterMap_map]
    rfl
  rw [hleft]
  refine hsent.trans (List.Perm.of_eq ?_)
  calc
    (((List.range articles.length).flatMap fun tag => outputs tag log).filterMap (·.sent)).map
          (·.article) =
        (List.range articles.length).flatMap fun tag => (sentFor tag log).map (·.article) := by
      rw [List.filterMap_flatMap, List.map_flatMap]
      rfl
    _ = (List.range articles.length).flatMap fun tag => articles[tag]?.toList := by
      refine List.flatMap_congr fun tag htag => ?_
      have hbound : tag < articles.length := List.mem_range.mp htag
      have hget : articles[tag]? = some articles[tag] := List.getElem?_eq_getElem hbound
      rw [hone tag _ hget, hget]
      rfl
    _ = articles := flatMap_getElem? articles

/-- **Every article is reported once.** When the downloader is not shut down, a call
of `download` ends within as many turns as there are pairs of an article and a
server, and one more for each article. It sends one result for each article. For no
article does it try a server name twice, or one that was tried at the start; it
reports the data of the attempt that succeeded, or that all servers are exhausted. -/
theorem download_reports_every_article (downloader : Downloader) (articles : List Article)
    (turns : List Turn) (hrunning : ∀ turn ∈ turns, turn.shutsDown = false)
    (henough : articles.length * ((serverIds (roster downloader.servers)).card + 1) ≤
      turns.length) :
    ∃ report, downloader.download articles turns = some report ∧ report.result = .ok () ∧
      ((sentResults report.log).map (·.article)).Perm articles ∧
      ∀ tag article, articles[tag]? = some article →
        Reported (roster downloader.servers) article article.triedServers
          (attemptsFor tag report.log) (sentFor tag report.log) := by
  have hserves : ∀ turn ∈ turns.map Turn.serve,
      Serves (fun s => roster s = roster downloader.servers)
        (Handles (roster downloader.servers)) turn := by
    intro serve hserve
    obtain ⟨turn, hturn, rfl⟩ := List.mem_map.mp hserve
    exact Turn.serve_handles (hrunning turn hturn) _
  have hlength : (requests articles).length = articles.length := by simp [requests]
  have heffort : effort (untried (roster downloader.servers)) (requests articles) ≤
      (turns.map Turn.serve).length := by
    refine (effort_le fun job _ => untried_le _ job.2).trans ?_
    rw [hlength, List.length_map]
    exact henough
  have htags : ((requests articles).map Prod.fst).Nodup := by
    rw [requests_tags]
    exact List.nodup_range
  obtain ⟨report, hrun, hok⟩ :=
    run_ends hserves (fun _ _ _ h => Handles.untried_lt h) rfl heffort
  have hreported : ∀ tag article, articles[tag]? = some article →
      Reported (roster downloader.servers) article article.triedServers
        (attemptsFor tag report.log) (sentFor tag report.log) := fun tag article hget =>
    reported_of_course (run_course hserves rfl htags hrun _ (mem_requests hget))
  refine ⟨report, hrun, hok, sentResults_perm ?_ ?_, hreported⟩
  · rw [← requests_tags]
    exact run_log_tags hserves rfl hrun
  · exact fun tag article hget => (hreported tag article hget).sent_article

/-- A turn in which the first pool refuses connections and the others have the article. -/
def refusedByFirst : Turn where
  clock _ := 0
  acquire pool := if pool = 0 then .error (.connection "refused") else .ok ()
  fetchArticle _ _ := .ok { code := 220, message := "", data := some [1] }
  recordedAt := 0

/-- Two servers; the article has been tried on neither. -/
theorem download_reports_every_article_on_refusal :
    ∃ report, (new [{ id := "b", priority := 1 }, { id := "a" }]).download [{ messageId := "x@y" }]
        (List.replicate 3 refusedByFirst) = some report ∧ report.result = .ok () ∧
      ((sentResults report.log).map (·.article)).Perm [{ messageId := "x@y" }] ∧
      (attemptsFor 0 report.log).map (·.pick.serverId) = ["a", "b"] := by
  have hends := download_reports_every_article
    (new [{ id := "b", priority := 1 }, { id := "a" }]) [{ messageId := "x@y" }]
    (List.replicate 3 refusedByFirst) (by simp [Turn.shutsDown, refusedByFirst]) (by decide)
  obtain ⟨report, hrun, hok, hperm, -⟩ := hends
  refine ⟨report, hrun, hok, hperm, ?_⟩
  have hlog : ((new [{ id := "b", priority := 1 }, { id := "a" }]).download
      [{ messageId := "x@y" }] (List.replicate 3 refusedByFirst)).map
        (fun report => (attemptsFor 0 report.log).map (·.pick.serverId)) = some ["a", "b"] := by
    decide +kernel
  rw [hrun] at hlog
  exact Option.some.inj hlog

end Downloader

end NzbNntp
