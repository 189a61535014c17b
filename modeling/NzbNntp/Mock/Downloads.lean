import NzbNntp.Downloader.Failover
import NzbNntp.Mock.Sessions

/-!
Downloads from servers that speak the protocol. Each server has a session to give, and what it
sends of an article goes through the whole connection; so what a call of `download` reports of
an article is its text on the first server that has it.
-/

namespace NzbNntp

open Interruptible RetryQueue

namespace Downloader

def shelves (mocks : PoolRef → MockConfig) : Holdings := fun pool messageId =>
  ((mocks pool).articles.lookup (Text.trimAngles messageId)).map News.text

/-- A turn in which each server gives a connection whose session has its news, and what
`fetch_article` returns is what it returns on that connection. -/
structure Turn.Speaks (gz : GzDecoder) (mocks : PoolRef → MockConfig) (turn : Turn) : Prop where
  running : turn.shutsDown = false
  beforePick : ∀ servers, AllUp servers → AllUp (turn.beforePick.run servers)
  acquires : ∀ pool, turn.acquire pool = .ok ()
  beforeCount : ∀ servers, AllUp servers → AllUp (turn.beforeCount.run servers)
  fetches : ∀ pool (id : Text.Word), ∃ w news, HasNews (mocks pool) w news ∧
    (NzbNntp.fetchArticle gz id.text w).result = some (turn.fetchArticle pool id.text)
  beforeRecord : ∀ servers, AllUp servers → AllUp (turn.beforeRecord.run servers)

/-- The turn, where the servers are asked for no other articles than these. -/
def Turn.among (ids : List String) (turn : Turn) : Turn :=
  { turn with
    fetchArticle := fun pool messageId =>
      if messageId ∈ ids then turn.fetchArticle pool messageId
      else .error (.articleNotFound messageId) }

section Fetches

variable {gz : GzDecoder} {mocks : PoolRef → MockConfig} {turn : Turn} {ids : List String}

/-- It serves a request as the turn does, if the article is one of these. -/
theorem Turn.serve_among {request : DownloadRequest} (h : request.article.messageId ∈ ids)
    (servers : List ServerState) :
    (turn.among ids).serve servers request = turn.serve servers request := by
  simp only [Turn.serve, Turn.attempt, Turn.among, if_pos h]
  rfl

def shelvesAmong (mocks : PoolRef → MockConfig) (ids : List String) : Holdings :=
  fun pool messageId => if messageId ∈ ids then shelves mocks pool messageId else none

theorem Turn.Speaks.fetchArticle_eq (h : turn.Speaks gz mocks) (pool : PoolRef) (id : Text.Word) :
    turn.fetchArticle pool id.text = match shelves mocks pool id.text with
      | some text =>
          .ok { code := 220, message := s!"0 <{Text.trimAngles id.text}>", data := some text }
      | none => .error (.articleNotFound (normalizeMessageId id.text)) := by
  obtain ⟨w, news, hnews, hfetch⟩ := h.fetches pool id
  have hresult : (NzbNntp.fetchArticle gz id.text w).result = some (news.ask (.article id)).1 :=
    hnews.result (.article id)
  obtain ⟨state, -, rfl, -, -⟩ := hnews
  rw [Option.some.inj (hfetch.symm.trans hresult), shelves]
  cases hlookup : (mocks pool).articles.lookup (Text.trimAngles id.text) with
  | some data => exact News.lookup_of_some hlookup
  | none => exact News.lookup_of_none hlookup

theorem Turn.Speaks.steady (h : turn.Speaks gz mocks)
    (hwords : ∀ messageId ∈ ids, ∃ id : Text.Word, id.text = messageId) :
    (turn.among ids).Steady (shelvesAmong mocks ids) where
  running := h.running
  beforePick := h.beforePick
  acquires := h.acquires
  beforeCount := h.beforeCount
  holds pool messageId data hdata := by
    rw [shelvesAmong] at hdata
    split at hdata
    · rename_i hmem
      obtain ⟨id, rfl⟩ := hwords messageId hmem
      have hfetch := h.fetchArticle_eq pool id
      rw [hdata] at hfetch
      exact ⟨_, (if_pos hmem).trans hfetch, rfl⟩
    · cases hdata
  lacks pool messageId hdata := by
    by_cases hmem : messageId ∈ ids
    · obtain ⟨id, rfl⟩ := hwords messageId hmem
      rw [shelvesAmong, if_pos hmem] at hdata
      have hfetch := h.fetchArticle_eq pool id
      rw [hdata] at hfetch
      exact ⟨_, (if_pos hmem).trans hfetch, rfl⟩
    · exact ⟨_, if_neg hmem, rfl⟩
  beforeRecord := h.beforeRecord

end Fetches

/-! ### Whole calls -/

section Calls

variable {gz : GzDecoder} {mocks : PoolRef → MockConfig}

/-- Only the articles of the call are asked for. -/
theorem download_among (downloader : Downloader) (articles : List Article) (turns : List Turn)
    (hrunning : ∀ turn ∈ turns, turn.shutsDown = false) :
    downloader.download articles (turns.map (·.among (articles.map (·.messageId)))) =
      downloader.download articles turns := by
  rw [download, download, List.map_map]
  refine (run_congr (I := fun request : DownloadRequest =>
    request.article.messageId ∈ articles.map (·.messageId)) ?_ ?_ ?_).symm
  · intro turn _ servers request hrequest
    exact (Turn.serve_among hrequest servers).symm
  · intro turn hturn servers request servers' seen back hrequest hserve
    obtain ⟨s', output, back', hserve', -, hhandles⟩ :=
      Turn.serve_handles (hrunning turn hturn) (roster servers) servers request rfl
    obtain ⟨rfl, hrest⟩ := Prod.mk.inj (Except.ok.inj (hserve.symm.trans hserve'))
    obtain ⟨rfl, rfl⟩ := Prod.mk.inj hrest
    cases hhandles
    exact hrequest
  · intro job hjob
    obtain ⟨article, harticle, rfl⟩ := List.mem_map.mp hjob
    exact List.mem_map_of_mem (List.fst_mem_of_mem_zipIdx harticle)

/-- **The text of the first server that has it.** Where every server of a downloader is a
server of the protocol, and gives the loop sessions that have its news, a call reports each
article with its text on the first server, by priority, that has it; every byte has gone
through the commands and the readers of a connection. -/
theorem download_from_servers (gz : GzDecoder) (mocks : PoolRef → MockConfig)
    (configs : List ServerConfig) (downloader : Downloader) (articles : List Article)
    (turns : List Turn) (hlater : Later configs downloader.servers)
    (hup : AllUp downloader.servers)
    (hwords : ∀ article ∈ articles, ∃ id : Text.Word, id.text = article.messageId)
    (hspeak : ∀ turn ∈ turns, turn.Speaks gz mocks)
    (henough : articles.length * ((serverIds (roster downloader.servers)).card + 1) ≤
      turns.length) :
    (roster downloader.servers).Pairwise (·.1.priority ≤ ·.1.priority) ∧
    ∃ report, downloader.download articles turns = some report ∧ report.result = .ok () ∧
      ∀ tag article, articles[tag]? = some article →
        sentFor tag report.log = [found (shelves mocks) article
          (asked article.triedServers (roster downloader.servers))] := by
  have hsteady : ∀ turn ∈ turns.map (·.among (articles.map (·.messageId))),
      turn.Steady (shelvesAmong mocks (articles.map (·.messageId))) := by
    intro turn hturn
    obtain ⟨turn, hmem, rfl⟩ := List.mem_map.mp hturn
    refine (hspeak turn hmem).steady fun messageId hid => ?_
    obtain ⟨article, harticle, rfl⟩ := List.mem_map.mp hid
    exact hwords article harticle
  obtain ⟨report, hrun, hok, hall⟩ :=
    download_offers _ downloader articles _ hup hsteady (by rwa [List.length_map])
  rw [download_among downloader articles turns fun turn h => (hspeak turn h).running] at hrun
  refine ⟨hlater.pairwise_priority, report, hrun, hok, fun tag article hget => ?_⟩
  have hmem : article.messageId ∈ articles.map (·.messageId) :=
    List.mem_map_of_mem (List.mem_of_getElem? hget)
  have hsame : ∀ pool, shelvesAmong mocks (articles.map (·.messageId)) pool article.messageId =
      shelves mocks pool article.messageId := fun _ => if_pos hmem
  rw [(hall tag article hget).2, found, found]
  simp only [hsame]

end Calls

/-! ### Two servers -/

def stocked (articles : List (String × Bytes)) : MockConfig := { oneArticleMock with articles }

def readerSession (articles : List (String × Bytes)) : World MockSession :=
  (connect readerConfig (.to (stocked articles)) { conn := .new "s" }).state

theorem readerSession_hasNews (articles : List (String × Bytes)) :
    ∃ news, HasNews (stocked articles) (readerSession articles) news := by
  have hsteady : Steady (stocked articles) ((stocked articles).login readerConfig
      ((stocked articles).opening { authenticated := false })).2 := by
    refine ⟨⟨rfl, rfl, rfl⟩, rfl, rfl, ?_, rfl, rfl⟩
    intro argument entry hentry
    cases hentry
  have hquiet : Quiet { conn := .new "s" : World MockSession } := fun _ h => by cases h
  obtain ⟨w', hconnect, hnews⟩ := connect_hasNews (Dial.to_reaches (stocked articles) rfl rfl)
    ⟨rfl, .inl rfl, oneArticleMock_welcomes.message⟩ readerConfig_legible rfl hquiet rfl rfl hsteady
  rw [readerSession, hconnect]
  exact ⟨_, hnews⟩

def speaking (sessions : PoolRef → World MockSession) : Turn where
  clock _ := 0
  acquire _ := .ok ()
  fetchArticle pool messageId :=
    (NzbNntp.fetchArticle rawDecoder messageId (sessions pool)).result.getD (.error .shutdown)
  recordedAt := 0

theorem speaking_speaks {mocks : PoolRef → MockConfig} {sessions : PoolRef → World MockSession}
    (h : ∀ pool, ∃ news, HasNews (mocks pool) (sessions pool) news) :
    (speaking sessions).Speaks rawDecoder mocks where
  running := rfl
  beforePick _ h := h
  acquires _ := rfl
  beforeCount _ h := h
  fetches pool id := by
    obtain ⟨news, hnews⟩ := h pool
    obtain ⟨r, hr⟩ : ∃ r, (NzbNntp.fetchArticle rawDecoder id.text (sessions pool)).result =
      some r := ⟨_, hnews.result (.article id)⟩
    refine ⟨_, news, hnews, hr.trans (congrArg some ?_)⟩
    show r = (NzbNntp.fetchArticle rawDecoder id.text (sessions pool)).result.getD _
    rw [hr, Option.getD_some]
  beforeRecord _ h := h

def secondShelf (pool : PoolRef) : List (String × Bytes) :=
  if pool = 1 then oneArticleMock.articles else []

/-- The server that is second in priority has the article. -/
theorem download_from_servers_second :
    ∃ report, (new [{ id := "b", priority := 1 }, { id := "a" }]).download [{ messageId := "a@b" }]
        (List.replicate 3 (speaking fun pool => readerSession (secondShelf pool))) = some report ∧
      sentFor 0 report.log =
        [⟨{ messageId := "a@b" }, some "b", .ok (Text.utf8 "Subject: a\r\n\r\n.b\r\n")⟩] := by
  have hspeaks : (speaking fun pool => readerSession (secondShelf pool)).Speaks rawDecoder
      fun pool => stocked (secondShelf pool) :=
    speaking_speaks fun pool => readerSession_hasNews (secondShelf pool)
  obtain ⟨-, report, hrun, -, hall⟩ := download_from_servers rawDecoder
    (fun pool => stocked (secondShelf pool)) _
    (new [{ id := "b", priority := 1 }, { id := "a" }])
    [{ messageId := "a@b" }] (List.replicate 3 _) (later_new _) (allUp_new _)
    (fun article h => ⟨articleId, by rw [List.mem_singleton.mp h]; rfl⟩)
    (fun turn hturn => List.eq_of_mem_replicate hturn ▸ hspeaks) (by decide)
  exact ⟨report, hrun, hall 0 _ rfl⟩

end Downloader

end NzbNntp
