import NzbNntp.Mock.Exchange
import NzbNntp.Pipeline.Depth
import NzbNntp.Pipeline.Stat

/-!
What a session is for: a client that asks a news server. The news are articles by their ids and
overviews by group; they remember the group that is selected and keep what is posted. A client
that faces a session of the mock server is answered as the news answer.
-/

namespace NzbNntp

open Interruptible Delimited Trimming

/-! ### News -/

structure News where
  article : String → Option Bytes
  group : String → Option (UInt64 × UInt64 × UInt64)
  overview : String → Nat → Nat → List String
  postable : Bool
  selected : Option String
  posted : Option (List Bytes)

/-- What a client asks for. The ids and names stand between spaces in a command. -/
inductive Query where
  | article (id : Text.Word)
  | body (id : Text.Word)
  | stat (id : Text.Word)
  | group (name : Text.Word)
  | xover (start stop : Nat)
  | ping
  | post (data : Bytes)
  | postText (text : String)
  | articles (depth : UInt8) (requests : List (Text.Word × Nat))
  | stats (ids : List Text.Word)

namespace Query

def Result : Query → Type
  | .article _ | .body _ | .stat _ | .post _ | .postText _ => NntpResponse
  | .group _ => GroupResponse
  | .xover _ _ => List XoverEntry
  | .ping => Unit
  | .articles _ _ => List PipelineResult
  | .stats _ => List StatResult

def request (r : Text.Word × Nat) : PipelineRequest := { messageId := r.1.text, tag := r.2 }

def run {π : Type} [Peer π] (gz : GzDecoder) : (q : Query) → Nntp π q.Result
  | .article id => fetchArticle gz id.text
  | .body id => fetchBody gz id.text
  | .stat id => statArticle id.text
  | .group name => NzbNntp.group name.text
  | .xover start stop => NzbNntp.xover gz start stop
  | .ping => NzbNntp.ping
  | .post data => postArticleBytes data
  | .postText text => postArticle text
  | .articles depth requests =>
      processAll.withFst (.submitted depth (requests.map request))
  | .stats ids => execute.withFst { pending := ids.map (·.text) }

end Query

namespace News

/-- An article as its readers are given it: each of its lines closed by CRLF, and a blank line
where it has none. -/
def text (data : Bytes) : Bytes := normalized (MockConfig.sentLines data)

def withData (status : NntpResponse) (data : Bytes) : NntpResponse :=
  { status with data := some data }

def lookup {α : Type} (news : News) (id : Text.Word) (found : Bytes → α) : NntpResult α :=
  match news.article (Text.trimAngles id.text) with
  | some data => .ok (found data)
  | none => .error (.articleNotFound (normalizeMessageId id.text))

theorem lookup_of_some {α : Type} {news : News} {id : Text.Word} {found : Bytes → α} {data : Bytes}
    (h : news.article (Text.trimAngles id.text) = some data) :
    news.lookup id found = .ok (found data) := by
  rw [lookup, h]

theorem lookup_of_none {α : Type} {news : News} {id : Text.Word} {found : Bytes → α}
    (h : news.article (Text.trimAngles id.text) = none) :
    news.lookup id found = .error (.articleNotFound (normalizeMessageId id.text)) := by
  rw [lookup, h]

/-- An article that a pipeline fetches: where there is none, the id is told as it was given. -/
def fetched (news : News) (r : Text.Word × Nat) : PipelineResult where
  request := Query.request r
  result :=
    match news.article (Text.trimAngles r.1.text) with
    | some data =>
        .ok (withData { code := 220, message := s!"0 <{Text.trimAngles r.1.text}>" } (text data))
    | none => .error (.articleNotFound r.1.text)

def checked (news : News) (id : Text.Word) : StatResult where
  messageId := id.text
  exists_ := (news.article (Text.trimAngles id.text)).isSome

/-- The answer to a posting, and the news with the lines that are posted. -/
def take (news : News) (lines : List Bytes) : NntpResult NntpResponse × News :=
  if news.postable then
    (.ok { code := 240, message := "Article received OK" },
      { news with posted := news.posted.map (· ++ [normalized lines]) })
  else (.ok { code := 440, message := "Posting not permitted" }, news)

def ask (news : News) : (q : Query) → NntpResult q.Result × News
  | .article id =>
      (news.lookup id fun data =>
        withData { code := 220, message := s!"0 <{Text.trimAngles id.text}>" } (text data), news)
  | .body id =>
      (news.lookup id fun data =>
        withData { code := 222, message := s!"0 <{Text.trimAngles id.text}>" } (text data), news)
  | .stat id =>
      (news.lookup id fun _ => { code := 223, message := s!"0 <{Text.trimAngles id.text}>" }, news)
  | .group name =>
      match news.group name.text with
      | some (count, first, last) =>
          (.ok { count := count.toNat, first := first.toNat, last := last.toNat, name := name.text },
            { news with selected := some name.text })
      | none => (.error (.noSuchGroup name.text), news)
  | .xover start stop =>
      match news.selected with
      | some name => (.ok ((news.overview name start stop).filterMap parseXoverLine), news)
      | none => (.error noNewsgroupSelected, news)
  | .ping => (.ok (), news)
  | .post data => news.take (articleLines data)
  | .postText text => news.take ((Text.lines text).map Text.utf8)
  | .articles _ requests => (.ok (requests.map news.fetched), news)
  | .stats ids => (.ok (ids.map news.checked), news)

end News

/-! ### The news of a session -/

def MockConfig.news (config : MockConfig) (state : MockState) : News where
  article id := config.articles.lookup id
  group name := config.groups.lookup name
  overview name start stop :=
    let range := s!"{start}-{stop}"
    if config.xover423OutsideGroup &&
        MockConfig.xoverRangeOutsideGroup (some range) (config.groups.lookup name) then []
    else MockConfig.entriesFor config.xoverEntriesByRange config.xoverEntries (some range)
  postable := !config.postNotPermitted
  selected := state.selectedGroup
  posted := state.postedArticles

/-- An entry that stands on one line, and does not begin as a stuffed one. -/
structure OverviewLine (entry : String) : Prop where
  free : '\n' ∉ entry.toList
  dotless : entry.toList.head? ≠ some '.'

/-- A session that has been logged in, and has nothing prepared but its news. -/
structure Steady (config : MockConfig) (state : MockState) : Prop where
  faults : config.faults.Absent
  overrides : config.articleResponseOverrides = []
  rawEntries : config.xoverRawEntries = []
  entries : ∀ argument, ∀ entry ∈
    MockConfig.entriesFor config.xoverEntriesByRange config.xoverEntries argument, OverviewLine entry
  authenticated : state.authenticated = true
  sequences : state.articleResponseSequences = none

/-- It ends as `result` says, with nothing owed and the session in `state`. -/
def answers {α : Type} (config : MockConfig) (result : NntpResult α) (state : MockState) :
    Post NntpError (World MockSession) α where
  ok r w := result = .ok r ∧ Facing config state none .ready [] w
  err e w := result = .error e ∧ Facing config state none .ready [] w
  dropped _ := False

/-- The query is answered as the news of the session answer it, and the session has their
news from then on. -/
def TellsNews (gz : GzDecoder) (config : MockConfig) (state : MockState) (q : Query)
    (w : World MockSession) : Prop :=
  ∃ state', Steady config state' ∧ config.news state' = ((config.news state).ask q).2 ∧
    wp (q.run gz) (answers config ((config.news state).ask q).1 state') w

end NzbNntp
