import NzbNntp.Connection.Basic
import NzbNntp.Library.RetryQueue
import NzbNntp.Server
import Mathlib.Data.List.Sort

/-!
`Downloader` of `downloader.rs`. A call of `download` works through a queue of
requests; a request that fails on a server goes to the back with the server on
its list of tried ones.

A turn of the loop meets the world at a few points: the flags, the clock, what
the other calls have done to the servers before each lock scope, and what
`acquire` and `fetch_article` return. The other calls may change everything
about a server but its configuration and its pool.
-/

namespace NzbNntp

structure ArticleResult where
  article : Article
  serverId : Option String
  result : NntpResult Bytes

structure DownloadRequest where
  article : Article
  triedServers : List String

structure ServerPick where
  index : Nat
  serverId : String
  pool : PoolRef
  deriving DecidableEq

structure Downloader where
  servers : List ServerState

namespace Downloader

def new (serverConfigs : List ServerConfig) : Downloader :=
  let sorted := serverConfigs.insertionSort (·.priority ≤ ·.priority)
  { servers := (sorted.filter (·.enabled)).zipIdx.map fun config => .new config.1 config.2 }

/-- The scan of `pick_server` from the index `idx` on. Each server is asked at an
instant of its own. -/
def pickFrom (clock : Nat → Nat) (tried : List String) : Nat → List ServerState → Option ServerPick
  | _, [] => none
  | idx, server :: rest =>
      if !server.isAvailable (clock idx) then pickFrom clock tried (idx + 1) rest
      else if tried.contains server.config.id then pickFrom clock tried (idx + 1) rest
      else some { index := idx, serverId := server.config.id, pool := server.pool }

def pickServer (clock : Nat → Nat) (servers : List ServerState) (tried : List String) :
    Option ServerPick :=
  pickFrom clock tried 0 servers

/-- The errors after which a connection is discarded and its server penalized. -/
def isFatal : NntpError → Bool
  | .authRequired _ | .permissionDenied _ | .serviceUnavailable _ | .connection _ | .io _ => true
  | _ => false

/-- What `fetch_article` has returned, put down under the lock. -/
def record (fetched : NntpResult NntpResponse) (now : Nat) (server : ServerState) : ServerState :=
  match fetched with
  | .ok response =>
      (server.recordSuccess (.ofNat (response.data.getD []).length)).releaseConnection
  | .error (.articleNotFound _) => server.recordFailure.releaseConnection
  | .error e =>
      let server := server.recordFailure
      if isFatal e then (server.penalizeFor e.display now).discardConnection
      else server.releaseConnection

def roster (servers : List ServerState) : List (ServerConfig × PoolRef) :=
  servers.map (·.identity)

structure Others where
  run : List ServerState → List ServerState
  fixed : ∀ servers, roster (run servers) = roster servers

def Others.idle : Others := ⟨id, fun _ => rfl⟩

structure Turn where
  /-- the shutdown flag at the head of the turn -/
  shutdown : Bool := false
  /-- the shutdown flag at each poll while the downloader is paused -/
  polls : List Bool := []
  beforePick : Others := .idle
  clock : Nat → Nat
  acquire : PoolRef → NntpResult Unit
  beforeCount : Others := .idle
  fetchArticle : PoolRef → String → NntpResult NntpResponse
  beforeRecord : Others := .idle
  /-- the clock when the outcome is put down -/
  recordedAt : Nat

def Turn.shutsDown (turn : Turn) : Bool := turn.shutdown || turn.polls.any id

structure Attempt where
  pick : ServerPick
  messageId : String
  outcome : NntpResult NntpResponse

structure Seen where
  attempt : Option Attempt := none
  sent : Option ArticleResult := none

/-- `acquire` and `fetch_article` on the server that was picked, with the lock
scopes after them. -/
def Turn.attempt (turn : Turn) (pick : ServerPick) (messageId : String)
    (servers : List ServerState) : List ServerState × NntpResult NntpResponse :=
  match turn.acquire pick.pool with
  | .ok () =>
      let servers := (turn.beforeCount.run servers).modify pick.index ServerState.countAcquired
      let fetched := turn.fetchArticle pick.pool messageId
      ((turn.beforeRecord.run servers).modify pick.index (record fetched turn.recordedAt), fetched)
  | .error e =>
      ((turn.beforeRecord.run servers).modify pick.index
        (·.penalizeFor e.display turn.recordedAt), .error e)

/-- One turn of the loop of `download`, on the request at the head. -/
def Turn.serve (turn : Turn) : RetryQueue.Turn (List ServerState) DownloadRequest Seen NntpError :=
  fun servers request =>
    if turn.shutsDown then .error .shutdown
    else
      let servers := turn.beforePick.run servers
      let messageId := request.article.messageId
      match pickServer turn.clock servers request.triedServers with
      | none =>
          let sent : ArticleResult :=
            { article := request.article, serverId := none
              result := .error (.allServersExhausted messageId) }
          .ok (servers, { sent }, none)
      | some pick =>
          let (servers, outcome) := turn.attempt pick messageId servers
          let attempt : Attempt := { pick, messageId, outcome }
          match outcome with
          | .ok response =>
              let sent : ArticleResult :=
                { article := request.article, serverId := pick.serverId
                  result := .ok (response.data.getD []) }
              .ok (servers, { attempt, sent }, none)
          | .error _ =>
              let back : DownloadRequest :=
                { request with triedServers := request.triedServers ++ [pick.serverId] }
              .ok (servers, { attempt }, back)

/-- The queue at the start; an article is told from the others by its place. -/
def requests (articles : List Article) : List (Nat × DownloadRequest) :=
  articles.zipIdx.map fun article =>
    (article.2, { article := article.1, triedServers := article.1.triedServers })

/-- `download`, over the turns that the loop takes; none when it takes more. -/
def download (downloader : Downloader) (articles : List Article) (turns : List Turn) :
    Option (RetryQueue.Report (List ServerState) Seen NntpError Nat) :=
  RetryQueue.run (turns.map Turn.serve) downloader.servers (requests articles)

end Downloader

end NzbNntp
