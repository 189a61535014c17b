import NzbNntp.Config
import NzbNntp.Error

/-!
`ServerState` of `server.rs`: health, penalties and counters. Instants and
durations are in seconds. The pool of a server is shared with the callers that
acquire from it, so a server holds a reference to it only.
-/

namespace NzbNntp

abbrev PENALTY_UNKNOWN : Nat := 3 * 60
abbrev PENALTY_TIMEOUT : Nat := 10 * 60
abbrev PENALTY_AUTH : Nat := 10 * 60

/-- Which pool an `Arc<ConnectionPool>` points to. -/
abbrev PoolRef := Nat

structure ServerState where
  config : ServerConfig
  active : Bool
  connectionsActive : UInt16 := 0
  articlesTried : UInt64 := 0
  articlesFailed : UInt64 := 0
  bytesDownloaded : UInt64 := 0
  penaltyUntil : Option Nat := none
  lastError : Option String := none
  pool : PoolRef
  deriving DecidableEq

namespace ServerState

/-- `ServerState::new`, with the pool it has created. -/
def new (config : ServerConfig) (pool : PoolRef) : ServerState :=
  { config, active := config.enabled, pool }

def isAvailable (server : ServerState) (now : Nat) : Bool :=
  server.active && server.penaltyUntil.all (now > ·)

def penalize (server : ServerState) (reason : String) (duration now : Nat) : ServerState :=
  { server with penaltyUntil := some (now + duration), lastError := some reason }

def penalizeFor (server : ServerState) (reason : String) (now : Nat) : ServerState :=
  let duration :=
    if Text.contains reason "auth" || Text.contains reason "Auth" then PENALTY_AUTH
    else if Text.contains reason "timeout" || Text.contains reason "Timeout" then PENALTY_TIMEOUT
    else PENALTY_UNKNOWN
  server.penalize reason duration now

def recordSuccess (server : ServerState) (bytes : UInt64) : ServerState :=
  { server with
    articlesTried := server.articlesTried + 1
    bytesDownloaded := server.bytesDownloaded + bytes }

def recordFailure (server : ServerState) : ServerState :=
  { server with
    articlesTried := server.articlesTried + 1
    articlesFailed := server.articlesFailed + 1 }

/-- The counter, when a connection has been acquired. -/
def countAcquired (server : ServerState) : ServerState :=
  { server with connectionsActive := server.connectionsActive + 1 }

/-- `saturating_sub(1)` on the counter -/
def countReturned (server : ServerState) : ServerState :=
  { server with
    connectionsActive := if server.connectionsActive = 0 then 0 else server.connectionsActive - 1 }

/-- `release_connection`, without the call of `release` on the pool. -/
def releaseConnection (server : ServerState) : ServerState := server.countReturned

/-- `discard_connection`, without the call of `discard` on the pool. -/
def discardConnection (server : ServerState) : ServerState := server.countReturned

/-- What never changes about a server: its configuration and its pool. -/
def identity (server : ServerState) : ServerConfig × PoolRef := (server.config, server.pool)

section Identity

variable (server : ServerState) (reason : String) (now : Nat) (bytes : UInt64)

@[simp] theorem penalizeFor_identity :
    (server.penalizeFor reason now).identity = server.identity := rfl

@[simp] theorem recordSuccess_identity :
    (server.recordSuccess bytes).identity = server.identity := rfl

@[simp] theorem recordFailure_identity : server.recordFailure.identity = server.identity := rfl

@[simp] theorem countAcquired_identity : server.countAcquired.identity = server.identity := rfl

@[simp] theorem releaseConnection_identity :
    server.releaseConnection.identity = server.identity := rfl

@[simp] theorem discardConnection_identity :
    server.discardConnection.identity = server.identity := rfl

end Identity

end ServerState

end NzbNntp
