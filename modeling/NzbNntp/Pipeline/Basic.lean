import NzbNntp.Connection.Commands

/-!
`Pipeline` of `pipeline.rs`: ARTICLE commands are sent ahead of the replies,
up to `depth` of them, and the replies are matched to the oldest request in
flight. The pipeline and the connection it drives are the two halves of the
state here.
-/

namespace NzbNntp

open Interruptible

structure PipelineRequest where
  messageId : String
  tag : Nat
  deriving DecidableEq

structure PipelineResult where
  request : PipelineRequest
  result : NntpResult NntpResponse
  deriving DecidableEq

structure Pipeline where
  depth : Nat
  inFlight : List PipelineRequest := []
  pending : List PipelineRequest := []

abbrev Piped (π : Type) : Type → Type := Comp NntpError (Pipeline × World π)

namespace Pipeline

def new (depth : UInt8) : Pipeline := { depth := max depth.toNat 1 }

def submit (messageId : String) (tag : Nat) (p : Pipeline) : Pipeline :=
  { p with pending := p.pending ++ [{ messageId, tag }] }

def requests (p : Pipeline) : List PipelineRequest := p.inFlight ++ p.pending

def sends (p : Pipeline) : Nat := min (p.depth - p.inFlight.length) p.pending.length

def afterSends (p : Pipeline) (n : Nat) : Pipeline :=
  { p with inFlight := p.inFlight ++ p.pending.take n, pending := p.pending.drop n }

@[simp] theorem afterSends_requests (p : Pipeline) (n : Nat) :
    (p.afterSends n).requests = p.requests := by
  simp [afterSends, requests]

@[simp] theorem afterSends_zero (p : Pipeline) : p.afterSends 0 = p := by
  simp [afterSends]

end Pipeline

def PipelineRequest.mid (req : PipelineRequest) : String :=
  if req.messageId.toList.head? = some '<' then req.messageId else s!"<{req.messageId}>"

section Pipeline

variable {π : Type} [Peer π]

def modifyPipeline (f : Pipeline → Pipeline) : Piped π Unit :=
  Comp.modify fun s => (f s.1, s.2)

/-- The loop of `flush_sends`: how many commands it has sent. Each round takes a
request off `pending`, so the first equation is met with none left. -/
def flushLoop : Nat → Piped π Nat
  | 0 => return 0
  | fuel + 1 => do
      let s ← Comp.get
      if s.1.inFlight.length < s.1.depth then
        match s.1.pending with
        | [] => return 0
        | req :: rest => do
            -- While its command is written, the request is in neither queue.
            modifyPipeline fun p => { p with pending := rest }
            (orError (sendCommandNoFlush s!"ARTICLE {req.mid}")).onSnd
            modifyPipeline fun p => { p with inFlight := p.inFlight ++ [req] }
            let sent ← flushLoop fuel
            return sent + 1
      else return 0

def flushSends : Piped π Unit := do
  let s ← Comp.get
  let sent ← flushLoop s.1.pending.length
  if sent > 0 then (orError flush).onSnd else pure ()

/-- `conn.state = ConnectionState::Error; Err(..)`, as the value of a result. -/
def refuseIn {α : Type} (state : ConnectionState) (e : NntpError) : Nntp π (NntpResult α) := do
  setState state
  return .error e

omit [Peer π] in
/-- Read the reply to `request`: the outcome of the request, unless its status
line cannot be read. -/
def readReply (request : PipelineRequest) : Nntp π (NntpResult NntpResponse) := do
  let status ← orError readResponseLine
  match status.code with
  | 220 => do
      match ← readMultilineBody.attempt with
      | .ok data =>
          return .ok { code := status.code, message := status.message, data := some data }
      | .error e => refuseIn .error e
  | 430 => return .error (.articleNotFound request.messageId)
  | 411 => return .error (.noSuchGroup status.message)
  | 412 | 420 | 423 => return .error (.noArticleSelected status.message)
  | 403 => refuseIn .error (.permissionDenied status.message)
  | 480 => refuseIn .error (.authRequired status.message)
  | 481 | 482 =>
      refuseIn .error (.auth s!"ARTICLE rejected ({status.code}): {status.message}")
  | 502 => refuseIn .error (.serviceUnavailable status.message)
  | _ => refuseIn .error (unexpectedArticleResponse status.code status.message)

omit [Peer π] in
def receiveOne : Piped π (Option PipelineResult) := do
  let s ← Comp.get
  match s.1.inFlight with
  | [] => return none
  | request :: rest => do
      -- The request leaves the queue before its reply is read.
      modifyPipeline fun p => { p with inFlight := rest }
      let result ← (readReply request).onSnd
      return some { request, result }

def isFatal : NntpResult NntpResponse → Bool
  | .error (.auth _) | .error (.authRequired _) | .error (.permissionDenied _)
  | .error (.serviceUnavailable _) | .error (.connection _) | .error (.io _) => true
  | _ => false

/-- The outcome of a request that is given up with the connection. -/
def aborted (request : PipelineRequest) : PipelineResult :=
  { request, result := .error (.connection "Pipeline aborted due to fatal error") }

/-- The loop of `process_all`. Every round but the last gives a request its
outcome, so the first equation is out of reach from one more round than there
are requests. -/
def processLoop : Nat → List PipelineResult → Piped π (List PipelineResult)
  | 0, results => return results
  | fuel + 1, results => do
      flushSends
      let s ← Comp.get
      if s.1.inFlight.isEmpty then return results
      else
        match ← receiveOne with
        | none => processLoop fuel results
        | some result =>
            if isFatal result.result then do
              let s ← Comp.get
              modifyPipeline fun p => { p with inFlight := [], pending := [] }
              return results ++ [result] ++ s.1.requests.map aborted
            else processLoop fuel (results ++ [result])

/-- Submit nothing more: flush sends and read all responses. -/
def processAll : Piped π (List PipelineResult) := do
  let s ← Comp.get
  processLoop (s.1.requests.length + 1) []

end Pipeline

end NzbNntp
