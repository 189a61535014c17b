import NzbNntp.Connection.Readers
import NzbNntp.Connection.Parsers

/-!
The single-command operations of `connection.rs`. Each claims the connection,
writes one command line, reads the status line of its reply and, after the
codes that announce one, the block that follows; the state it leaves behind
says whether the connection can be used again.
-/

namespace NzbNntp

open Interruptible

section Commands

variable {π : Type} [Peer π] (gz : GzDecoder)

def failIn {α : Type} (state : ConnectionState) (e : NntpError) : Nntp π α := do
  setState state
  Comp.fail e

def returnReady {α : Type} (a : α) : Nntp π α := do
  setState .ready
  return a

def fetchArticle (messageId : String) : Nntp π NntpResponse := do
  requireReady "fetch article"
  let mid := normalizeMessageId messageId
  let status ← request s!"ARTICLE {mid}"
  match status.code with
  | 220 => do
      let data ← orError (readMultilineBodyMaybeDecompress gz)
      returnReady { code := status.code, message := status.message, data := some data }
  | 430 => failIn .ready (.articleNotFound mid)
  | 411 => failIn .ready (.noSuchGroup status.message)
  | 412 | 420 | 423 => failIn .ready (.noArticleSelected status.message)
  | 403 => failIn .error (.permissionDenied status.message)
  | 480 => failIn .error (.authRequired status.message)
  | 481 | 482 =>
      failIn .error (.auth s!"ARTICLE rejected ({status.code}): {status.message}")
  | 502 => failIn .error (.serviceUnavailable status.message)
  | _ => failIn .error (unexpectedArticleResponse status.code status.message)

def fetchHeadNumber (articleNumber maxHeaderBytes : Nat) : Nntp π NntpResponse := do
  let w ← Comp.get
  -- The capability and the bound are looked at before the state.
  if !w.conn.capabilities.haveHead then
    Comp.fail (.protocol "Server does not support HEAD")
  else if articleNumber = 0 ∨ maxHeaderBytes = 0 ∨ maxHeaderBytes > 64 * 1024 then
    Comp.fail (.protocol "HEAD request bound is invalid")
  else do
    requireReady "HEAD"
    let status ← request s!"HEAD {articleNumber}"
    match status.code with
    | 221 => do
        let data ← orError (readMultilineBodyMaybeDecompressBounded gz maxHeaderBytes)
        returnReady { code := status.code, message := status.message, data := some data }
    | 423 => failIn .ready (.articleNotFound s!"{articleNumber}")
    | 411 => failIn .ready (.noSuchGroup status.message)
    | 412 | 420 => failIn .ready (.noArticleSelected status.message)
    | 403 => failIn .error (.permissionDenied status.message)
    | 480 => failIn .error (.authRequired status.message)
    | 481 | 482 => failIn .error (.auth s!"HEAD rejected ({status.code}): {status.message}")
    | 502 => failIn .error (.serviceUnavailable status.message)
    | _ =>
        failIn .error (.protocol s!"Unexpected HEAD response {status.code}: {status.message}")

def statArticle (messageId : String) : Nntp π NntpResponse := do
  let w ← Comp.get
  if !w.conn.capabilities.haveStat then
    Comp.fail (.articleNotFound (normalizeMessageId messageId))
  else do
    requireReady "STAT"
    let mid := normalizeMessageId messageId
    let resp ← request s!"STAT {mid}"
    match resp.code with
    | 223 => returnReady resp
    | 430 => failIn .ready (.articleNotFound mid)
    | 403 => failIn .error (.permissionDenied resp.message)
    | 502 => failIn .error (.serviceUnavailable resp.message)
    | 480 => failIn .error (.authRequired resp.message)
    | 481 | 482 => failIn .error (.auth s!"STAT rejected ({resp.code}): {resp.message}")
    | _ => failIn .error (.protocol s!"Unexpected STAT response {resp.code}: {resp.message}")

def ping : Nntp π Unit := do
  requireReady "ping"
  let resp ← request "DATE"
  match resp.code with
  | 400 | 403 | 480 | 481 | 482 | 502 =>
      failIn .error (.connection s!"Health check rejected ({resp.code}): {resp.message}")
  -- Any other status line shows that the server is there, whatever its code.
  | _ => returnReady ()

def group (name : String) : Nntp π GroupResponse := do
  requireReady "GROUP"
  let resp ← request s!"GROUP {name}"
  -- `Ready` before the code is looked at; some of the refusals set the state again.
  setState .ready
  match resp.code with
  | 211 => Comp.ofExcept (parseGroup name resp.message)
  | 411 => Comp.fail (.noSuchGroup name)
  | 480 => failIn .error (.authRequired resp.message)
  | 481 | 482 => failIn .error (.auth s!"GROUP rejected ({resp.code}): {resp.message}")
  | 502 => failIn .error (.serviceUnavailable resp.message)
  | _ => failIn .error (.protocol s!"Unexpected GROUP response {resp.code}: {resp.message}")

def overviewFormat : Nntp π OverviewFormat := do
  requireReady "LIST OVERVIEW.FMT"
  let status ← request "LIST OVERVIEW.FMT"
  match status.code with
  | 215 => do
      let data ← orError (readMultilineBodyMaybeDecompress gz)
      -- A format that is not valid is an error of the caller, not of the connection.
      setState .ready
      Comp.ofExcept (Overview.parseOverviewFormat data)
  | 480 => failIn .error (.authRequired status.message)
  | 481 | 482 =>
      failIn .error (.auth s!"LIST OVERVIEW.FMT rejected ({status.code}): {status.message}")
  | 502 => failIn .error (.serviceUnavailable status.message)
  | _ =>
      failIn .error
        (.protocol s!"Unexpected LIST OVERVIEW.FMT response {status.code}: {status.message}")

def noNewsgroupSelected : NntpError := .noSuchGroup "No newsgroup selected (send GROUP first)"

def readBlockWithLimit (maxResponseBytes : Option Nat) : Nntp π Bytes :=
  match maxResponseBytes with
  | some maximum => readMultilineBodyMaybeDecompressBounded gz maximum
  | none => readMultilineBodyMaybeDecompress gz

def xoverLosslessWithLimit (start stop : Nat) (format : OverviewFormat)
    (maxResponseBytes : Option Nat) : Nntp π (BoundedResponse LosslessOverviewRows) := do
  requireReady "XOVER"
  let status ← request s!"XOVER {start}-{stop}"
  match status.code with
  | 224 => do
      let data ← orError (readBlockWithLimit gz maxResponseBytes)
      returnReady {
        responseBytes := data.length
        value := Overview.parseLosslessOverviewRows data format start stop }
  | 420 | 423 =>
      returnReady { value := { rows := [], defectiveRows := [] }, responseBytes := 0 }
  | 412 => failIn .ready noNewsgroupSelected
  | 481 | 482 => failIn .error (.auth s!"XOVER rejected ({status.code}): {status.message}")
  | 502 => failIn .error (.serviceUnavailable status.message)
  | _ => failIn .error (.protocol s!"Unexpected XOVER response {status.code}: {status.message}")

def xoverLossless (start stop : Nat) (format : OverviewFormat) :
    Nntp π LosslessOverviewRows :=
  (·.value) <$> xoverLosslessWithLimit gz start stop format none

def xoverLosslessBounded (start stop : Nat) (format : OverviewFormat)
    (maxResponseBytes : Nat) : Nntp π (BoundedResponse LosslessOverviewRows) :=
  if maxResponseBytes = 0 ∨ maxResponseBytes > 8 * 1024 * 1024 then
    Comp.fail (.protocol "XOVER response bound is invalid")
  else xoverLosslessWithLimit gz start stop format (some maxResponseBytes)

def xover (start stop : Nat) : Nntp π (List XoverEntry) := do
  requireReady "XOVER"
  let status ← request s!"XOVER {start}-{stop}"
  match status.code with
  | 224 => do
      let data ← orError (readMultilineBodyMaybeDecompress gz)
      returnReady (parseXoverData data)
  | 420 | 423 => returnReady []
  | 412 => failIn .ready noNewsgroupSelected
  | 481 | 482 => failIn .error (.auth s!"XOVER rejected ({status.code}): {status.message}")
  | 502 => failIn .error (.serviceUnavailable status.message)
  | _ => failIn .error (.protocol s!"Unexpected XOVER response {status.code}: {status.message}")

def xhdr (header : String) (range : ArticleRange) : Nntp π (List HeaderEntry) := do
  requireReady "XHDR"
  let arg := range.toCommandArg
  let status ← request s!"XHDR {header} {arg}"
  match status.code with
  | 221 => do
      let data ← orError (readMultilineBodyMaybeDecompress gz)
      returnReady (parseHeaderData data)
  | 420 | 423 => returnReady []
  | 412 => failIn .ready noNewsgroupSelected
  | 430 => failIn .ready (.articleNotFound arg)
  | 481 | 482 => failIn .error (.auth s!"XHDR rejected ({status.code}): {status.message}")
  | 502 => failIn .error (.serviceUnavailable status.message)
  | _ => failIn .error (.protocol s!"Unexpected XHDR response {status.code}: {status.message}")

def xpatWithLimit (header : String) (range : ArticleRange) (patterns : List String)
    (maxResponseBytes : Option Nat) : Nntp π (BoundedResponse (List HeaderEntry)) := do
  requireReady "XPAT"
  -- Nothing has been sent yet, so the connection stays `Ready`.
  if patterns.isEmpty then Comp.fail (.protocol "XPAT requires at least one pattern")
  else do
    let arg := range.toCommandArg
    let patternStr := " ".intercalate patterns
    let status ← request s!"XPAT {header} {arg} {patternStr}"
    match status.code with
    | 221 => do
        let data ← orError (readBlockWithLimit gz maxResponseBytes)
        returnReady { responseBytes := data.length, value := parseHeaderData data }
    | 420 | 423 => returnReady { value := [], responseBytes := 0 }
    | 412 => failIn .ready noNewsgroupSelected
    | 430 => failIn .ready (.articleNotFound arg)
    | 481 | 482 => failIn .error (.auth s!"XPAT rejected ({status.code}): {status.message}")
    | 502 => failIn .error (.serviceUnavailable status.message)
    | 500 | 501 =>
        failIn .ready (.unsupportedCommand s!"XPAT unsupported ({status.code}): {status.message}")
    | _ => failIn .error (.protocol s!"Unexpected XPAT response {status.code}: {status.message}")

def xpat (header : String) (range : ArticleRange) (patterns : List String) :
    Nntp π (List HeaderEntry) :=
  (·.value) <$> xpatWithLimit gz header range patterns none

def xpatBounded (header : String) (range : ArticleRange) (patterns : List String)
    (maxResponseBytes : Nat) : Nntp π (BoundedResponse (List HeaderEntry)) :=
  if maxResponseBytes = 0 ∨ maxResponseBytes > 8 * 1024 * 1024 then
    Comp.fail (.protocol "XPAT response bound is invalid")
  else xpatWithLimit gz header range patterns (some maxResponseBytes)

/-- The part of `fetch_body` that issues `BODY`. -/
def fetchBodyDirect (messageId : String) : Nntp π NntpResponse := do
  requireReady "BODY"
  let mid := normalizeMessageId messageId
  let status ← request s!"BODY {mid}"
  match status.code with
  | 222 => do
      let data ← orError (readMultilineBodyMaybeDecompress gz)
      returnReady { code := status.code, message := status.message, data := some data }
  | 430 => failIn .ready (.articleNotFound mid)
  | 412 | 420 | 423 => failIn .ready (.noArticleSelected status.message)
  | 480 => failIn .error (.authRequired status.message)
  | 481 | 482 => failIn .error (.auth s!"BODY rejected ({status.code}): {status.message}")
  | 502 => failIn .error (.serviceUnavailable status.message)
  -- `411` and `403` have no row here, unlike in `fetch_article`.
  | _ => failIn .error (.protocol s!"Unexpected BODY response {status.code}: {status.message}")

def fetchBody (messageId : String) : Nntp π NntpResponse := do
  let w ← Comp.get
  if !w.conn.capabilities.haveBody && w.conn.capabilities.haveArticle then do
    let resp ← fetchArticle gz messageId
    -- The article passes for the reply to a `BODY`, without its headers.
    return { resp with code := 222, data := resp.data.map stripArticleHeaders }
  else fetchBodyDirect gz messageId

/-- What `fetch_body_prefix` does with the connection once the prefix is read. -/
def retireUnlessComplete (result : BodyPrefixResponse) : Nntp π BodyPrefixResponse :=
  if result.complete then returnReady result
  else do
    -- The rest of the block is still to come, so the connection is of no more use.
    Comp.modify fun w =>
      { w with conn := { w.conn with transport := none, compressEnabled := false } }
    setState .disconnected
    return result

def fetchBodyPrefix (messageId : String) (maxBytes : Nat) : Nntp π BodyPrefixResponse := do
  let w ← Comp.get
  if maxBytes = 0 ∨ maxBytes > 256 * 1024 then
    Comp.fail (.protocol "BODY prefix request bound is invalid")
  else if w.conn.compressEnabled then
    Comp.fail (.unsupportedCommand "BODY prefix requires an uncompressed observation connection")
  else if !w.conn.capabilities.haveBody then
    Comp.fail (.unsupportedCommand "Server does not support BODY prefix observation")
  else do
    requireReady "BODY prefix"
    let mid := normalizeMessageId messageId
    let status ← request s!"BODY {mid}"
    match status.code with
    | 222 => do
        let result ← orError (readMultilineBodyPrefix maxBytes)
        retireUnlessComplete result
    | 430 => failIn .ready (.articleNotFound mid)
    | 412 | 420 | 423 => failIn .ready (.noArticleSelected status.message)
    | 403 => failIn .error (.permissionDenied status.message)
    | 480 => failIn .error (.authRequired status.message)
    | 481 | 482 =>
        failIn .error (.auth s!"BODY prefix rejected ({status.code}): {status.message}")
    | 500 | 501 => failIn .ready (.unsupportedCommand status.message)
    | 502 => failIn .error (.serviceUnavailable status.message)
    | _ =>
        failIn .error
          (.protocol s!"Unexpected BODY prefix response {status.code}: {status.message}")

def listActiveCommand : Option String → String
  | some pattern => s!"LIST ACTIVE {pattern}"
  | none => "LIST ACTIVE"

def listActive (wildmat : Option String) : Nntp π (List ListActiveEntry) := do
  requireReady "LIST ACTIVE"
  let status ← request (listActiveCommand wildmat)
  match status.code with
  | 215 => do
      let data ← orError (readMultilineBodyMaybeDecompress gz)
      returnReady (parseListActiveData data)
  | 481 | 482 =>
      failIn .error (.auth s!"LIST ACTIVE rejected ({status.code}): {status.message}")
  | 502 => failIn .error (.serviceUnavailable status.message)
  | _ =>
      failIn .error
        (.protocol s!"Unexpected LIST ACTIVE response {status.code}: {status.message}")

/-- `self.transport.as_mut().ok_or(..)?`, before a loop of writes. -/
def requireTransport : Nntp π Unit := do
  let w ← Comp.get
  if w.conn.transport.isNone then Comp.fail (.connection "Not connected") else pure ()

/-- The lines `post_article` writes, one write each. -/
def postLines : List String → Nntp π Unit
  | [] => pure ()
  | line :: rest => do
      if line.toList.head? = some '.' then
        orError (transportWriteAll (Text.utf8 s!".{line}\r\n"))
      else orError (transportWriteAll (Text.utf8 s!"{line}\r\n"))
      postLines rest

/-- `POST` around the lines of the article, which `writeLines` puts on the wire. -/
def postWith (writeLines : Nntp π Unit) : Nntp π NntpResponse := do
  requireReady "POST"
  let status ← request "POST"
  match status.code with
  | 340 => do
      requireTransport
      writeLines
      orError (transportWriteAll [dot, cr, lf])
      -- The second status line is the result, whatever its code.
      let result ← orError readResponseLine
      returnReady result
  | 440 => returnReady status
  | _ => failIn .error (.protocol s!"Unexpected POST response {status.code}: {status.message}")

def postArticle (article : String) : Nntp π NntpResponse :=
  postWith (postLines (Text.lines article))

/-- `position(|&b| b == b'\n')` from `start` on. -/
def newlineFrom (article : Bytes) (start : Nat) : Option Nat :=
  ((article.drop start).findIdx? (· = lf)).map (start + ·)

/-- The line loop of `post_article_bytes`. An iteration moves `start` forward,
so the length of the article bounds their number. -/
def postBytesLoop (article : Bytes) : Nat → Nat → Nntp π Unit
  | 0, _ => pure ()
  | fuel + 1, start =>
      if start < article.length then do
        let nlPos := newlineFrom article start
        let lineEnd := nlPos.getD article.length
        -- The CR goes also where the line is the last one and no LF follows.
        let line := Overview.stripCr ((article.take lineEnd).drop start)
        if line.head? = some dot then orError (transportWriteAll [dot]) else pure ()
        orError (transportWriteAll line)
        orError (transportWriteAll crlf)
        postBytesLoop article fuel ((nlPos.map (· + 1)).getD article.length)
      else pure ()

def postArticleBytes (article : Bytes) : Nntp π NntpResponse :=
  postWith (postBytesLoop article article.length 0)

/-- `quit`: say goodbye as far as the peer lets us, and drop the transport. -/
def quit : Nntp π Unit := do
  let w ← Comp.get
  if w.conn.transport.isSome then do
    -- Errors are passed over; the transport goes in any case.
    let sent ← (sendCommand "QUIT").attempt
    match sent with
    | .error _ => pure ()
    | .ok _ => do
        let _ ← readResponseLine.attempt
    let closed ← onTransport Transport.flush
    if closed = .dropped then Comp.drop else pure ()
  else pure ()
  Comp.modify fun w => { w with conn := { w.conn with transport := none } }
  setState .disconnected

end Commands

end NzbNntp
