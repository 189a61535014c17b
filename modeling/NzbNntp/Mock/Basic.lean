import NzbNntp.Connection.Commands
import NzbNntp.Library.SlidingWindow

/-!
The mock server of `testutil.rs`, the other party of the crate's own sessions. A session is
what `handle_connection` keeps between two bytes of its client: it reads lines, answers each
command with a list of writes, and every write goes through the fault injection. Timing
(`response_delay`) is left out, and a write reaches the client whole.
-/

namespace NzbNntp

namespace Text

/-- `char::to_uppercase`. Of the Unicode tables it is known what they say of ASCII. -/
structure UppercaseTable where
  upper : Char → List Char
  ascii : ∀ c : Char, c.toNat < 128 → upper c = [c.toUpper]

def UppercaseTable.plain : UppercaseTable := ⟨fun c => [c.toUpper], fun _ _ => rfl⟩

def toUppercase (table : UppercaseTable) (s : String) : String :=
  .ofList (s.toList.flatMap table.upper)

/-- `str::splitn(n, c)` on characters -/
def splitnChars (c : Char) : Nat → List Char → List (List Char)
  | 0, _ => []
  | 1, cs => [cs]
  | n + 2, cs =>
      match splitOnce c cs with
      | some (piece, rest) => piece :: splitnChars c (n + 1) rest
      | none => [cs]

def splitn (n : Nat) (c : Char) (s : String) : List String := (splitnChars c n s.toList).map .ofList

end Text

/-! ### Configuration -/

/-- The attempts to log in that are behind an `Arc`, and the bounds on them. -/
structure AuthRateLimit where
  maxAttempts : UInt32
  window : Nat
  state : List Nat := []
  deriving DecidableEq

/-- `check_and_record` at the instant `now` -/
def AuthRateLimit.checkAndRecord (limit : AuthRateLimit) (now : Nat) : Bool × AuthRateLimit :=
  let state := (limit.state.dropWhile fun front => now - front > limit.window) ++ [now]
  (decide (limit.maxAttempts < UInt32.ofNat state.length), { limit with state })

structure MockFaults where
  silentCloseAfterBytes : Option Nat := none
  hangAfterCommand : Option String := none
  closeAfterNCommands : Option Nat := none

/-- `MockConfig`; its maps are lists of entries with distinct keys. What is behind an `Arc`
is in `MockState`. -/
structure MockConfig where
  uppercase : Text.UppercaseTable
  welcomeCode : UInt16 := 200
  welcomeMessage : String := "Mock NNTP Ready"
  authRequired : Bool := false
  validCredentials : Option (String × String) := none
  failAuth : Bool := false
  serviceUnavailable : Bool := false
  groups : List (String × UInt64 × UInt64 × UInt64) := []
  articles : List (String × Bytes) := []
  heads : List (Nat × Bytes) := []
  xoverEntries : List String := []
  xoverEntriesByRange : List (String × List String) := []
  xoverRawEntries : List Bytes := []
  xover423OutsideGroup : Bool := false
  xhdrEntries : List String := []
  xpatEntries : List String := []
  xpatEntriesByRequest : List (String × List String) := []
  xpatUnsupported : Bool := false
  listActiveEntries : List String := []
  overviewFormatEntries : List String :=
    ["Subject:", "From:", "Date:", "Message-ID:", "References:", ":bytes", ":lines"]
  postNotPermitted : Bool := false
  articleResponseOverrides : List (String × UInt16) := []
  capabilitiesUnsupported : Bool := false
  capabilitiesModeReader : Bool := false
  faults : MockFaults := {}

/-- The variables of `handle_connection` that the commands read and set, and what it shares
with other sessions. `instants` are the readings of the clock to come. -/
structure MockState where
  authenticated : Bool
  selectedGroup : Option String := none
  postedArticles : Option (List Bytes) := none
  articleResponseSequences : Option (List (String × List (UInt16 × String))) := none
  authRateLimit : Option AuthRateLimit := none
  instants : List Nat := []

inductive AfterCommand where
  /-- the command counts, and the next one is read -/
  | counts
  /-- `POST` has been accepted, and the article is read first -/
  | reads
  /-- the loop is left -/
  | quits

structure MockAnswer where
  state : MockState
  writes : List Bytes
  after : AfterCommand := .counts

def MockState.received (state : MockState) (article : Bytes) : MockAnswer where
  state := { state with postedArticles := state.postedArticles.map (· ++ [article]) }
  writes := [Text.utf8 "240 Article received OK\r\n"]

namespace MockConfig

variable (config : MockConfig)

def reply (state : MockState) (text : String) : MockAnswer := { state, writes := [Text.utf8 text] }

/-- The guard of the commands that need a login. -/
def authorized (state : MockState) (answer : MockAnswer) : MockAnswer :=
  if !state.authenticated then reply state "480 Authentication required\r\n" else answer

/-- Lines that go out as they are, each closed by CRLF. -/
def entryWrites (entries : List Bytes) : List Bytes := entries.flatMap fun entry => [entry, crlf]

def terminator : Bytes := [dot, cr, lf]

def listing (state : MockState) (status : String) (entries : List Bytes) : MockAnswer :=
  { state, writes := Text.utf8 status :: entryWrites entries ++ [terminator] }

def onCapabilities (state : MockState) : MockAnswer :=
  if config.capabilitiesUnsupported then reply state "500 Unknown command\r\n"
  else
    let offers := if config.capabilitiesModeReader then ["MODE-READER\r\n", "IHAVE\r\n"]
      else ["READER\r\n", "POST\r\n", "HDR\r\n", "OVER MSGID\r\n",
        "LIST ACTIVE NEWSGROUPS OVERVIEW.FMT\r\n"]
    { state
      writes := (["101 Capability list:\r\n", "VERSION 2\r\n"] ++ offers ++
        ["IMPLEMENTATION nzb-nntp-testutil 1.0\r\n", ".\r\n"]).map Text.utf8 }

/-- `parts.get(1).map(|s| s.to_uppercase()).unwrap_or_default()` -/
def subcommand (parts : List String) : String :=
  ((parts[1]?).map (Text.toUppercase config.uppercase)).getD ""

def onMode (state : MockState) (parts : List String) : MockAnswer :=
  let sub := config.subcommand parts
  if sub = "READER" then reply state "200 Reader mode, posting allowed\r\n"
  else reply state s!"501 Unknown MODE subcommand: {sub}\r\n"

/-- `auth_rate_limit.as_ref().map(|r| r.check_and_record()).unwrap_or(false)` -/
def rateLimited (state : MockState) : Bool × MockState :=
  match state.authRateLimit with
  | none => (false, state)
  | some limit =>
      let checked := limit.checkAndRecord (state.instants.headD 0)
      (checked.1, { state with
        authRateLimit := some checked.2
        instants := state.instants.tail })

def onAuthinfo (state : MockState) (parts : List String) : MockAnswer :=
  let sub := config.subcommand parts
  if sub = "USER" then
    if config.failAuth then reply state "482 Authentication rejected\r\n"
    else reply state "381 Password required\r\n"
  else if sub = "PASS" then
    let limited := rateLimited state
    let state := limited.2
    let accepted := reply { state with authenticated := true } "281 Authentication accepted\r\n"
    if limited.1 then reply state "481 Authentication rate-limited\r\n"
    else if config.failAuth then reply state "481 Authentication failed\r\n"
    else
      match config.validCredentials with
      | some (_, validPass) =>
          -- the user name is not looked at
          if (parts[2]?).getD "" = validPass then accepted
          else reply state "481 Authentication failed\r\n"
      | none => accepted
  else reply state "500 Unknown AUTHINFO subcommand\r\n"

def onGroup (state : MockState) (parts : List String) : MockAnswer :=
  authorized state <|
    let name := (parts[1]?).getD ""
    match config.groups.lookup name with
    | some (count, first, last) =>
        reply { state with selectedGroup := some name }
          s!"211 {count.toNat} {first.toNat} {last.toNat} {name}\r\n"
    | none => reply state "411 No such group\r\n"

def xoverRangeOutsideGroup (range : Option String) (group : Option (UInt64 × UInt64 × UInt64)) :
    Bool :=
  match range, group with
  | some range, some (_, first, last) =>
      let bounds := Text.splitn 2 '-' range
      match (bounds[0]?).bind Text.parseU64, (bounds[1]?).bind Text.parseU64 with
      | some start, some stop => stop < first.toNat || start > last.toNat
      | _, _ => false
  | _, _ => false

/-- The entries for this argument, or else those for any. -/
def entriesFor (byArgument : List (String × List String)) (entries : List String)
    (argument : Option String) : List String :=
  if byArgument.isEmpty then entries else (argument.bind fun a => byArgument.lookup a).getD entries

def onXover (state : MockState) (parts : List String) : MockAnswer :=
  let entries := entriesFor config.xoverEntriesByRange config.xoverEntries parts[1]?
  authorized state <|
    match state.selectedGroup with
    | none => reply state "412 No newsgroup selected\r\n"
    | some name =>
        if config.xover423OutsideGroup &&
            xoverRangeOutsideGroup parts[1]? (config.groups.lookup name) then
          reply state "423 No articles in that range\r\n"
        else if entries.isEmpty && config.xoverRawEntries.isEmpty then
          reply state "420 No articles in range\r\n"
        else
          listing state "224 Overview data follows\r\n"
            (config.xoverRawEntries ++ entries.map Text.utf8)

def onHead (state : MockState) (parts : List String) : MockAnswer :=
  authorized state <|
    if state.selectedGroup.isNone then reply state "412 No newsgroup selected\r\n"
    else
      let found := (parts[1]?).bind Text.parseU64 |>.bind fun n =>
        (config.heads.lookup n).map fun headers => (n, headers)
      match found with
      | some (articleNumber, headers) =>
          { state
            writes := [Text.utf8 s!"221 {articleNumber} article headers follow\r\n", headers] ++
              (if headers.getLast? = some lf then [] else [crlf]) ++ [terminator] }
      | none => reply state "423 No article with that number\r\n"

def onXhdr (state : MockState) : MockAnswer :=
  authorized state <|
    if config.xhdrEntries.isEmpty then reply state "420 No articles in range\r\n"
    else listing state "221 Header data follows\r\n" (config.xhdrEntries.map Text.utf8)

def onXpat (state : MockState) (parts : List String) : MockAnswer :=
  let entries := entriesFor config.xpatEntriesByRequest config.xpatEntries parts[2]?
  authorized state <|
    if config.xpatUnsupported then reply state "500 XPAT unsupported\r\n"
    else if entries.isEmpty then reply state "420 No articles matched\r\n"
    else listing state "221 Header data follows\r\n" (entries.map Text.utf8)

def onList (state : MockState) (parts : List String) : MockAnswer :=
  authorized state <|
    if (parts[1]?).any (Text.eqIgnoreAsciiCase · "OVERVIEW.FMT") then
      listing state "215 Order of fields in overview database\r\n"
        (config.overviewFormatEntries.map Text.utf8)
    else
      listing state "215 List of newsgroups follows\r\n" (config.listActiveEntries.map Text.utf8)

/-- The loop of `write_multiline_body`. An iteration moves `start` forward, so the length of
the data bounds their number. -/
def bodyWrites (data : Bytes) : Nat → Nat → List Bytes
  | 0, _ => []
  | fuel + 1, start =>
      if start < data.length then
        let nlPos := newlineFrom data start
        let lineEnd := nlPos.getD data.length
        let line := Overview.stripCr ((data.take lineEnd).drop start)
        (if line.head? = some dot then [[dot]] else []) ++ [line, crlf] ++
          bodyWrites data fuel ((nlPos.map (· + 1)).getD data.length)
      else []

def writeMultilineBody (data : Bytes) : List Bytes :=
  let lines := bodyWrites data data.length 0
  -- an article without a line is sent as a blank one
  lines ++ (if lines.isEmpty then [crlf] else []) ++ [terminator]

/-- `parts.get(1).unwrap_or(&"").trim_matches(|c| c == '<' || c == '>')` -/
def requestedId (parts : List String) : String := Text.trimAngles ((parts[1]?).getD "")

/-- What is said of an article, when no one-shot response is there for it. -/
def articleAnswer (state : MockState) (mid : String) (found : Bytes → MockAnswer) : MockAnswer :=
  match config.articleResponseOverrides.lookup mid with
  | some code => reply state s!"{code.toNat} <{mid}>\r\n"
  | none =>
      match config.articles.lookup mid with
      | some data => found data
      | none => reply state s!"430 No article: <{mid}>\r\n"

/-- Take the next response off the queue of this id, if it has one. -/
def popResponse (mid : String) :
    List (String × List (UInt16 × String)) →
      Option ((UInt16 × String) × List (String × List (UInt16 × String)))
  | [] => none
  | (key, queue) :: rest =>
      if key = mid then
        match queue with
        | [] => none
        | response :: queue => some (response, (key, queue) :: rest)
      else (popResponse mid rest).map fun r => (r.1, (key, queue) :: r.2)

def onArticle (state : MockState) (parts : List String) : MockAnswer :=
  authorized state <|
    let mid := requestedId parts
    match state.articleResponseSequences.bind (popResponse mid) with
    | some ((code, message), sequences) =>
        reply { state with articleResponseSequences := some sequences }
          s!"{code.toNat} {message}\r\n"
    | none => config.articleAnswer state mid fun data =>
        { state, writes := Text.utf8 s!"220 0 <{mid}>\r\n" :: writeMultilineBody data }

def onBody (state : MockState) (parts : List String) : MockAnswer :=
  authorized state <|
    let mid := requestedId parts
    config.articleAnswer state mid fun data =>
      { state, writes := Text.utf8 s!"222 0 <{mid}>\r\n" :: writeMultilineBody data }

def onStat (state : MockState) (parts : List String) : MockAnswer :=
  authorized state <|
    let mid := requestedId parts
    config.articleAnswer state mid fun _ => reply state s!"223 0 <{mid}>\r\n"

def onPost (state : MockState) : MockAnswer :=
  authorized state <|
    if config.postNotPermitted then reply state "440 Posting not permitted\r\n"
    else
      { state, writes := [Text.utf8 "340 Send article to be posted\r\n"], after := .reads }

/-- The `match` on the verb of a command. -/
def answer (state : MockState) (cmd : String) (parts : List String) : MockAnswer :=
  if cmd = "QUIT" then { reply state "205 Goodbye\r\n" with after := .quits }
  else if cmd = "CAPABILITIES" then config.onCapabilities state
  else if cmd = "MODE" then config.onMode state parts
  else if cmd = "AUTHINFO" then config.onAuthinfo state parts
  else if cmd = "GROUP" then config.onGroup state parts
  else if cmd = "XOVER" then config.onXover state parts
  else if cmd = "HEAD" then config.onHead state parts
  else if cmd = "XHDR" then config.onXhdr state
  else if cmd = "XPAT" then config.onXpat state parts
  else if cmd = "LIST" then config.onList state parts
  else if cmd = "ARTICLE" then config.onArticle state parts
  else if cmd = "BODY" then config.onBody state parts
  else if cmd = "STAT" then config.onStat state parts
  else if cmd = "POST" then config.onPost state
  else reply state s!"500 Unknown command: {cmd}\r\n"

def verb (parts : List String) : String :=
  Text.toUppercase config.uppercase (parts.headD "")

end MockConfig

def oneArticleMock : MockConfig where
  uppercase := .plain
  authRequired := true
  validCredentials := some ("reader", "secret")
  articles := [("a@b", Text.utf8 "Subject: a\n\n.b")]

/-! ### Sessions -/

/-- `if line.ends_with(b"\n") { line.pop(); }` -/
def stripLf (line : Bytes) : Bytes := if line.getLast? = some lf then line.dropLast else line

theorem stripLf_concat (text : Bytes) : stripLf (text ++ [lf]) = text := by
  simp [stripLf]

/-- `handle_connection` between two bytes: `line` is what `read_line` has of the next line,
and `posting` what `read_posted_article` has of its article. -/
structure MockSession where
  config : MockConfig
  state : MockState
  bytesWritten : Nat := 0
  hung : Bool := false
  commandsProcessed : Nat := 0
  line : Bytes := []
  posting : Option Bytes := none
  closed : Bool := false

namespace MockSession

/-- `ConnState::write`: what is sent, and whether the connection goes on. -/
def write (session : MockSession) (data : Bytes) : MockSession × Bytes × Bool :=
  if session.hung then (session, [], true)
  else
    let sent (part : Bytes) := { session with bytesWritten := session.bytesWritten + part.length }
    match session.config.faults.silentCloseAfterBytes with
    | none => (sent data, data, true)
    | some limit =>
        if limit ≤ session.bytesWritten then (session, [], false)
        else if limit < session.bytesWritten + data.length then
          let part := data.take (limit - session.bytesWritten)
          (sent part, part, false)
        else (sent data, data, true)

/-- Writes one after the other, up to the one that closes the connection. -/
def writeAll (session : MockSession) : List Bytes → MockSession × Bytes × Bool
  | [] => (session, [], true)
  | data :: rest =>
      match session.write data with
      | (session, sent, false) => ({ session with closed := true }, sent, false)
      | (session, sent, true) =>
          let later := session.writeAll rest
          (later.1, sent ++ later.2.1, later.2.2)

/-- The end of the loop's body: `close_after_n_commands`. -/
def countCommand (session : MockSession) : MockSession :=
  let processed := session.commandsProcessed + 1
  { session with
    commandsProcessed := processed
    closed := session.config.faults.closeAfterNCommands.any (processed ≥ ·) }

def respond (session : MockSession) (answer : MockAnswer) : MockSession × Bytes :=
  match { session with state := answer.state }.writeAll answer.writes with
  | (session, sent, false) => (session, sent)
  | (session, sent, true) =>
      match answer.after with
      | .counts => (session.countCommand, sent)
      | .reads => ({ session with posting := some [] }, sent)
      | .quits => ({ session with closed := true }, sent)

/-- `hang_after_command`: from this verb on the session says nothing. -/
def hangOn (session : MockSession) (cmd : String) : MockSession :=
  { session with
    hung := session.hung || session.config.faults.hangAfterCommand.any fun verb =>
      cmd = Text.toUppercase session.config.uppercase verb }

/-- The command of a line that is not blank. -/
def command (session : MockSession) (trimmed : String) : MockSession × Bytes :=
  let parts := Text.splitn 3 ' ' trimmed
  let cmd := session.config.verb parts
  (session.hangOn cmd).respond (session.config.answer session.state cmd parts)

/-- `read_line` has returned `line`. -/
def lineRead (session : MockSession) (line : Bytes) : MockSession × Bytes :=
  match Text.fromUtf8 line with
  | none => ({ session with closed := true }, [])
  | some text =>
      let trimmed := Text.trim text
      if trimmed.isEmpty then (session, []) else session.command trimmed

/-- `read_until` has returned a `line` of a posted article. -/
def articleLineRead (session : MockSession) (article line : Bytes) : MockSession × Bytes :=
  let text := Overview.stripCr (stripLf line)
  if text = [dot] then
    let session := { session with posting := none }
    session.respond (session.state.received article)
  else ({ session with posting := some (article ++ unstuff text ++ crlf) }, [])

def lineEnded (session : MockSession) (line : Bytes) : MockSession × Bytes :=
  match session.posting with
  | some article => session.articleLineRead article line
  | none => session.lineRead line

def hear (session : MockSession) (b : UInt8) : MockSession × Bytes :=
  if session.closed then (session, [])
  else if b ≠ lf then ({ session with line := session.line ++ [b] }, [])
  else { session with line := [] }.lineEnded (session.line ++ [b])

instance : Peer MockSession where hear := hear

/-- The client ends its stream. What has come in of a line is still read as one, and the read
after it ends the session. -/
def finish (session : MockSession) : MockSession × Bytes :=
  if session.closed || session.line.isEmpty then ({ session with closed := true }, [])
  else
    let last := { session with line := [] }.lineEnded session.line
    ({ last.1 with closed := true }, last.2)

/-- The welcome banner, and what its write makes of the session. -/
def greet (session : MockSession) : MockSession × Bytes :=
  let config := session.config
  let welcome := session.write (Text.utf8 s!"{config.welcomeCode.toNat} {config.welcomeMessage}\r\n")
  ({ welcome.1 with closed := !welcome.2.2 }, welcome.2.1)

/-- `handle_connection` up to its first read: the session, and what it has said. -/
def start (config : MockConfig) (state : MockState) : MockSession × Bytes :=
  let session : MockSession :=
    { config, state := { state with authenticated := !config.authRequired } }
  if config.serviceUnavailable then
    ({ session with closed := true }, Text.utf8 "502 Service unavailable\r\n")
  else session.greet

end MockSession

end NzbNntp
