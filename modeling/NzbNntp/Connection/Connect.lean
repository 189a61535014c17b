import NzbNntp.Config
import NzbNntp.Connection.Commands

/-!
`NntpConnection::connect`: dial, optional TLS, greeting, authentication and the
three exchanges that negotiate features. What lies outside the crate (name
resolution, TCP, SOCKS5 and TLS) enters as a `Dial`.
-/

namespace NzbNntp

open Interruptible

/-- What dialling a server gives: the outcome of the TCP or SOCKS5 connect, of
the TLS set-up and handshake, and the stream of the new transport. -/
structure Dial (π : Type) where
  tcp : Except String Unit
  serverName : Except String Unit
  handshake : Except String Unit
  peer : π
  greeting : Bytes

section Connect

variable {π : Type} [Peer π]

def awaitDial : Nntp π Unit := fun w =>
  match w.nextEvent with
  | .dropped _ => .dropped w.tick
  | _ => .ok () w.tick

def proxyUrl (config : ServerConfig) : Option String :=
  (config.proxyUrl.map Text.trim).filter (· ≠ "")

def connectTcp (dial : Dial π) (message : String → String) : Nntp π Unit := do
  awaitDial
  match dial.tcp with
  | .error e => failIn .error (.connection (message e))
  | .ok _ => pure ()

/-- Step 1: the TCP stream, through a SOCKS5 proxy if one is configured. -/
def openStream (config : ServerConfig) (dial : Dial π) : Nntp π Unit := do
  let addr := s!"{config.host}:{config.port}"
  match proxyUrl config with
  | some url =>
      match parseSocks5Url url with
      | .error e => failIn .error (.connection s!"Invalid proxy URL: {e}")
      | .ok _ => connectTcp dial fun e => s!"SOCKS5 connect to {addr} via proxy: {e}"
  | none => connectTcp dial fun e => s!"TCP connect to {addr}: {e}"

/-- `build_tls_config`, as far as it can fail. -/
def buildTlsConfig (config : ServerConfig) : Nntp π Unit :=
  match config.trustedFingerprint with
  | none => pure ()
  | some hex =>
      if (parseFingerprint hex).isNone then
        Comp.fail (.connection s!"invalid trusted_fingerprint: {hex}")
      else pure ()

def tlsHandshake (config : ServerConfig) (dial : Dial π) : Nntp π Unit := do
  buildTlsConfig config
  match dial.serverName with
  | .error e => Comp.fail (.tls s!"Invalid server name '{config.host}': {e}")
  | .ok _ => pure ()
  awaitDial
  match dial.handshake with
  | .error e => failIn .error (.tls s!"TLS handshake with {config.host}:{config.port}: {e}")
  | .ok _ => pure ()

/-- Step 2: the transport, over TLS if configured. -/
def openTransport (config : ServerConfig) (dial : Dial π) : Nntp π Unit := do
  if config.ssl then tlsHandshake config dial else pure ()
  Comp.modify
    (World.setTransport { tls := config.ssl, peer := dial.peer, unread := dial.greeting })

/-- Step 3: the welcome banner. -/
def readWelcome : Nntp π Unit := do
  let welcome ← readResponseLine
  match welcome.code with
  | 200 | 201 => pure ()
  | 502 => failIn .error (.serviceUnavailable welcome.message)
  | _ =>
      failIn .error (.protocol s!"Unexpected welcome code {welcome.code}: {welcome.message}")

def userCommand (username : String) : String := s!"AUTHINFO USER {username}"

def passCommand (password : String) : String := s!"AUTHINFO PASS {password}"

/-- The second half of `authenticate`, where the server asks for the password. -/
def sendPassword (config : ServerConfig) : Nntp π Unit :=
  match config.password with
  -- A bare error: the state stays `Authenticating`.
  | none => Comp.fail (.auth "Server requires password but none configured")
  | some password => do
      sendCommand (passCommand password)
      let resp ← readResponseLine
      match resp.code with
      | 281 => setState .ready
      | 481 | 482 => failIn .error (.auth s!"PASS rejected ({resp.code}): {resp.message}")
      | 502 => failIn .error (.serviceUnavailable resp.message)
      | _ => failIn .error (.protocol s!"Unexpected PASS response {resp.code}: {resp.message}")

def authenticate (config : ServerConfig) : Nntp π Unit := do
  setState .authenticating
  match config.username with
  | none => Comp.fail (.auth "No username configured")
  | some username => do
      sendCommand (userCommand username)
      let resp ← readResponseLine
      match resp.code with
      | 281 => setState .ready
      | 381 | 480 => sendPassword config
      | 481 | 482 => failIn .error (.auth s!"USER rejected ({resp.code}): {resp.message}")
      | 502 => failIn .error (.serviceUnavailable resp.message)
      | _ => failIn .error (.protocol s!"Unexpected USER response {resp.code}: {resp.message}")

def setCapabilities (caps : NntpCapabilities) : Nntp π Unit :=
  Comp.modify fun w => { w with conn := { w.conn with capabilities := caps } }

/-- What `query_capabilities` makes of a probed list: one without any content
command is taken to offer them all. -/
def assumeContentCommands (caps : NntpCapabilities) : NntpCapabilities :=
  if !caps.haveBody && !caps.haveStat && !caps.haveArticle && !caps.haveHead then
    caps.withContentCommands true
  else caps

theorem hasContent_assumeContentCommands (body : Bytes) :
    (assumeContentCommands (.parse body)).HasContent := by
  obtain ⟨available, huniform⟩ := NntpCapabilities.derive_uniform
    ((Text.lines ((Text.fromUtf8 body).getD "")).foldl .parseLine { probed := true })
  rw [NntpCapabilities.parse, ← huniform]
  cases available with
  | false => exact NntpCapabilities.hasContent_withContentCommands _
  | true => exact NntpCapabilities.hasContent_withContentCommands _

def queryCapabilities : Nntp π Unit := do
  requireReady "query CAPABILITIES"
  sendCommand "CAPABILITIES"
  let resp ← readResponseLine
  match resp.code with
  | 101 => do
      let body ← readMultilineBody
      setCapabilities (assumeContentCommands (.parse body))
  | _ => setCapabilities .defaultAssumed

def enterReaderMode : Nntp π Unit := do
  requireReady "MODE READER"
  sendCommand "MODE READER"
  let resp ← readResponseLine
  match resp.code with
  | 200 | 201 => do
      let w ← Comp.get
      -- After the switch the server is taken to offer all content commands.
      setCapabilities { w.conn.capabilities.withContentCommands true with reader := true }
  | _ =>
      Comp.fail (.protocol s!"Unexpected MODE READER response {resp.code}: {resp.message}")

def supportsCompress (data : Bytes) : Bool :=
  (Text.lines (Text.fromUtf8Lossy data)).any fun line =>
    Text.eqIgnoreAsciiCase (Text.trim line) "XFEATURE COMPRESS GZIP"

def negotiateCompression : Nntp π Unit := do
  sendCommand "LIST EXTENSIONS"
  let resp ← readResponseLine
  if resp.code = 202 then do
    let data ← readMultilineBody
    if supportsCompress data then do
      sendCommand "XFEATURE COMPRESS GZIP"
      let resp ← readResponseLine
      -- Only the confirmation turns the flag on; any other reply leaves it as it was.
      if resp.code = 290 then
        Comp.modify fun w => { w with conn := { w.conn with compressEnabled := true } }
      else pure ()
    else pure ()
  else pure ()

/-- Steps 1 to 4: a session, authenticated if credentials are configured. -/
def establish (config : ServerConfig) (dial : Dial π) : Nntp π Unit := do
  setState .connecting
  openStream config dial
  openTransport config dial
  readWelcome
  if config.username.isSome then authenticate config else setState .ready

/-- Step 5. An error is logged, and the defaults are assumed. -/
def probeCapabilities : Nntp π Unit := do
  match ← queryCapabilities.attempt with
  | .ok _ => pure ()
  | .error _ => setCapabilities .defaultAssumed

/-- Step 5b. An error is logged. -/
def switchToReaderMode : Nntp π Unit := do
  let w ← Comp.get
  if w.conn.capabilities.modeReaderRequired && !w.conn.capabilities.reader then do
    let _ ← enterReaderMode.attempt
  else pure ()

/-- Step 6. An error is logged. -/
def compressIfConfigured (config : ServerConfig) : Nntp π Unit :=
  if config.compress then do
    let _ ← negotiateCompression.attempt
  else pure ()

def negotiate (config : ServerConfig) : Nntp π Unit := do
  probeCapabilities
  switchToReaderMode
  compressIfConfigured config

def connectInner (config : ServerConfig) (dial : Dial π) : Nntp π Unit := do
  establish config dial
  negotiate config

/-- `connect`: `connect_inner` under a time limit for the whole of it. A wait
of the inner future that is given up has either met that limit, which is what
the next event says, or lost its caller. -/
def connect (config : ServerConfig) (dial : Dial π) : Nntp π Unit := fun w =>
  match connectInner config dial w with
  | .dropped w' =>
      match w'.nextEvent with
      | .elapsed _ =>
          .err
            (.timeout (s!"connect to {config.host}:{config.port} did not complete within " ++
              s!"{config.connectTimeoutSecs}s"))
            (w'.tick.setState .error)
      | _ => .dropped w'
  | o => o

end Connect

end NzbNntp
