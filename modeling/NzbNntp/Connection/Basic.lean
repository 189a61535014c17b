import NzbNntp.Library.Interruptible
import NzbNntp.Capabilities
import NzbNntp.Overview
import NzbNntp.Transport

/-!
The connection record of `connection.rs`, its state machine's states, and the
operations every command is made of: writing a command line and reading a
status line.
-/

namespace NzbNntp

open Interruptible

/-- `READ_LINE_TIMEOUT`, in seconds -/
abbrev readLineTimeout : Nat := 60
/-- `READ_BODY_LINE_TIMEOUT`, in seconds -/
abbrev readBodyLineTimeout : Nat := 20
/-- `WRITE_TIMEOUT`, in seconds -/
abbrev defaultWriteTimeout : Nat := readLineTimeout

structure NntpResponse where
  code : Nat
  message : String
  data : Option Bytes := none
  deriving DecidableEq

structure BodyPrefixResponse where
  data : Bytes
  complete : Bool
  deriving DecidableEq

structure GroupResponse where
  count : Nat
  first : Nat
  last : Nat
  name : String
  deriving DecidableEq

structure XoverEntry where
  articleNum : Nat
  subject : String
  from_ : String
  date : String
  messageId : String
  references : String
  bytes : Nat
  lines : Nat
  deriving DecidableEq

structure HeaderEntry where
  articleNum : Nat
  value : String
  deriving DecidableEq

structure ListActiveEntry where
  name : String
  high : Nat
  low : Nat
  status : String
  deriving DecidableEq

structure BoundedResponse (α : Type) where
  value : α
  responseBytes : Nat

inductive ConnectionState where
  | disconnected
  | connecting
  | authenticating
  | ready
  | busy
  | error
  deriving DecidableEq

/-- `Debug for ConnectionState` -/
def ConnectionState.debug : ConnectionState → String
  | .disconnected => "Disconnected"
  | .connecting => "Connecting"
  | .authenticating => "Authenticating"
  | .ready => "Ready"
  | .busy => "Busy"
  | .error => "Error"

structure NntpConnection (π : Type) where
  serverId : String
  state : ConnectionState := .disconnected
  transport : Option (Transport π) := none
  compressEnabled : Bool := false
  capabilities : NntpCapabilities := .defaultAssumed
  lineScratch : Bytes := []
  bodyPool : List Bytes := []
  writeTimeout : Nat := defaultWriteTimeout

/-- A connection and the events that await its next I/O operations. Where the
list has run out, operations complete. -/
structure World (π : Type) where
  conn : NntpConnection π
  events : List IoEvent := []

abbrev Nntp (π : Type) : Type → Type := Comp NntpError (World π)

namespace NntpConnection

variable {π : Type}

def new (serverId : String) : NntpConnection π := { serverId }

def isConnected (c : NntpConnection π) : Bool :=
  c.transport.isSome && c.state ≠ .disconnected

def isHealthy (c : NntpConnection π) : Bool := c.state = .ready && c.isConnected

def disableCompression (c : NntpConnection π) : NntpConnection π :=
  { c with compressEnabled := false }

def releaseBodyBuffer (c : NntpConnection π) (_buf : Bytes) (capacity : Nat) : NntpConnection π :=
  if capacity ≤ 4 * 1024 * 1024 ∧ c.bodyPool.length < 8 then
    { c with bodyPool := [] :: c.bodyPool }
  else c

end NntpConnection

namespace World

variable {π : Type}

def nextEvent (w : World π) : IoEvent := w.events.headD .ready

def setState (state : ConnectionState) (w : World π) : World π :=
  { w with conn := { w.conn with state } }

def setTransport (t : Transport π) (w : World π) : World π :=
  { w with conn := { w.conn with transport := some t } }

def setLineScratch (line : Bytes) (w : World π) : World π :=
  { w with conn := { w.conn with lineScratch := line } }

def tick (w : World π) : World π := { w with events := w.events.tail }

@[simp] theorem setState_state (s : ConnectionState) (w : World π) :
    (w.setState s).conn.state = s := rfl
@[simp] theorem setState_transport (s : ConnectionState) (w : World π) :
    (w.setState s).conn.transport = w.conn.transport := rfl
@[simp] theorem setState_events (s : ConnectionState) (w : World π) :
    (w.setState s).events = w.events := rfl
@[simp] theorem setState_capabilities (s : ConnectionState) (w : World π) :
    (w.setState s).conn.capabilities = w.conn.capabilities := rfl
@[simp] theorem setState_compressEnabled (s : ConnectionState) (w : World π) :
    (w.setState s).conn.compressEnabled = w.conn.compressEnabled := rfl
@[simp] theorem setTransport_state (t : Transport π) (w : World π) :
    (w.setTransport t).conn.state = w.conn.state := rfl
@[simp] theorem setTransport_transport (t : Transport π) (w : World π) :
    (w.setTransport t).conn.transport = some t := rfl
@[simp] theorem setTransport_events (t : Transport π) (w : World π) :
    (w.setTransport t).events = w.events := rfl
@[simp] theorem setLineScratch_state (l : Bytes) (w : World π) :
    (w.setLineScratch l).conn.state = w.conn.state := rfl
@[simp] theorem setLineScratch_transport (l : Bytes) (w : World π) :
    (w.setLineScratch l).conn.transport = w.conn.transport := rfl
@[simp] theorem setLineScratch_events (l : Bytes) (w : World π) :
    (w.setLineScratch l).events = w.events := rfl
@[simp] theorem tick_conn (w : World π) : w.tick.conn = w.conn := rfl
@[simp] theorem tick_events (w : World π) : w.tick.events = w.events.tail := rfl

end World

/-- Parse an NNTP status line into code and message. The first three bytes of
an accepted line are digits, hence its first three characters. -/
def parseResponseLine (line : String) : NntpResult NntpResponse :=
  let trimmed := Text.trimEndCrLf line
  let bytes := Text.utf8 trimmed
  if bytes.length < 3 then
    .error (.protocol s!"Response line too short: {trimmed.quote}")
  else if !(bytes.take 3).all Overview.isAsciiDigit then
    .error (.protocol s!"Invalid response code in: {trimmed.quote}")
  else
    .ok {
      code := Overview.asciiDigitsValue (bytes.take 3)
      message := .ofList (trimmed.toList.drop 4) }

section Io

variable {π : Type}

def onTransport {α : Type} (io : Transport π → IoEvent → α × Transport π) : Nntp π α := fun w =>
  match w.conn.transport with
  | none => .err (.connection "Not connected") w
  | some t =>
      let r := io t w.nextEvent
      .ok r.1 (w.setTransport r.2).tick

/-- Turn the end of an I/O operation into the `Result` of the function that
awaits it, `timedOut` being its error for an expired time limit. -/
def settle (timedOut : NntpError) : IoEnd → Nntp π Unit
  | .done => pure ()
  | .failed error => Comp.fail (.io error)
  | .elapsed => Comp.fail timedOut
  | .dropped => Comp.drop

def writeTimedOut (limit : Nat) : NntpError :=
  .io ⟨.timedOut, s!"write timed out after {limit}s"⟩

/-- `Transport::write_all` under `with_write_timeout`: write and flush. -/
def transportWriteAll [Peer π] (data : Bytes) : Nntp π Unit := do
  let e ← onTransport fun t ev => t.writeAll data ev
  settle (writeTimedOut (← Comp.get).conn.writeTimeout) e

def sendCommandNoFlush [Peer π] (cmd : String) : Nntp π Unit := do
  let e ← onTransport fun t ev => t.writeAll (Text.utf8 (cmd ++ "\r\n")) ev
  settle (writeTimedOut (← Comp.get).conn.writeTimeout) e

def flush : Nntp π Unit := do
  let e ← onTransport Transport.flush
  settle (writeTimedOut (← Comp.get).conn.writeTimeout) e

def sendCommand [Peer π] (cmd : String) : Nntp π Unit := do
  sendCommandNoFlush cmd
  flush

/-- `read_line` on the transport: the line as a string, empty at the end of the
stream. -/
def readResponseLine : Nntp π NntpResponse := do
  let r ← onTransport fun t ev =>
    let r := t.readUntilLf ev
    ((r.1, r.2.1), r.2.2)
  settle (.io ⟨.timedOut, s!"read_response_line timed out after {readLineTimeout}s"⟩) r.1
  match Text.fromUtf8 r.2 with
  | none => Comp.fail (.io ⟨.invalidData, "stream did not contain valid UTF-8"⟩)
  | some line =>
      if line.isEmpty then Comp.fail (.connection "Server closed connection")
      else Comp.ofExcept (parseResponseLine line)

def requireReady (operation : String) : Nntp π Unit := do
  let w ← Comp.get
  if w.conn.state ≠ .ready then
    Comp.fail (.protocol s!"Cannot {operation} in state {w.conn.state.debug}")
  else pure ()

/-- `inspect_err(|_| self.state = ConnectionState::Error)` -/
def orError {α : Type} (x : Nntp π α) : Nntp π α := x.inspectErr (World.setState .error)

def setState (state : ConnectionState) : Nntp π Unit := Comp.modify (World.setState state)

/-- The common beginning of the single-command operations: claim the
connection, write the command line and read the status line. -/
def request [Peer π] (cmd : String) : Nntp π NntpResponse := do
  setState .busy
  orError (sendCommand cmd)
  orError readResponseLine

end Io

end NzbNntp
