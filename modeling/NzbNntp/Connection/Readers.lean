import NzbNntp.Connection.Basic

/-! The multi-line readers of `connection.rs`. -/

namespace NzbNntp

open Interruptible

def isTerminator (line : Bytes) : Bool := line = [dot, cr, lf] || line = [dot, lf]

def unstuff (line : Bytes) : Bytes := if [dot, dot].isPrefixOf line then line.tail else line

/-- What a gzip decoder produces from its input: the decoded bytes, and the
error that ends them early, if there is one. -/
abbrev GzDecoder := Bytes → Bytes × Option String

def readToEnd (gz : GzDecoder) (raw : Bytes) : Except String Bytes :=
  match gz raw with
  | (decoded, none) => .ok decoded
  | (_, some error) => .error error

/-- `GzDecoder::take(limit).read_to_end`: an error behind the limit is not met. -/
def takeToEnd (gz : GzDecoder) (limit : Nat) (raw : Bytes) : Except String Bytes :=
  if limit ≤ (gz raw).1.length then .ok ((gz raw).1.take limit) else readToEnd gz raw

def startsGzip (raw : Bytes) : Bool := [0x1f, 0x8b].isPrefixOf raw

section Readers

variable {π : Type}

def readBodyLine (timedOut : NntpError) : Nntp π Bytes := do
  Comp.modify (World.setLineScratch [])
  let r ← onTransport fun t ev =>
    let r := t.readUntilLf ev
    ((r.1, r.2.1), r.2.2)
  Comp.modify (World.setLineScratch r.2)
  settle timedOut r.1
  return r.2

/-- One more than the bytes still on the stream, a bound on the lines that can
be read from it. -/
def World.lineFuel (w : World π) : Nat :=
  (w.conn.transport.map fun t => t.unread.length).getD 0 + 1

def multilineTimedOut (received : Nat) : NntpError :=
  .io ⟨.timedOut, s!"read_multiline_body timed out after {readBodyLineTimeout}s " ++
    s!"(received {received} bytes so far)"⟩

def exceeds (maxBytes : Option Nat) (length : Nat) : Bool := maxBytes.any (length > ·)

/-- The loop of `read_multiline_body_into_bounded`. Every line takes a byte off
the stream, so the first equation is out of reach from `World.lineFuel`. -/
def multilineLoop (maxBytes : Option Nat) : Nat → Bytes → Nntp π Bytes
  | 0, _ => Comp.fail (.connection "Server closed connection during multi-line read")
  | fuel + 1, out => do
      let line ← readBodyLine (multilineTimedOut out.length)
      if line.isEmpty then
        Comp.fail (.connection "Server closed connection during multi-line read")
      else if isTerminator line then return out
      else if exceeds maxBytes (out.length + (unstuff line).length) then
        Comp.fail (.responseTooLarge "multi-line response exceeds its byte bound")
      else multilineLoop maxBytes fuel (out ++ unstuff line)

def cleared (_out : Bytes) : Bytes := []

def readMultilineBodyIntoBounded (out : Bytes) (maxBytes : Option Nat) : Nntp π Bytes := do
  let w ← Comp.get
  multilineLoop maxBytes w.lineFuel (cleared out)

def checkoutBodyBuffer : Nntp π Bytes := do
  let w ← Comp.get
  Comp.modify fun w => { w with conn := { w.conn with bodyPool := w.conn.bodyPool.tail } }
  return w.conn.bodyPool.headD []

def readMultilineBody : Nntp π Bytes := do
  let body ← checkoutBodyBuffer
  readMultilineBodyIntoBounded body none

def readMultilineBodyBounded (maxBytes : Nat) : Nntp π Bytes :=
  readMultilineBodyIntoBounded [] (some maxBytes)

/-- The loop of `read_multiline_body_prefix`. -/
def prefixLoop (maxBytes : Nat) : Nat → Bytes → Nntp π BodyPrefixResponse
  | 0, _ => Comp.fail (.connection "Server closed connection during BODY prefix")
  | fuel + 1, data => do
      let line ← readBodyLine (.timeout "BODY prefix line timed out")
      if line.isEmpty then
        Comp.fail (.connection "Server closed connection during BODY prefix")
      else if isTerminator line then return { data, complete := true }
      -- The line counts as it came, before it is unstuffed.
      else if line.length > 16 * 1024 then
        Comp.fail (.responseTooLarge "BODY prefix line exceeds its byte bound")
      else
        let remaining := maxBytes - data.length
        let extended := data ++ (unstuff line).take remaining
        if (unstuff line).length > remaining ∨ extended.length = maxBytes then
          return { data := extended, complete := false }
        else prefixLoop maxBytes fuel extended

def readMultilineBodyPrefix (maxBytes : Nat) : Nntp π BodyPrefixResponse := do
  let w ← Comp.get
  prefixLoop maxBytes w.lineFuel []

variable (gz : GzDecoder)

def readMultilineBodyMaybeDecompress : Nntp π Bytes := do
  let raw ← readMultilineBody
  let w ← Comp.get
  if w.conn.compressEnabled && startsGzip raw then
    match readToEnd gz raw with
    | .ok decompressed => return decompressed
    -- What does not decode is returned as it is.
    | .error _ => return raw
  else return raw

def readMultilineBodyMaybeDecompressBounded (maxBytes : Nat) : Nntp π Bytes := do
  let raw ← readMultilineBodyBounded maxBytes
  let w ← Comp.get
  if w.conn.compressEnabled && startsGzip raw then
    -- One byte more than the bound is decoded, so that too much of it shows.
    match takeToEnd gz (maxBytes + 1) raw with
    | .error error => Comp.fail (.protocol s!"gzip HEAD decode failed: {error}")
    | .ok decompressed =>
        if decompressed.length > maxBytes then
          Comp.fail (.responseTooLarge "decompressed multi-line response exceeds its byte bound")
        else return decompressed
  else return raw

end Readers

end NzbNntp
