import NzbNntp.Error

/-!
The transport under a connection. The source boxes a TCP or a TLS stream; here
a transport is the byte streams of its two directions together with the peer
that feeds one of them from the other. What the network does to each awaited
operation is an `IoEvent`: an operation can complete, fail, run into its own
time limit, or be dropped by its caller, in each of the last three cases after
any part of its bytes has moved.
-/

namespace NzbNntp

open Delimited

/-- The other end of a transport: what it sends on hearing one byte. -/
class Peer (π : Type) where
  hear : π → UInt8 → π × Bytes

def Peer.hearAll {π : Type} [Peer π] : π → Bytes → π × Bytes
  | p, [] => (p, [])
  | p, b :: bs =>
      let first := Peer.hear p b
      let rest := hearAll first.1 bs
      (rest.1, first.2 ++ rest.2)

theorem Peer.hearAll_append {π : Type} [Peer π] (p : π) (a b : Bytes) :
    Peer.hearAll p (a ++ b) =
      ((Peer.hearAll (Peer.hearAll p a).1 b).1,
        (Peer.hearAll p a).2 ++ (Peer.hearAll (Peer.hearAll p a).1 b).2) := by
  induction a generalizing p with
  | nil => rfl
  | cons x a ih => simp [Peer.hearAll, ih]

/-- `unread` is everything the peer has sent that the client has not taken.
Where the stream has ended, `cut` says how many of these bytes still arrive:
the ones after them are lost. `wire` and `taken` record the traffic so far. -/
structure Transport (π : Type) where
  tls : Bool
  peer : π
  unread : Bytes
  cut : Option Nat := none
  wire : Bytes := []
  taken : Bytes := []

inductive IoEvent where
  /-- it completes -/
  | ready
  /-- the peer ends its stream after `n` more bytes; the operation completes -/
  | eof (n : Nat)
  /-- it fails after `n` bytes have moved -/
  | fails (error : IoError) (n : Nat)
  /-- its time limit expires after `n` bytes have moved -/
  | elapsed (n : Nat)
  /-- the caller drops it after `n` bytes have moved -/
  | dropped (n : Nat)
  deriving DecidableEq

/-- The operation is not cut short: it completes, if only at the end of the
stream. -/
def IoEvent.completes : IoEvent → Bool
  | .ready | .eof _ => true
  | _ => false

inductive IoEnd where
  | done
  | failed (error : IoError)
  | elapsed
  | dropped
  deriving DecidableEq

namespace Transport

variable {π : Type}

def available (t : Transport π) : Bytes :=
  match t.cut with
  | none => t.unread
  | some n => t.unread.take n

def take (t : Transport π) (n : Nat) : Transport π :=
  { t with
    unread := t.unread.drop n
    cut := t.cut.map (· - n)
    taken := t.taken ++ t.unread.take n }

def endStream (t : Transport π) (n : Nat) : Transport π :=
  { t with cut := some ((t.cut.map (min n)).getD n) }

def deliver [Peer π] (t : Transport π) (data : Bytes) : Transport π :=
  let answer := Peer.hearAll t.peer data
  { t with
    peer := answer.1
    unread := t.unread ++ answer.2
    wire := t.wire ++ data }

/-- `AsyncWriteExt::write_all`. The bytes that move reach the peer at once;
a flush moves nothing. -/
def writeAll [Peer π] (t : Transport π) (data : Bytes) : IoEvent → IoEnd × Transport π
  | .ready => (.done, t.deliver data)
  | .eof n => (.done, (t.endStream n).deliver data)
  | .fails error n => (.failed error, t.deliver (data.take n))
  | .elapsed n => (.elapsed, t.deliver (data.take n))
  | .dropped n => (.dropped, t.deliver (data.take n))

def flush (t : Transport π) : IoEvent → IoEnd × Transport π
  | .ready => (.done, t)
  | .eof n => (.done, t.endStream n)
  | .fails error _ => (.failed error, t)
  | .elapsed _ => (.elapsed, t)
  | .dropped _ => (.dropped, t)

/-- Wait until a line is there or the stream ends. On an open stream without a
line in it the wait ends with the time limit. -/
def awaitLine (t : Transport π) : IoEnd × Bytes × Transport π :=
  match breakAfter lf t.available with
  | some (line, _) => (.done, line, t.take line.length)
  | none =>
      (if t.cut.isSome then .done else .elapsed, t.available, t.take t.available.length)

/-- A wait for a line that is given up: `n` bytes, none of them the line's
end, have been taken. -/
def giveUp (t : Transport π) (n : Nat) (e : IoEnd) : IoEnd × Bytes × Transport π :=
  let line := (t.available.takeWhile (· ≠ lf)).take n
  (e, line, t.take line.length)

/-- `AsyncBufReadExt::read_until(b'\n', buf)`: how it ends and the bytes it has
appended to `buf`. -/
def readUntilLf (t : Transport π) : IoEvent → IoEnd × Bytes × Transport π
  | .ready => t.awaitLine
  | .eof n => (t.endStream n).awaitLine
  | .fails error n => t.giveUp n (.failed error)
  | .elapsed n => t.giveUp n .elapsed
  | .dropped n => t.giveUp n .dropped

end Transport

end NzbNntp
