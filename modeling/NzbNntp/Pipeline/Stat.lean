import NzbNntp.Connection.Commands
import NzbNntp.Library.Chunks

/-!
`StatPipeline` of `pipeline.rs`: STAT commands in batches. The commands of a batch
go out together, then their replies are read in order; the state is `Busy` for the
length of a batch.
-/

namespace NzbNntp

open Interruptible Chunks

structure StatResult where
  messageId : String
  exists_ : Bool
  deriving DecidableEq

structure StatPipeline where
  pending : List String := []

abbrev statBatchSize : Nat := 100

namespace StatPipeline

def new : StatPipeline := {}

def add (messageId : String) (p : StatPipeline) : StatPipeline :=
  { p with pending := p.pending ++ [messageId] }

def len (p : StatPipeline) : Nat := p.pending.length

def isEmpty (p : StatPipeline) : Bool := p.pending.isEmpty

end StatPipeline

section Execution

variable {π : Type} [Peer π]

/-- The send loop of a batch: nothing is flushed. -/
def statSends : List String → Nntp π Unit
  | [] => return ()
  | mid :: rest => do
      orError (sendCommandNoFlush s!"STAT {normalizeMessageId mid}")
      statSends rest

omit [Peer π] in
/-- The read loop of a batch. -/
def statReads : List String → List StatResult → Nntp π (List StatResult)
  | [], results => return results
  | mid :: rest, results => do
      let resp ← orError readResponseLine
      match resp.code with
      | 223 => statReads rest (results ++ [{ messageId := mid, exists_ := true }])
      | 430 => statReads rest (results ++ [{ messageId := mid, exists_ := false }])
      | 480 => failIn .error (.authRequired resp.message)
      | 481 | 482 => failIn .error (.auth s!"STAT rejected ({resp.code}): {resp.message}")
      | 502 => failIn .error (.serviceUnavailable resp.message)
      -- `403` has no row here, unlike in `stat_article`.
      | _ => failIn .error (.protocol s!"Unexpected STAT response {resp.code}: {resp.message}")

/-- The loop over the batches. -/
def statBatches : List (List String) → List StatResult → Nntp π (List StatResult)
  | [], results => return results
  | batch :: later, results => do
      setState .busy
      statSends batch
      orError flush
      let results ← statReads batch results
      setState .ready
      statBatches later results

def execute : Comp NntpError (StatPipeline × World π) (List StatResult) := do
  let s ← Comp.get
  Comp.modify fun s => ({ s.1 with pending := [] }, s.2)
  (statBatches (chunks statBatchSize s.1.pending) []).onSnd

end Execution

end NzbNntp
