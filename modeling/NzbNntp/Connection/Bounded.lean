import NzbNntp.Connection.Blocks
import NzbNntp.Connection.Quiet

/-!
The bounded readers, beside the unbounded ones. Both loops read the same lines, whatever
comes; the bounded one gives up at the first line that does not fit, before it is appended.
-/

namespace NzbNntp

open Interruptible

/-! ### The block reader -/

section Reader

variable {π : Type} {w w' : World π} {maxBytes : Nat} {out : Bytes}

/-- A round of the loop: the buffer `out` in `w` becomes `out'` in `w'`. -/
def Appends (maxBytes : Option Nat) (out : Bytes) (w : World π) (out' : Bytes) (w' : World π) :
    Prop :=
  ∃ line, readBodyLine (multilineTimedOut out.length) w = .ok line w' ∧ line ≠ [] ∧
    isTerminator line = false ∧ exceeds maxBytes (out.length + (unstuff line).length) = false ∧
    out' = out ++ unstuff line

inductive Buffers (maxBytes : Option Nat) : Bytes → World π → Bytes → World π → Prop
  | here {out : Bytes} {w : World π} : Buffers maxBytes out w out w
  | round {out out' out'' : Bytes} {w w' w'' : World π} : Appends maxBytes out w out' w' →
      Buffers maxBytes out' w' out'' w'' → Buffers maxBytes out w out'' w''

/-- The loop goes on from the buffer it has come to. -/
theorem Appends.multilineLoop {maxBytes : Option Nat} {out' : Bytes}
    (h : Appends maxBytes out w out' w') (fuel : Nat) :
    multilineLoop maxBytes (fuel + 1) out w = multilineLoop maxBytes fuel out' w' := by
  obtain ⟨line, hread, hne, hterm, hfits, rfl⟩ := h
  rw [NzbNntp.multilineLoop, Comp.bind_of_ok hread, if_neg (by simpa using hne), hterm,
    if_neg Bool.false_ne_true, hfits, if_neg Bool.false_ne_true]

theorem Appends.length_le {out' : Bytes} (h : Appends (some maxBytes) out w out' w') :
    out'.length ≤ maxBytes := by
  obtain ⟨line, -, -, -, hfits, rfl⟩ := h
  rw [List.length_append]
  simpa [exceeds] using hfits

theorem Buffers.length_le {out' : Bytes} (h : Buffers (some maxBytes) out w out' w') :
    out.length ≤ maxBytes → out'.length ≤ maxBytes := by
  induction h with
  | here => exact id
  | round happends _ ih => exact fun _ => ih happends.length_le

end Reader

end NzbNntp
