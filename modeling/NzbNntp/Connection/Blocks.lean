import NzbNntp.Connection.Replies

/-!
A whole block, line by line: the lines that arrive before its terminator, each read as one
operation. What the readers of `connection.rs` make of such a block is a fact about the list
of its lines.
-/

namespace NzbNntp

open Interruptible

section Blocks

variable {π : Type} {w : World π} {t t' : Transport π} {events events' : List IoEvent}
  {lines : List Bytes}

/-- The lines that arrive at `t` are these, and then a terminator; this leaves `t'` and the
events `events'`. -/
inductive BlockLines : Transport π → List IoEvent → List Bytes → Transport π → List IoEvent → Prop
  | terminator {t t' : Transport π} {events : List IoEvent} {line : Bytes} :
      t.readUntilLf (events.headD .ready) = (.done, line, t') → isTerminator line = true →
      BlockLines t events [] t' events.tail
  | line {t t' t'' : Transport π} {events events' : List IoEvent} {line : Bytes}
      {lines : List Bytes} :
      t.readUntilLf (events.headD .ready) = (.done, line, t') → line ≠ [] →
      isTerminator line = false → BlockLines t' events.tail lines t'' events' →
      BlockLines t events (line :: lines) t'' events'

/-- The text of a block: its lines without the dots that were put before them. -/
def blockText (lines : List Bytes) : Bytes := (lines.map unstuff).flatten

@[simp] theorem blockText_nil : blockText [] = [] := rfl

@[simp] theorem blockText_cons (line : Bytes) (lines : List Bytes) :
    blockText (line :: lines) = unstuff line ++ blockText lines := rfl

/-- Exactly the lines and the terminator are taken off the stream. -/
theorem BlockLines.stream (h : BlockLines t events lines t' events') :
    ∃ terminator, isTerminator terminator = true ∧
      lines.flatten ++ terminator ++ t'.unread = t.unread := by
  induction h with
  | @terminator t t' events line hread hterm =>
      have hstream := stream_readUntilLf t (events.headD .ready)
      rw [hread] at hstream
      exact ⟨line, hterm, hstream⟩
  | @line t t' t'' events events' line lines hread _ _ _ ih =>
      obtain ⟨terminator, hterm, hrest⟩ := ih
      have hstream := stream_readUntilLf t (events.headD .ready)
      rw [hread] at hstream
      refine ⟨terminator, hterm, ?_⟩
      rw [← hstream, ← hrest, List.flatten_cons]
      simp only [List.append_assoc]

/-- Every line takes a byte off the stream. -/
theorem BlockLines.length_lt_unread (h : BlockLines t events lines t' events') :
    lines.length < t.unread.length := by
  induction h with
  | @terminator t t' events line hread hterm =>
      have hstream := congrArg List.length (stream_readUntilLf t (events.headD .ready))
      rw [hread, List.length_append] at hstream
      have hpos := List.length_pos_of_ne_nil (isTerminator_ne_nil hterm)
      dsimp only at hstream
      rw [List.length_nil]
      omega
  | @line t t' t'' events events' line lines hread hne _ _ ih =>
      have hstream := congrArg List.length (stream_readUntilLf t (events.headD .ready))
      rw [hread, List.length_append] at hstream
      have hpos := List.length_pos_of_ne_nil hne
      dsimp only at hstream
      rw [List.length_cons]
      omega

theorem BlockLines.length_lt_lineFuel (h : BlockLines t events lines t' events')
    (ht : w.conn.transport = some t) : lines.length < w.lineFuel := by
  rw [World.lineFuel, ht]
  exact Nat.lt_succ_of_lt h.length_lt_unread

def World.at (t : Transport π) (events : List IoEvent) (scratch : Bytes) (w : World π) : World π :=
  { conn := { w.conn with transport := some t, lineScratch := scratch }, events }

theorem readBodyLine_of_read {timedOut : NntpError} {line : Bytes}
    (ht : w.conn.transport = some t)
    (hread : t.readUntilLf w.nextEvent = (.done, line, t')) :
    readBodyLine timedOut w = .ok line (w.at t' w.events.tail line) := by
  have ht' : (w.setLineScratch []).conn.transport = some t := ht
  have hread' : t.readUntilLf (w.setLineScratch []).nextEvent = (.done, line, t') := hread
  have hrun : wp (readBodyLine timedOut)
      ⟨fun l w' => l = line ∧ w' = w.at t' w.events.tail line, fun _ _ => False, fun _ => False⟩
      w := by
    simp only [readBodyLine, wp_bind, wp_modify, wp_onTransport ht', hread']
    exact ⟨rfl, rfl⟩
  obtain ⟨_, _, hrun, rfl, rfl⟩ := exists_ok_of_wp hrun
  exact hrun

@[simp] theorem World.at_transport (scratch : Bytes) :
    (w.at t events scratch).conn.transport = some t := rfl
@[simp] theorem World.at_events (scratch : Bytes) : (w.at t events scratch).events = events := rfl
@[simp] theorem World.at_state (scratch : Bytes) :
    (w.at t events scratch).conn.state = w.conn.state := rfl
@[simp] theorem World.at_at (scratch scratch' : Bytes) :
    (w.at t events scratch).at t' events' scratch' = w.at t' events' scratch' := rfl

/-- The loop of the unbounded reader returns the text of the block, by induction along its
lines. -/
theorem multilineLoop_of_lines (h : BlockLines t events lines t' events') :
    ∀ {w : World π} (fuel : Nat) (out : Bytes), w.conn.transport = some t → w.events = events →
      lines.length < fuel →
      ∃ scratch, multilineLoop none fuel out w =
        .ok (out ++ blockText lines) (w.at t' events' scratch) := by
  induction h with
  | @terminator t t' events line hread hterm =>
      intro w fuel out ht hevents hfuel
      obtain ⟨fuel, rfl⟩ : ∃ k, fuel = k + 1 := ⟨fuel - 1, by omega⟩
      subst hevents
      refine ⟨line, ?_⟩
      rw [multilineLoop, Comp.bind_of_ok (readBodyLine_of_read ht hread)]
      rw [if_neg (by simpa using isTerminator_ne_nil hterm), if_pos hterm, blockText_nil,
        List.append_nil]
      rfl
  | @line t t' t'' events events' line lines hread hne hterm _ ih =>
      intro w fuel out ht hevents hfuel
      obtain ⟨fuel, rfl⟩ : ∃ k, fuel = k + 1 := ⟨fuel - 1, by omega⟩
      subst hevents
      obtain ⟨scratch, hrest⟩ := ih (w := w.at t' w.events.tail line) fuel (out ++ unstuff line)
        rfl rfl (by simpa using hfuel)
      refine ⟨scratch, ?_⟩
      rw [multilineLoop, Comp.bind_of_ok (readBodyLine_of_read ht hread)]
      rw [if_neg (by simpa using hne), hterm, if_neg Bool.false_ne_true, exceeds,
        Option.any_none, if_neg Bool.false_ne_true, hrest, blockText_cons, List.append_assoc,
        World.at_at]

/-- `read_multiline_body` takes a buffer out of the pool, and returns the text of the
block. -/
theorem readMultilineBody_of_lines (h : BlockLines t events lines t' events')
    (ht : w.conn.transport = some t) (hevents : w.events = events) :
    ∃ w', readMultilineBody w = .ok (blockText lines) w' ∧ w'.conn.transport = some t' ∧
      w'.events = events' := by
  let w₀ : World π := { w with conn := { w.conn with bodyPool := w.conn.bodyPool.tail } }
  obtain ⟨scratch, hrun⟩ := multilineLoop_of_lines (w := w₀) h w.lineFuel [] ht hevents
    (h.length_lt_lineFuel ht)
  exact ⟨_, hrun, rfl, rfl⟩

/-! ### Compressed blocks -/

def inflated (gz : GzDecoder) (compressed : Bool) (raw : Bytes) : Bytes :=
  if compressed && startsGzip raw then
    match readToEnd gz raw with
    | .ok decoded => decoded
    | .error _ => raw
  else raw

theorem readMultilineBodyMaybeDecompress_eq {gz : GzDecoder} :
    (readMultilineBodyMaybeDecompress gz : Nntp π Bytes) = (do
      let raw ← readMultilineBody
      let w ← Comp.get
      return inflated gz w.conn.compressEnabled raw) := by
  unfold readMultilineBodyMaybeDecompress inflated
  congr 1
  funext raw
  congr 1
  funext w
  split
  · cases readToEnd gz raw with
    | ok decoded => rfl
    | error e => rfl
  · rfl

end Blocks

def gzippedHi : Bytes :=
  [31, 139, 8, 0, 0, 0, 0, 0, 2, 3, 203, 200, 4, 0, 172, 42, 147, 216, 2, 0, 0, 0]

theorem lf_not_mem_gzippedHi : lf ∉ gzippedHi ++ [cr] := by decide

/-- The stream and a line end make a block of one line. -/
theorem not_isTerminator_gzippedHi :
    ∀ l ∈ [(⟨gzippedHi ++ [cr], lf_not_mem_gzippedHi⟩ : Delimited.Piece lf)],
      isTerminator l.full = false := by
  decide

def hiDecoder : GzDecoder := fun raw =>
  if gzippedHi <+: raw then (Text.utf8 "hi", none) else ([], some "corrupt gzip stream")

end NzbNntp
