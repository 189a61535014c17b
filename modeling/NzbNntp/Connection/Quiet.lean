import NzbNntp.Connection.Multiline

/-!
A connection that nothing disturbs: every operation completes, and what it reads
is what arrives. The rules here say, for each operation, which bytes it has taken
and which it leaves.
-/

namespace NzbNntp

open Interruptible Delimited

/-! ### Status lines -/

/-- The first line of a stream, up to its LF or to the end of the stream. -/
def firstLine (stream : Bytes) : Bytes :=
  match breakAfter lf stream with
  | some (line, _) => line
  | none => stream

/-- A line read as a status line; the empty one is the end of the stream. -/
def statusOf (line : Bytes) : NntpResult NntpResponse :=
  match Text.fromUtf8 line with
  | none => .error (.io ⟨.invalidData, "stream did not contain valid UTF-8"⟩)
  | some text =>
      if text.isEmpty then .error (.connection "Server closed connection")
      else parseResponseLine text

theorem firstLine_full (l : WireLine) (rest : Bytes) : firstLine (l.full ++ rest) = l.full := by
  simp [firstLine]

theorem firstLine_of_not_mem {stream : Bytes} (h : lf ∉ stream) : firstLine stream = stream := by
  simp [firstLine, breakAfter_of_not_mem h]

theorem firstLine_isPrefix (stream : Bytes) : firstLine stream <+: stream := by
  unfold firstLine
  split
  · rename_i line rest hbreak
    obtain ⟨p, -, rfl, rfl⟩ := breakAfter_eq_some.mp hbreak
    exact ⟨rest, by simp⟩
  · exact List.prefix_refl _

theorem statusCode_of_statusOf {line : Bytes} {status : NntpResponse}
    (h : statusOf line = .ok status) : statusCode line = some status.code := by
  unfold statusOf at h
  split at h
  · cases h
  · rename_i text htext
    split at h
    · cases h
    · exact statusCode_of_parse htext h

/-! ### Bytes taken -/

section Quiet

variable {π : Type}

/-- `n` bytes of `t` have been taken, the state is `s`, and nothing disturbs the
operations to come. -/
def HasTaken (s : ConnectionState) (t : Transport π) (n : Nat) (w : World π) : Prop :=
  Quiet w ∧ w.conn.state = s ∧ w.conn.transport = some (t.take n)

def TookSome (s : ConnectionState) (t : Transport π) (w : World π) : Prop :=
  ∃ n, n ≤ t.available.length ∧ HasTaken s t n w

theorem Transport.take_zero (t : Transport π) : t.take 0 = t := by
  cases t with
  | mk tls peer unread cut wire taken => cases cut <;> simp [Transport.take]

theorem Transport.take_take (t : Transport π) (n m : Nat) :
    (t.take n).take m = t.take (n + m) := by
  cases t with
  | mk tls peer unread cut wire taken =>
      cases cut <;> simp [Transport.take, List.take_add, Nat.sub_sub]

theorem awaitLine_firstLine {t : Transport π} (h : t.cut.isSome = true ∨ lf ∈ t.available) :
    t.awaitLine =
      (.done, firstLine t.available, t.take (firstLine t.available).length) := by
  cases hbreak : breakAfter lf t.available with
  | some p => simp [Transport.awaitLine, firstLine, hbreak]
  | none =>
      have hcut : t.cut.isSome = true := h.resolve_right (breakAfter_eq_none.mp hbreak)
      simp [Transport.awaitLine, firstLine, hbreak, hcut]

variable {s : ConnectionState} {t : Transport π} {w : World π}

theorem wp_readResponseLine_first (hquiet : Quiet w) (hs : w.conn.state = s)
    (ht : w.conn.transport = some t) (hline : t.cut.isSome = true ∨ lf ∈ t.available) :
    wp readResponseLine
      ⟨fun status w' => statusOf (firstLine t.available) = .ok status ∧
          HasTaken s t (firstLine t.available).length w',
        fun e w' => statusOf (firstLine t.available) = .error e ∧
          HasTaken s t (firstLine t.available).length w',
        fun _ => False⟩ w := by
  have htaken : HasTaken s t (firstLine t.available).length
      (w.setTransport (t.take (firstLine t.available).length)).tick := ⟨hquiet.tick, hs, rfl⟩
  simp only [readResponseLine, wp_bind, wp_onTransport ht, hquiet.nextEvent,
    Transport.readUntilLf, awaitLine_firstLine hline, settle, wp_pure]
  split
  · rename_i hnone
    exact ⟨by rw [statusOf, hnone], htaken⟩
  · rename_i text htext
    have hstatus : statusOf (firstLine t.available) =
        if text.isEmpty then .error (.connection "Server closed connection")
        else parseResponseLine text := by rw [statusOf, htext]
    split
    · rename_i hempty
      exact ⟨by rw [hstatus, if_pos hempty], htaken⟩
    · rename_i hnonempty
      rw [if_neg hnonempty] at hstatus
      rw [wp_ofExcept, hstatus]
      exact ⟨fun _ h => ⟨h, htaken⟩, fun _ h => ⟨h, htaken⟩⟩

theorem wp_readBodyLine_took {timedOut : NntpError} (hw : TookSome s t w) :
    wp (readBodyLine timedOut) (always (TookSome s t)) w := by
  obtain ⟨n, hn, hquiet, hs, ht⟩ := hw
  have ht' : (w.setLineScratch []).conn.transport = some (t.take n) := ht
  have hnext : (w.setLineScratch []).nextEvent = .ready := hquiet.nextEvent
  rcases hawait : (t.take n).awaitLine with ⟨e, bytes, t'⟩
  obtain ⟨rfl, hlen⟩ := awaitLine_take hawait
  rw [available_take, List.length_drop] at hlen
  simp only [readBodyLine, wp_bind, wp_modify, wp_onTransport ht', hnext, Transport.readUntilLf,
    hawait, Transport.take_take]
  have htook : TookSome s t (((w.setLineScratch []).setTransport
      (t.take (n + bytes.length))).tick.setLineScratch bytes) :=
    ⟨n + bytes.length, by omega, hquiet.tick, hs, rfl⟩
  exact wp_settle (fun _ => htook) (fun _ => htook) htook

theorem wp_multilineLoop_took {maxBytes : Option Nat} (fuel : Nat) (out : Bytes) {w : World π}
    (hw : TookSome s t w) : wp (multilineLoop maxBytes fuel out) (always (TookSome s t)) w := by
  induction fuel generalizing out w with
  | zero => exact hw
  | succ fuel ih =>
      rw [multilineLoop]
      refine wp_seq (wp_readBodyLine_took hw) ?_ (fun _ _ h => h) (fun _ h => h)
      intro line w' (hw' : TookSome s t w')
      split
      · exact hw'
      split
      · exact hw'
      split
      · exact hw'
      · exact ih _ hw'

/-- How far the stream has been read is known from what is left of it. -/
theorem TookSome.hasTaken {stream left : Bytes} {ends : Bool} (h : TookSome s t w)
    (hstream : t.available = stream) (hreading : Reading left ends w) :
    HasTaken s t (stream.length - left.length) w := by
  obtain ⟨n, hn, hquiet, hs, ht⟩ := h
  obtain ⟨-, t', ht', havail, -⟩ := hreading
  obtain rfl : t.take n = t' := Option.some.inj (ht.symm.trans ht')
  rw [available_take, hstream] at havail
  rw [hstream] at hn
  have hlen := congrArg List.length havail
  rw [List.length_drop] at hlen
  obtain rfl : n = stream.length - left.length := by omega
  exact ⟨hquiet, hs, ht⟩

theorem wp_readMultilineBody_taken (hw : TookSome s t w) :
    wp readMultilineBody (always (TookSome s t)) w := by
  obtain ⟨n, hn, hw⟩ := hw
  exact wp_multilineLoop_took
    (w := { w with conn := { w.conn with bodyPool := w.conn.bodyPool.tail } }) _ _ ⟨n, hn, hw⟩

theorem HasTaken.setState {n : Nat} (h : HasTaken s t n w) (s' : ConnectionState) :
    HasTaken s' t n (w.setState s') := ⟨h.1, rfl, h.2.2⟩

theorem wp_statusLine_first (hquiet : Quiet w) (hs : w.conn.state = s)
    (ht : w.conn.transport = some t) (hline : t.cut.isSome = true ∨ lf ∈ t.available) :
    wp (orError readResponseLine)
      ⟨fun status w' => statusOf (firstLine t.available) = .ok status ∧
          HasTaken s t (firstLine t.available).length w',
        fun e w' => statusOf (firstLine t.available) = .error e ∧
          HasTaken .error t (firstLine t.available).length w',
        fun _ => False⟩ w := by
  rw [orError, wp_inspectErr]
  exact wp_mono (wp_readResponseLine_first hquiet hs ht hline) (fun _ _ h => h)
    (fun _ _ h => ⟨h.1, h.2.setState .error⟩) (fun _ h => h)

/-- The block of a reply, on a stream that holds it or ends. -/
theorem wp_readMultilineBody_block {n : Nat} (hn : n ≤ t.available.length)
    (hw : HasTaken s t n w)
    (hends : t.cut.isSome = true ∨ HasTerminator (t.available.drop n)) :
    wp readMultilineBody
      ⟨fun b w' => HasTerminator (t.available.drop n) ∧ b = blockBody (t.available.drop n) ∧
          HasTaken s t (t.available.length - (afterBlock (t.available.drop n)).length) w',
        fun e w' => ¬ HasTerminator (t.available.drop n) ∧
          e = .connection "Server closed connection during multi-line read" ∧
          HasTaken s t t.available.length w',
        fun _ => False⟩ w := by
  have hreading : Reading (t.available.drop n) t.cut.isSome w :=
    ⟨hw.1, t.take n, hw.2.2, available_take t n, by rw [Transport.take, Option.isSome_map]⟩
  have hreads := wp_readMultilineBody_reads hends hreading
  refine wp_mono (wp_and hreads (wp_readMultilineBody_taken ⟨n, hn, hw⟩)) ?_ ?_ (fun _ h => h.1)
  · rintro b w' ⟨⟨hterm, hb, hrest⟩, htook⟩
    exact ⟨hterm, by simpa using hb, TookSome.hasTaken htook rfl hrest⟩
  · rintro e w' ⟨⟨hterm, he, hrest⟩, htook⟩
    exact ⟨hterm, he, TookSome.hasTaken htook rfl hrest⟩

/-- A bound that the body keeps does not show. -/
theorem multilineLoop_bounded {maxBytes : Nat} (fuel : Nat) {out b : Bytes} {w w' : World π}
    (hrun : multilineLoop none fuel out w = .ok b w') (hb : b.length ≤ maxBytes) :
    out.length ≤ b.length ∧ multilineLoop (some maxBytes) fuel out w = .ok b w' := by
  induction fuel generalizing out w with
  | zero => cases hrun
  | succ fuel ih =>
      rw [multilineLoop, Comp.bind_apply] at hrun ⊢
      cases hline : readBodyLine (multilineTimedOut out.length) w with
      | ok line w₁ =>
          rw [hline] at hrun
          dsimp only [Outcome.bind] at hrun ⊢
          by_cases hempty : line.isEmpty = true
          · rw [if_pos hempty] at hrun
            cases hrun
          · rw [if_neg hempty] at hrun ⊢
            by_cases hterm : isTerminator line = true
            · rw [if_pos hterm] at hrun ⊢
              cases hrun
              exact ⟨le_rfl, rfl⟩
            · rw [if_neg hterm] at hrun ⊢
              obtain ⟨hlen, hrest⟩ := ih hrun
              rw [List.length_append] at hlen
              have hfits : ¬ exceeds (some maxBytes) (out.length + (unstuff line).length) = true := by
                simp only [exceeds, Option.any_some, decide_eq_true_eq]
                omega
              rw [if_neg hfits]
              exact ⟨by omega, hrest⟩
      | err e w₁ =>
          rw [hline] at hrun
          cases hrun
      | dropped w₁ =>
          rw [hline] at hrun
          cases hrun

/-- A block within the bound is read as without one. -/
theorem wp_readMultilineBodyBounded_reads {stream : Bytes} {ends : Bool} {maxBytes : Nat}
    (hterm : HasTerminator stream) (hfits : (blockBody stream).length ≤ maxBytes)
    (hw : Reading stream ends w) :
    wp (readMultilineBodyBounded maxBytes)
      ⟨fun b w' => b = blockBody stream ∧ Reading (afterBlock stream) ends w', fun _ _ => False,
        fun _ => False⟩ w := by
  obtain ⟨hquiet, t, ht, havail, hcut⟩ := hw
  have hfuel : stream.length < w.lineFuel := by
    have hle := available_length_le t
    rw [havail] at hle
    change stream.length < (w.conn.transport.map fun t => t.unread.length).getD 0 + 1
    rw [ht]
    exact Nat.lt_succ_of_le hle
  have hreads := wp_multilineLoop_reads stream w.lineFuel [] hfuel (.inr hterm)
    ⟨hquiet, t, ht, havail, hcut⟩
  change wp (multilineLoop (some maxBytes) w.lineFuel []) _ w
  unfold wp at hreads ⊢
  cases hrun : multilineLoop none w.lineFuel [] w with
  | ok b w' =>
      rw [hrun] at hreads
      obtain ⟨-, rfl, hrest⟩ := hreads
      rw [(multilineLoop_bounded w.lineFuel hrun hfits).2]
      exact ⟨rfl, hrest⟩
  | err e w' =>
      rw [hrun] at hreads
      exact absurd hterm hreads.1
  | dropped w' =>
      rw [hrun] at hreads
      exact hreads.elim

/-! ### Replies as they arrive -/

def arrives (b : Bytes) (cut : Option Nat) : Bytes :=
  match cut with
  | none => b
  | some n => b.take n

theorem arrives_isPrefix (b : Bytes) (cut : Option Nat) : arrives b cut <+: b := by
  cases cut with
  | none => exact List.prefix_refl b
  | some n => exact List.take_prefix n b

/-- The bytes next on the stream are whole, or the stream ends inside them. -/
theorem stream_cases {b later : Bytes} (hpos : 0 < b.length)
    (h : Ended t ∨ t.unread = b ++ later) :
    (t.unread = b ++ later ∧ arrives b t.cut = b ∧ ∃ more, t.available = b ++ more) ∨
    ∃ n, t.cut = some n ∧ n < b.length ∧ arrives b t.cut = b.take n ∧ t.available = b.take n := by
  rcases h with hended | hunread
  · simp only [Ended] at hended
    exact .inr ⟨0, hended, hpos, by simp [arrives, hended], by simp [Transport.available, hended]⟩
  · cases hcut : t.cut with
    | none => exact .inl ⟨hunread, rfl, later, by simp [Transport.available, hcut, hunread]⟩
    | some n =>
        by_cases hn : n < b.length
        · refine .inr ⟨n, rfl, hn, rfl, ?_⟩
          simp only [Transport.available, hcut, hunread]
          exact List.take_append_of_le_length (by omega)
        · refine .inl ⟨hunread, ?_, later.take (n - b.length), ?_⟩
          · simp only [arrives]
            exact List.take_of_length_le (by omega)
          · simp only [Transport.available, hcut, hunread]
            rw [List.take_append, List.take_of_length_le (by omega)]

/-- The transport after the bytes that arrive have been taken. -/
theorem take_arrives {b later : Bytes} (hpos : 0 < b.length) (h : Ended t ∨ t.unread = b ++ later) :
    (t.take (arrives b t.cut).length).cut = t.cut.map (· - b.length) ∧
      (t.take (arrives b t.cut).length).taken = t.taken ++ arrives b t.cut ∧
      (Ended (t.take (arrives b t.cut).length) ∨
        (t.take (arrives b t.cut).length).unread = later) := by
  rcases stream_cases hpos h with ⟨hunread, harrives, -⟩ | ⟨n, hcut, hn, harrives, havail⟩
  · rw [harrives]
    simp [Transport.take, hunread]
  · have hlen : (b.take n).length = n := by
      rw [List.length_take]
      omega
    rw [harrives]
    simp only [Transport.available, hcut] at havail
    simp [Transport.take, Ended, hlen, hcut, havail]
    omega

/-- A line that is next on the stream is the first one there, as far as it arrives. -/
theorem firstLine_available {l : WireLine} {later : Bytes}
    (h : Ended t ∨ t.unread = l.full ++ later) :
    firstLine t.available = arrives l.full t.cut ∧ (t.cut.isSome = true ∨ lf ∈ t.available) := by
  have hpos : 0 < l.full.length := by simp [Piece.full]
  rcases stream_cases hpos h with ⟨-, harrives, more, havail⟩ | ⟨n, hcut, hn, harrives, havail⟩
  · refine ⟨by rw [harrives, havail, firstLine_full], .inr ?_⟩
    rw [havail]
    simp [Piece.full]
  · refine ⟨?_, .inl (by rw [hcut]; rfl)⟩
    rw [harrives, havail]
    refine firstLine_of_not_mem fun hmem => ?_
    simp only [Piece.full, List.length_append, List.length_singleton] at hn
    rw [Piece.full, List.take_append_of_le_length (by omega)] at hmem
    exact l.free (List.mem_of_mem_take hmem)

/-! ### Bytes written -/

/-- The command has been written, and nothing disturbs the operations to come. -/
theorem wp_sendCommandNoFlush_quiet [Peer π] {cmd : String} (hquiet : Quiet w)
    (ht : w.conn.transport = some t) :
    wp (sendCommandNoFlush cmd)
      ⟨fun _ w' => Quiet w' ∧ w'.conn.state = w.conn.state ∧
          w'.conn.transport = some (t.deliver (commandLine cmd)),
        fun _ _ => False, fun _ => False⟩ w := by
  simp only [sendCommandNoFlush, wp_bind, wp_onTransport ht, hquiet.nextEvent, wp_get]
  exact ⟨hquiet.tick, rfl, rfl⟩

theorem wp_flush_quiet (hquiet : Quiet w) (ht : w.conn.transport = some t) :
    wp flush
      ⟨fun _ w' => Quiet w' ∧ w'.conn.state = w.conn.state ∧ w'.conn.transport = some t,
        fun _ _ => False, fun _ => False⟩ w := by
  simp only [flush, wp_bind, wp_onTransport ht, hquiet.nextEvent, wp_get]
  exact ⟨hquiet.tick, rfl, rfl⟩

theorem wp_sendCommand_quiet [Peer π] {cmd : String} (hquiet : Quiet w)
    (ht : w.conn.transport = some t) :
    wp (sendCommand cmd)
      ⟨fun _ w' => Quiet w' ∧ w'.conn.state = w.conn.state ∧
          w'.conn.transport = some (t.deliver (commandLine cmd)),
        fun _ _ => False, fun _ => False⟩ w := by
  refine wp_seq (wp_sendCommandNoFlush_quiet hquiet ht) ?_ (fun _ _ h => h) (fun _ h => h)
  rintro _ w₁ ⟨hquiet₁, hs₁, ht₁⟩
  refine wp_mono (wp_flush_quiet hquiet₁ ht₁) ?_ (fun _ _ h => h) (fun _ h => h)
  rintro _ w₂ ⟨hquiet₂, hs₂, ht₂⟩
  exact ⟨hquiet₂, hs₂.trans hs₁, ht₂⟩

/-- What cannot fail needs no handler. -/
theorem wp_orError_quiet {α : Type} {x : Nntp π α} {Q : α → World π → Prop}
    (h : wp x ⟨Q, fun _ _ => False, fun _ => False⟩ w) :
    wp (orError x) ⟨Q, fun _ _ => False, fun _ => False⟩ w := by
  rw [orError, wp_inspectErr]
  exact wp_mono h (fun _ _ h => h) (fun _ _ h => h.elim) (fun _ h => h)

end Quiet

end NzbNntp
