import NzbNntp.Connection.Status

/-!
Replies as they stand on the stream. Whether a command can be written, which status
line comes next and which block follows it are conditions on the transport and the
events; they decide how the operations of the connection run, in whatever state.
-/

namespace NzbNntp

open Interruptible

section Next

variable {π : Type}

/-- The wait for a status line ends with one that can be parsed. -/
def StatusReadable (w : World π) : Prop :=
  ∃ t bytes t' line status, w.conn.transport = some t ∧
    t.readUntilLf w.nextEvent = (.done, bytes, t') ∧ Text.fromUtf8 bytes = some line ∧
    line ≠ "" ∧ parseResponseLine line = .ok status

def NextStatus (w : World π) (status : NntpResponse) (t' : Transport π) : Prop :=
  ∃ t bytes line, w.conn.transport = some t ∧
    t.readUntilLf w.nextEvent = (.done, bytes, t') ∧ Text.fromUtf8 bytes = some line ∧
    line ≠ "" ∧ parseResponseLine line = .ok status

/-- The lines that arrive at `t` are a whole block, `raw` once unstuffed. -/
inductive NextBlock : Transport π → List IoEvent → Bytes → Prop
  | terminator {t t' : Transport π} {events : List IoEvent} {line : Bytes} :
      t.readUntilLf (events.headD .ready) = (.done, line, t') → isTerminator line = true →
      NextBlock t events []
  | line {t t' : Transport π} {events : List IoEvent} {line raw : Bytes} :
      t.readUntilLf (events.headD .ready) = (.done, line, t') → line ≠ [] →
      isTerminator line = false → NextBlock t' events.tail raw →
      NextBlock t events (unstuff line ++ raw)

def Sent [Peer π] (data : Bytes) (w w' : World π) : Prop :=
  ∃ t t₁ t₂, w.conn.transport = some t ∧ t.writeAll data w.nextEvent = (.done, t₁) ∧
    t₁.flush w.tick.nextEvent = (.done, t₂) ∧ w' = w.tick.tick.setTransport t₂

/-- `cmd` is sent in `w`, and the reply to it is `status`, which leaves `w'`. -/
def Queried [Peer π] (cmd : String) (w : World π) (status : NntpResponse) (w' : World π) : Prop :=
  ∃ w₁ t, Sent (commandLine cmd) w w₁ ∧ NextStatus w₁ status t ∧ w' = (w₁.setTransport t).tick

end Next

/-! ### Status lines -/

section StatusLines

variable {π : Type} {w : World π} {status : NntpResponse} {t' : Transport π}

theorem wp_readResponseLine_iff (w : World π) :
    wp readResponseLine
      ⟨fun _ _ => StatusReadable w, fun _ _ => ¬ StatusReadable w, fun _ => True⟩ w := by
  cases ht : w.conn.transport with
  | none =>
      simp only [readResponseLine, wp_bind, wp_onTransport_none ht]
      rintro ⟨t, -, -, -, -, ht', -⟩
      rw [ht] at ht'
      cases ht'
  | some t =>
      -- A read determines the line, so the one that has been read speaks for every candidate.
      have hno : ∀ {e bytes t'}, t.readUntilLf w.nextEvent = (e, bytes, t') →
          (e ≠ .done ∨ ∀ line status, Text.fromUtf8 bytes = some line → line ≠ "" →
            parseResponseLine line ≠ .ok status) → ¬ StatusReadable w := by
        rintro e bytes t' hread hbad ⟨t₀, bytes₀, t₁, line, status, ht₀, hread₀, hline, hne, hparse⟩
        obtain rfl : t = t₀ := Option.some.inj (ht.symm.trans ht₀)
        rw [hread] at hread₀
        cases hread₀
        rcases hbad with h | h
        · exact h rfl
        · exact h line status hline hne hparse
      rcases hread : t.readUntilLf w.nextEvent with ⟨e, bytes, t'⟩
      simp only [readResponseLine, wp_bind, wp_onTransport ht, hread]
      cases e with
      | failed error => exact hno hread (.inl (by simp))
      | elapsed => exact hno hread (.inl (by simp))
      | dropped => trivial
      | done =>
          simp only [settle, wp_pure]
          split
          · rename_i hnone
            exact hno hread (.inr fun line _ hline => by rw [hnone] at hline; cases hline)
          · rename_i line hline
            split
            · rename_i hempty
              refine hno hread (.inr fun line' _ hline' hne => absurd ?_ hne)
              rw [← Option.some.inj (hline.symm.trans hline')]
              simpa using hempty
            · rename_i hne
              rw [wp_ofExcept]
              refine ⟨fun status hparse => ?_, fun error hparse => ?_⟩
              · exact ⟨t, bytes, t', line, status, ht, hread, hline, by simpa using hne, hparse⟩
              · refine hno hread (.inr fun line' status hline' _ hparse' => ?_)
                rw [← Option.some.inj (hline.symm.trans hline'), hparse] at hparse'
                cases hparse'

theorem exists_nextStatus (h : StatusReadable w) : ∃ status t', NextStatus w status t' := by
  obtain ⟨t, bytes, t', line, status, h⟩ := h
  exact ⟨status, t', t, bytes, line, h⟩

theorem wp_readResponseLine_of_next (h : NextStatus w status t') :
    wp readResponseLine
      ⟨fun r w' => r = status ∧ w' = (w.setTransport t').tick, fun _ _ => False,
        fun _ => False⟩ w := by
  obtain ⟨t, bytes, line, ht, hread, hline, hne, hparse⟩ := h
  simp only [readResponseLine, wp_bind, wp_onTransport ht, hread, settle, wp_pure, hline]
  rw [if_neg (by simpa using hne), hparse]
  exact ⟨rfl, rfl⟩

/-- Reading a status line reads the one that is next. -/
theorem wp_readResponseLine_next :
    wp readResponseLine
      ⟨fun status w' => ∃ t', NextStatus w status t' ∧ w' = (w.setTransport t').tick,
        fun _ _ => ¬ StatusReadable w, fun _ => True⟩ w := by
  refine wp_mono (wp_and (wp_readResponseLine_iff w) (wp_run readResponseLine w)) ?_
    (fun _ _ h => h.1) (fun _ _ => trivial)
  rintro status w' ⟨hreadable, hrun⟩
  obtain ⟨status', t', hnext⟩ := exists_nextStatus hreadable
  obtain ⟨rfl, rfl⟩ := wp_ok (wp_readResponseLine_of_next hnext) hrun
  exact ⟨t', hnext, rfl⟩

theorem readResponseLine_eq_ok_iff {w' : World π} :
    readResponseLine w = .ok status w' ↔
      ∃ t, NextStatus w status t ∧ w' = (w.setTransport t).tick := by
  constructor
  · exact wp_ok wp_readResponseLine_next
  · rintro ⟨t, hnext, rfl⟩
    obtain ⟨_, _, hrun, rfl, rfl⟩ := exists_ok_of_wp (wp_readResponseLine_of_next hnext)
    exact hrun

end StatusLines

/-! ### What is on the stream -/

section Streams

variable {π : Type} {w : World π} {t : Transport π}

theorem stream_take (t : Transport π) (n : Nat) :
    (t.take n).taken ++ (t.take n).unread = t.taken ++ t.unread := by
  simp [Transport.take]

theorem stream_awaitLine (t : Transport π) :
    t.awaitLine.2.2.taken ++ t.awaitLine.2.2.unread = t.taken ++ t.unread := by
  unfold Transport.awaitLine
  split
  · exact stream_take t _
  · exact stream_take t _

/-- A wait for a line takes the line off the front of the stream. -/
theorem stream_readUntilLf (t : Transport π) (ev : IoEvent) :
    (t.readUntilLf ev).2.1 ++ (t.readUntilLf ev).2.2.unread = t.unread := by
  have hstream : (t.readUntilLf ev).2.2.taken ++ (t.readUntilLf ev).2.2.unread =
      t.taken ++ t.unread := by
    cases ev with
    | ready => exact stream_awaitLine t
    | eof n => exact stream_awaitLine (t.endStream n)
    | fails error n => exact stream_take t _
    | elapsed n => exact stream_take t _
    | dropped n => exact stream_take t _
  rw [taken_readUntilLf, List.append_assoc] at hstream
  exact List.append_cancel_left hstream

theorem isTerminator_ne_nil {line : Bytes} (h : isTerminator line = true) : line ≠ [] := by
  rintro rfl
  cases h

/-- How a block begins. -/
theorem nextBlock_iff {events : List IoEvent} {e : IoEnd} {line raw : Bytes} {t' : Transport π}
    (hread : t.readUntilLf (events.headD .ready) = (e, line, t')) :
    NextBlock t events raw ↔ e = .done ∧ line ≠ [] ∧
      if isTerminator line then raw = []
      else ∃ rest, raw = unstuff line ++ rest ∧ NextBlock t' events.tail rest := by
  constructor
  · intro h
    cases h with
    | terminator hread' hterm =>
        rw [hread] at hread'
        cases hread'
        exact ⟨rfl, isTerminator_ne_nil hterm, by rw [if_pos hterm]⟩
    | line hread' hne hterm hrest =>
        rw [hread] at hread'
        cases hread'
        refine ⟨rfl, hne, ?_⟩
        rw [hterm, if_neg Bool.false_ne_true]
        exact ⟨_, rfl, hrest⟩
  · rintro ⟨rfl, hne, h⟩
    split at h
    · rename_i hterm
      subst h
      exact .terminator hread hterm
    · rename_i hterm
      obtain ⟨rest, rfl, hrest⟩ := h
      exact .line hread hne (Bool.eq_false_iff.mpr hterm) hrest

theorem wp_readBodyLine_next {timedOut : NntpError} {e : IoEnd} {line : Bytes} {t' : Transport π}
    (ht : w.conn.transport = some t) (hread : t.readUntilLf w.nextEvent = (e, line, t')) :
    wp (readBodyLine timedOut)
      ⟨fun l w' => e = .done ∧ l = line ∧ w'.conn.transport = some t' ∧ w'.events = w.events.tail,
        fun _ _ => e ≠ .done, fun _ => e ≠ .done⟩ w := by
  have ht' : (w.setLineScratch []).conn.transport = some t := ht
  have hread' : t.readUntilLf (w.setLineScratch []).nextEvent = (e, line, t') := hread
  simp only [readBodyLine, wp_bind, wp_modify, wp_onTransport ht', hread']
  cases e with
  | done => exact ⟨rfl, rfl, rfl, rfl⟩
  | failed error => exact IoEnd.noConfusion
  | elapsed => exact IoEnd.noConfusion
  | dropped => exact IoEnd.noConfusion

/-- The loop returns the block that is next, by induction on the fuel. A line that is
not the last takes a byte off the stream, which the fuel pays for. -/
theorem wp_multilineLoop_next (fuel : Nat) (out : Bytes) {w : World π} {t : Transport π}
    (ht : w.conn.transport = some t) (hfuel : t.unread.length < fuel) :
    wp (multilineLoop none fuel out)
      ⟨fun body _ => ∃ block, body = out ++ block ∧ ∀ raw, NextBlock t w.events raw ↔ raw = block,
        fun _ _ => ∀ raw, ¬ NextBlock t w.events raw,
        fun _ => ∀ raw, ¬ NextBlock t w.events raw⟩ w := by
  induction fuel generalizing out w t with
  | zero => exact absurd hfuel (Nat.not_lt_zero _)
  | succ fuel ih =>
      obtain ⟨e, line, t', hread⟩ : ∃ e line t', t.readUntilLf w.nextEvent = (e, line, t') :=
        ⟨_, _, _, rfl⟩
      have hundone : e ≠ .done → ∀ raw, ¬ NextBlock t w.events raw :=
        fun he raw h => he ((nextBlock_iff hread).mp h).1
      have hstream := stream_readUntilLf t w.nextEvent
      rw [hread] at hstream
      rw [multilineLoop]
      refine wp_seq (wp_readBodyLine_next ht hread) ?_ (fun _ _ h => hundone h)
        (fun _ h => hundone h)
      rintro line w' ⟨rfl, rfl, ht', hevents⟩
      split
      · rename_i hempty
        exact fun raw h => ((nextBlock_iff hread).mp h).2.1 (List.isEmpty_iff.mp hempty)
      rename_i hne
      have hne' : line ≠ [] := fun h => hne (List.isEmpty_iff.mpr h)
      split
      · rename_i hterm
        refine ⟨[], (List.append_nil out).symm, fun raw => ?_⟩
        rw [nextBlock_iff hread, if_pos hterm]
        simp [hne']
      rename_i hterm
      have hlen := congrArg List.length hstream
      rw [List.length_append] at hlen
      have hpos := List.length_pos_iff.mpr hne'
      rw [exceeds, Option.any_none, if_neg Bool.false_ne_true]
      have hrest : ∀ raw, NextBlock t w.events raw ↔
          ∃ rest, raw = unstuff line ++ rest ∧ NextBlock t' w'.events rest := by
        intro raw
        rw [nextBlock_iff hread, if_neg hterm, hevents]
        simp [hne']
      have hnone : (∀ raw, ¬ NextBlock t' w'.events raw) → ∀ raw, ¬ NextBlock t w.events raw := by
        intro hno raw h
        obtain ⟨rest, -, hblock⟩ := (hrest raw).mp h
        exact hno rest hblock
      refine wp_mono (ih (out ++ unstuff line) ht' (by dsimp only at hlen; omega)) ?_
        (fun _ _ => hnone) (fun _ => hnone)
      rintro body w'' ⟨block, rfl, hblock⟩
      refine ⟨unstuff line ++ block, List.append_assoc _ _ _, fun raw => ?_⟩
      rw [hrest]
      constructor
      · rintro ⟨rest, rfl, h⟩
        rw [(hblock rest).mp h]
      · rintro rfl
        exact ⟨block, rfl, (hblock block).mpr rfl⟩

/-- What `read_multiline_body` returns is the block that is next. -/
theorem wp_readMultilineBody_next (ht : w.conn.transport = some t) :
    wp readMultilineBody
      ⟨fun body _ => ∀ raw, NextBlock t w.events raw ↔ raw = body,
        fun _ _ => ∀ raw, ¬ NextBlock t w.events raw,
        fun _ => ∀ raw, ¬ NextBlock t w.events raw⟩ w := by
  have hfuel : t.unread.length < w.lineFuel := by
    rw [World.lineFuel, ht]
    exact Nat.lt_succ_self _
  refine wp_mono (wp_multilineLoop_next w.lineFuel [] (w := { w with conn := { w.conn with
    bodyPool := w.conn.bodyPool.tail } }) ht hfuel) ?_ (fun _ _ h => h) (fun _ h => h)
  rintro body w' ⟨block, rfl, hblock⟩
  exact hblock

end Streams

/-! ### What reading does not read -/

/-- `f i` overwrites a part of the connection that no line read touches. -/
structure OffStream {π ι : Type} (f : ι → World π → World π) : Prop where
  transport : ∀ i w, (f i w).conn.transport = w.conn.transport
  events : ∀ i w, (f i w).events = w.events
  setTransport : ∀ i w t, (f i w).setTransport t = f i (w.setTransport t)
  setLineScratch : ∀ i w line, (f i w).setLineScratch line = f i (w.setLineScratch line)
  tick : ∀ i w, (f i w).tick = f i w.tick

section Reads

variable {π ι : Type} {f : ι → World π → World π}

theorem oblivious_onTransport {α : Type} (hf : OffStream f)
    (io : Transport π → IoEvent → α × Transport π) :
    Oblivious f (onTransport io : Nntp π α) := by
  intro w i
  refine ⟨i, ?_⟩
  rw [onTransport, onTransport, hf.transport]
  cases w.conn.transport with
  | none => rfl
  | some t =>
      have hevent : (f i w).nextEvent = w.nextEvent := by
        rw [World.nextEvent, hf.events]
        rfl
      show Outcome.ok _ ((f i w).setTransport _).tick = Outcome.ok _ (f i _)
      rw [hevent, hf.setTransport, hf.tick]

theorem oblivious_settle (timedOut : NntpError) (e : IoEnd) :
    Oblivious f (settle timedOut e : Nntp π Unit) := by
  cases e with
  | done => exact oblivious_pure ()
  | failed error => exact oblivious_fail _
  | elapsed => exact oblivious_fail _
  | dropped => exact oblivious_drop

theorem oblivious_readBodyLine (hf : OffStream f) (timedOut : NntpError) :
    Oblivious f (readBodyLine timedOut : Nntp π Bytes) :=
  oblivious_bind (oblivious_modify fun w i => ⟨i, hf.setLineScratch i w []⟩) fun _ =>
    oblivious_bind (oblivious_onTransport hf _) fun r =>
      oblivious_bind (oblivious_modify fun w i => ⟨i, hf.setLineScratch i w r.2⟩) fun _ =>
        oblivious_bind (oblivious_settle _ _) fun _ => oblivious_pure _

theorem oblivious_multilineLoop (hf : OffStream f) {maxBytes : Option Nat} (fuel : Nat)
    (out : Bytes) : Oblivious f (multilineLoop maxBytes fuel out : Nntp π Bytes) := by
  induction fuel generalizing out with
  | zero => exact oblivious_fail _
  | succ fuel ih =>
      rw [multilineLoop]
      refine oblivious_bind (oblivious_readBodyLine hf _) fun line => ?_
      split
      · exact oblivious_fail _
      split
      · exact oblivious_pure _
      split
      · exact oblivious_fail _
      · exact ih _

end Reads

section Flag

variable {π : Type} {w w₁ : World π}

theorem offStream_setState : OffStream (World.setState : ConnectionState → World π → World π) where
  transport _ _ := rfl
  events _ _ := rfl
  setTransport _ _ _ := rfl
  setLineScratch _ _ _ := rfl
  tick _ _ := rfl

theorem oblivious_setState (s : ConnectionState) :
    Oblivious World.setState (setState s : Nntp π Unit) :=
  oblivious_modify fun _ _ => ⟨s, rfl⟩

theorem oblivious_readResponseLine :
    Oblivious World.setState (readResponseLine : Nntp π NntpResponse) := by
  refine oblivious_bind (oblivious_onTransport offStream_setState _) fun r =>
    oblivious_bind (oblivious_settle _ _) fun _ => ?_
  split
  · exact oblivious_fail _
  · split
    · exact oblivious_fail _
    · exact oblivious_ofExcept _

theorem oblivious_readMultilineBody :
    Oblivious World.setState (readMultilineBody : Nntp π Bytes) := by
  refine oblivious_bind ?_ fun _ => ?_
  · exact oblivious_get_bind (fun _ _ => rfl) fun _ =>
      oblivious_bind (oblivious_modify fun _ s => ⟨s, rfl⟩) fun _ => oblivious_pure _
  · exact oblivious_get_bind (fun _ _ => rfl) fun _ => oblivious_multilineLoop offStream_setState _ _

theorem readMultilineBody_setState (s : ConnectionState) (w : World π) :
    readMultilineBody (w.setState s) = (readMultilineBody w).mapState (World.setState s) :=
  oblivious_readMultilineBody.apply (P := fun s => OfStatus fun s' _ => s' = s)
    (fun _ => preserves_readMultilineBody) (fun _ _ => rfl) (fun _ _ _ h => h.symm) s w

theorem status_readMultilineBody {raw : Bytes}
    (h : readMultilineBody w = .ok raw w₁) :
    w₁.conn.state = w.conn.state ∧ w₁.conn.compressEnabled = w.conn.compressEnabled := by
  have hstate : Preserves (OfStatus fun s _ => s = w.conn.state) (readMultilineBody : Nntp π _) :=
    preserves_readMultilineBody
  have hflag : Preserves (OfCompression fun b => b = w.conn.compressEnabled)
      (readMultilineBody : Nntp π _) := preserves_readMultilineBody
  exact ⟨wp_ok (hstate w rfl) h, wp_ok (hflag w rfl) h⟩

theorem orError_of_ok {α : Type} {x : Nntp π α} {a : α} (h : x w = .ok a w₁) :
    orError x w = .ok a w₁ := Comp.inspectErr_of_ok h

theorem orError_of_err {α : Type} {x : Nntp π α} {e : NntpError} (h : x w = .err e w₁) :
    orError x w = .err e (w₁.setState .error) := Comp.inspectErr_of_err h

theorem orError_of_dropped {α : Type} {x : Nntp π α} (h : x w = .dropped w₁) :
    orError x w = .dropped w₁ := Comp.inspectErr_of_dropped h

theorem requireReady_of_ready {operation : String} (h : w.conn.state = .ready) :
    requireReady operation w = .ok () w := by
  show (if w.conn.state ≠ .ready then _ else _ : Nntp π Unit) w = _
  rw [if_neg (not_not_intro h)]
  rfl

end Flag

/-! ### One exchange -/

section Exchange

variable {π : Type} [Peer π] {w : World π} {cmd : String} {status : NntpResponse}

def ask (cmd : String) : Nntp π NntpResponse := do
  sendCommand cmd
  readResponseLine

theorem request_eq (cmd : String) :
    (request cmd : Nntp π _) = (do setState .busy; orError (ask cmd)) := by
  rw [request, ask, orError, orError, orError, Comp.inspectErr_bind]

theorem oblivious_sendCommand (cmd : String) :
    Oblivious World.setState (sendCommand cmd : Nntp π Unit) := by
  refine oblivious_bind ?_ fun _ => ?_
  · exact oblivious_bind (oblivious_onTransport offStream_setState _) fun _ =>
      oblivious_get_bind (fun _ _ => rfl) fun _ => oblivious_settle _ _
  · exact oblivious_bind (oblivious_onTransport offStream_setState _) fun _ =>
      oblivious_get_bind (fun _ _ => rfl) fun _ => oblivious_settle _ _

theorem preserves_ask {P : World π → Prop} [IoStable P] (cmd : String) :
    Preserves P (ask cmd : Nntp π _) :=
  preserves_bind (preserves_sendCommand cmd) fun _ => preserves_readResponseLine

/-- An exchange runs the same in every state, and leaves it. -/
theorem ask_setState (s : ConnectionState) (w : World π) :
    ask cmd (w.setState s) = (ask cmd w).mapState (World.setState s) := by
  have hobl : Oblivious World.setState (ask cmd : Nntp π _) :=
    oblivious_bind (oblivious_sendCommand cmd) fun _ => oblivious_readResponseLine
  exact hobl.apply (P := fun s => OfStatus fun s' _ => s' = s) (fun _ => preserves_ask cmd)
    (fun _ _ => rfl) (fun _ _ _ h => h.symm) s w

theorem request_of_ok {w₁ : World π} (h : ask cmd w = .ok status w₁) :
    request cmd w = .ok status (w₁.setState .busy) := by
  rw [request_eq, Comp.bind_apply]
  show orError (ask cmd) (w.setState .busy) = _
  rw [orError, Comp.inspectErr, ask_setState, h]
  rfl

theorem request_of_err {w₁ : World π} {e : NntpError} (h : ask cmd w = .err e w₁) :
    request cmd w = .err e (w₁.setState .error) := by
  rw [request_eq, Comp.bind_apply]
  show orError (ask cmd) (w.setState .busy) = _
  rw [orError, Comp.inspectErr, ask_setState, h]
  rfl

theorem request_of_dropped {w₁ : World π} (h : ask cmd w = .dropped w₁) :
    request cmd w = .dropped (w₁.setState .busy) := by
  rw [request_eq, Comp.bind_apply]
  show orError (ask cmd) (w.setState .busy) = _
  rw [orError, Comp.inspectErr, ask_setState, h]
  rfl

theorem wp_sendCommand_sent (cmd : String) (w : World π) :
    wp (sendCommand cmd)
      ⟨fun _ w' => Sent (commandLine cmd) w w', fun _ _ => True, fun _ => True⟩ w := by
  cases ht : w.conn.transport with
  | none =>
      simp only [sendCommand, sendCommandNoFlush, wp_bind, wp_onTransport_none ht]
  | some t =>
      simp only [sendCommand, sendCommandNoFlush, flush, wp_bind, wp_onTransport ht, wp_get]
      cases hwrite : t.writeAll (Text.utf8 (cmd ++ "\r\n")) w.nextEvent with
      | mk e t₁ =>
          cases e with
          | failed error => trivial
          | elapsed => trivial
          | dropped => trivial
          | done =>
              have ht₁ : (w.setTransport t₁).tick.conn.transport = some t₁ := rfl
              simp only [settle, wp_pure, wp_bind, wp_onTransport ht₁, wp_get]
              cases hflush : t₁.flush w.tick.nextEvent with
              | mk e t₂ =>
                  have hflush' : t₁.flush (w.setTransport t₁).tick.nextEvent = (e, t₂) := hflush
                  rw [hflush']
                  cases e with
                  | failed error => trivial
                  | elapsed => trivial
                  | dropped => trivial
                  | done => exact ⟨t, t₁, t₂, ht, hwrite, hflush, rfl⟩

theorem wp_sendCommand_of_sent {w' : World π} (h : Sent (commandLine cmd) w w') :
    wp (sendCommand cmd) ⟨fun _ w₁ => w₁ = w', fun _ _ => False, fun _ => False⟩ w := by
  obtain ⟨t, t₁, t₂, ht, hwrite, hflush, rfl⟩ := h
  rw [commandLine] at hwrite
  have ht₁ : (w.setTransport t₁).tick.conn.transport = some t₁ := rfl
  have hflush' : t₁.flush (w.setTransport t₁).tick.nextEvent = (.done, t₂) := hflush
  simp only [sendCommand, sendCommandNoFlush, flush, wp_bind, wp_onTransport ht, hwrite, wp_get,
    settle, wp_pure, wp_onTransport ht₁, hflush']
  rfl

/-- The exchange succeeds where the command is sent and a status line comes. -/
theorem ask_eq_ok_iff {w' : World π} : ask cmd w = .ok status w' ↔ Queried cmd w status w' := by
  constructor
  · intro h
    have hask : wp (ask cmd) ⟨Queried cmd w, fun _ _ => True, fun _ => True⟩ w := by
      refine wp_seq (wp_sendCommand_sent cmd w) (fun _ w₁ hsent => ?_) (fun _ _ h => h)
        (fun _ h => h)
      refine wp_mono wp_readResponseLine_next ?_ (fun _ _ _ => trivial) (fun _ h => h)
      rintro status w' ⟨t, hnext, rfl⟩
      exact ⟨w₁, t, hsent, hnext, rfl⟩
    exact wp_ok hask h
  · rintro ⟨w₁, t, hsent, hnext, rfl⟩
    have hask : wp (ask cmd)
        ⟨fun s w' => s = status ∧ w' = (w₁.setTransport t).tick, fun _ _ => False,
          fun _ => False⟩ w := by
      refine wp_seq (wp_sendCommand_of_sent hsent) ?_ (fun _ _ h => h) (fun _ h => h)
      rintro _ _ rfl
      exact wp_readResponseLine_of_next hnext
    obtain ⟨_, _, hrun, rfl, rfl⟩ := exists_ok_of_wp hask
    exact hrun

theorem exists_transport_of_ask {w₁ : World π} (h : ask cmd w = .ok status w₁) :
    ∃ t, w₁.conn.transport = some t := by
  obtain ⟨_, t, -, -, rfl⟩ := ask_eq_ok_iff.mp h
  exact ⟨t, rfl⟩

theorem Queried.compressEnabled {w' : World π} (h : Queried cmd w status w') :
    w'.conn.compressEnabled = w.conn.compressEnabled := by
  obtain ⟨_, _, ⟨_, _, _, _, _, _, rfl⟩, _, rfl⟩ := h
  rfl

end Exchange

end NzbNntp
