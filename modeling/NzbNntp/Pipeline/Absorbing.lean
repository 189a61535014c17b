import NzbNntp.Pipeline.History

/-!
The state `Error` over the life of a connection. An operation that finds the
connection in any state but `Ready` leaves it so, with two exceptions: a `connect`,
from its login on, and a `StatPipeline::execute` with ids queued, which does not look
at the state before it sets it.
-/

namespace NzbNntp

open Interruptible Chunks

variable {π : Type} [Peer π]

section Connecting

variable {config : ServerConfig} {dial : Dial π} {w : World π}

/-- `P` holds unless the computation returns. -/
def unlessOk {α : Type} (P : World π → Prop) : Post NntpError (World π) α :=
  ⟨fun _ _ => True, fun _ => P, P⟩

omit [Peer π] in
theorem unlessOk_seq {α β : Type} {P : World π → Prop} {x : Nntp π α} {f : α → Nntp π β}
    (hx : Preserves P x) (h : P w) (hf : ∀ a w', P w' → wp (f a) (unlessOk P) w') :
    wp (x >>= f) (unlessOk P) w :=
  wp_seq (hx w h) hf (fun _ _ h => h) (fun _ h => h)

omit [Peer π] in
theorem notReady_failIn {α : Type} {e : NntpError} :
    wp (failIn .error e : Nntp π α) (unlessOk NotReady) w := by
  intro hready
  cases hready

theorem notReady_sendPassword (h : NotReady w) :
    wp (sendPassword config) (unlessOk NotReady) w := by
  rw [sendPassword]
  split
  · exact h
  · refine unlessOk_seq (preserves_sendCommand _) h fun _ w₁ h₁ =>
      unlessOk_seq preserves_readResponseLine h₁ fun resp w₂ _ => ?_
    split
    case h_1 => trivial
    all_goals exact notReady_failIn

theorem notReady_authenticate (h : NotReady w) :
    wp (authenticate config) (unlessOk NotReady) w := by
  have hbegin : Preserves NotReady (setState .authenticating : Nntp π Unit) :=
    preserves_modify fun _ _ => nofun
  refine unlessOk_seq hbegin h fun _ w₁ h₁ => ?_
  split
  · exact h₁
  · refine unlessOk_seq (preserves_sendCommand _) h₁ fun _ w₂ h₂ =>
      unlessOk_seq preserves_readResponseLine h₂ fun resp w₃ h₃ => ?_
    split
    case h_1 => trivial
    case h_2 | h_3 => exact notReady_sendPassword h₃
    all_goals exact notReady_failIn

/-- A session that is not established leaves the connection unready, whatever state it
was in. -/
theorem notReady_establish : wp (establish config dial) (unlessOk NotReady) w := by
  have herror : ∀ w : World π, NotReady w → NotReady (w.setState .error) := fun _ h => h.setError
  have htick : ∀ w : World π, NotReady w → NotReady w.tick := fun _ h => h
  have hopen : Preserves NotReady (openTransport config dial : Nntp π Unit) := by
    rw [openTransport]
    split
    · exact preserves_bind (preserves_tlsHandshake htick herror) fun _ => preserves_modify fun _ h => h
    · exact preserves_modify fun _ h => h
  have hwelcome : Preserves NotReady (readWelcome : Nntp π Unit) := by
    refine preserves_bind preserves_readResponseLine fun resp => ?_
    split
    case h_1 | h_2 => exact preserves_pure ()
    all_goals exact preserves_failError herror _
  have hconnecting : NotReady (w.setState .connecting) := by
    intro hready
    cases hready
  rw [establish]
  apply (wp_bind _ _ w).mpr
  refine unlessOk_seq (preserves_openStream htick herror) hconnecting fun _ w₁ h₁ =>
    unlessOk_seq hopen h₁ fun _ w₂ h₂ => unlessOk_seq hwelcome h₂ fun _ w₃ h₃ => ?_
  split
  · exact notReady_authenticate h₃
  · trivial

/-- A `connect` that does not return leaves the connection unready, unless it is
dropped after its session is established. -/
theorem wp_connect_unready :
    wp (connect config dial)
      ⟨fun _ _ => True, fun _ => NotReady,
        fun w' => NotReady w' ∨ ∃ w₁, establish config dial w = .ok () w₁⟩ w := by
  refine wp_connect ?_ fun _ _ _ => nofun
  refine wp_seq (wp_and (wp_run _ w) notReady_establish) ?_ (fun _ _ h => h.2) (fun _ h => .inl h.2)
  rintro _ w₁ ⟨hestablish, -⟩
  exact wp_mono (neverFails_negotiate w₁) (fun _ _ h => h) (fun _ _ h => h.elim)
    (fun _ _ => .inr ⟨w₁, hestablish⟩)

end Connecting

/-! ### One operation -/

def Op.Reconnects : Op π → World π → Prop
  | .connect config dial, w => ∃ w', NzbNntp.connect config dial w = .ok () w'
  | _, _ => False

/-- An `execute` has nothing queued, or no transport to send it on; a `connect` is not
dropped after its session is established. -/
def Op.Careful : Op π → World π → Prop
  | .execute p, w => p.pending = [] ∨ w.conn.transport = none
  | .connect config dial, w =>
      (NzbNntp.connect config dial w).Returned ∨ ∀ w₁, establish config dial w ≠ .ok () w₁
  | _, _ => True

variable {gz : GzDecoder} {w : World π}

/-- Where there is no transport, an `execute` with something queued fails at its first
command. -/
theorem notReady_execute {p : StatPipeline} (hcareful : p.pending = [] ∨ w.conn.transport = none)
    (h : NotReady w) : NotReady (execute (p, w)).state.2 := by
  have hbatches : wp (statBatches (chunks statBatchSize p.pending) []) (always NotReady) w := by
    rcases hcareful with hnil | hnone
    · rw [hnil]
      exact h
    · have hchunked : Chunked statBatchSize (chunks statBatchSize p.pending) :=
        chunked_chunks (by decide) _
      cases hchunks : chunks statBatchSize p.pending with
      | nil => exact h
      | cons batch later =>
          rw [hchunks] at hchunked
          obtain ⟨mid, rest, rfl⟩ := List.exists_cons_of_ne_nil hchunked.1
          have hbusy : (w.setState .busy).conn.transport = none := hnone
          simp only [statBatches, setState, statSends, orError, sendCommandNoFlush, wp_bind,
            wp_modify, wp_inspectErr, wp_onTransport_none hbusy]
          intro hready
          cases hready
  have hexecute : wp execute (always fun s : StatPipeline × World π => NotReady s.2) (p, w) := by
    simp only [execute, wp_bind, wp_get, wp_modify, wp_onSnd]
    exact hbatches
  exact wp_always_iff.mp hexecute

/-- A careful operation that is not a successful reconnect leaves the connection
unready. -/
theorem Op.notReady (op : Op π) (hcareful : op.Careful w) (hnot : ¬ op.Reconnects w)
    (h : NotReady w) : NotReady (op.run gz w) := by
  have herror : ∀ w : World π, NotReady w → NotReady (w.setState .error) := fun _ h => h.setError
  cases op with
  | connect config dial =>
      have hunready : wp (NzbNntp.connect config dial) _ w := wp_connect_unready
      have hconnect := wp_and hunready (wp_run (NzbNntp.connect config dial) w)
      refine wp_always_iff.mp (wp_mono hconnect ?_ (fun _ _ h => h.1) ?_)
      · rintro ⟨⟩ w' ⟨-, hrun⟩
        exact absurd ⟨w', hrun⟩ hnot
      · rintro w' ⟨hunready | ⟨w₁, hestablish⟩, hdropped⟩
        · exact hunready
        · rcases hcareful with hreturned | hnever
          · rw [hdropped] at hreturned
            exact hreturned.elim
          · exact absurd hestablish (hnever w₁)
  | quit => exact (preserves_quit (P := NotReady) (admits_of_ioStable _) fun _ _ => nofun).state h
  | call c =>
      have hrefused : wp (c.run gz) (always (· = w)) w :=
        wp_mono (c.refuses_run h) (fun _ _ h => h.elim) (fun _ _ h => h) (fun _ h => h.elim)
      rw [Op.run, wp_always_iff.mp hrefused]
      exact h
  | disableCompression => exact h
  | releaseBodyBuffer buf capacity =>
      rw [Op.run, NntpConnection.releaseBodyBuffer]
      split
      · exact h
      · exact h
  | flushSends p => exact notReady_flushSends.state (s := (p, w)) h
  | receiveOne p => exact notReady_receiveOne.state (s := (p, w)) h
  | processAll p =>
      have hloop : Preserves (fun s : Pipeline × World π => NotReady s.2) NzbNntp.processAll :=
        preserves_bind preserves_get fun _ => notReady_processLoop _ _
      exact hloop.state (s := (p, w)) h
  | execute p => exact notReady_execute hcareful h
  | release =>
      rw [Op.run, World.released]
      split
      · exact h
      · exact h

/-! ### Histories -/

def History.Every (gz : GzDecoder) (P : Op π → World π → Prop) : History π → World π → Prop
  | [], _ => True
  | (op, events) :: later, w =>
      P op (w.await events) ∧ History.Every gz P later (op.run gz (w.await events))

/-- **When `Error` is absorbing.** A connection in `Error` is not `Ready` again in any
history of careful operations in which no `connect` returns `Ok`. -/
theorem error_absorbing (gz : GzDecoder) (ops : History π) (w : World π)
    (herror : w.conn.state = .error)
    (hops : History.Every gz (fun op w => op.Careful w ∧ ¬ op.Reconnects w) ops w) :
    (History.run gz ops w).conn.state ≠ .ready := by
  have hnot : NotReady w := fun hready => absurd (herror.symm.trans hready) (by decide)
  clear herror
  induction ops generalizing w with
  | nil => exact hnot
  | cons op ops ih =>
      obtain ⟨⟨hcareful, hreconnect⟩, hlater⟩ := hops
      exact ih _ hlater (op.1.notReady hcareful hreconnect hnot)

theorem error_absorbing_on_ping :
    (History.run rawDecoder [(.call .ping, []), (.quit, [])]
      ((World.readyTo emptyServer).setState .error)).conn.state ≠ .ready :=
  error_absorbing rawDecoder _ _ rfl ⟨⟨trivial, id⟩, ⟨trivial, id⟩, trivial⟩

/-- An `execute` brings a connection back from `Error`. -/
theorem execute_revives :
    ¬ ∀ (gz : GzDecoder) (ops : History ReplyServer) (w : World ReplyServer),
      w.conn.state = .error → History.Every gz (fun op w => ¬ op.Reconnects w) ops w →
      (History.run gz ops w).conn.state ≠ .ready := by
  intro h
  refine h rawDecoder [(.execute { pending := ["a@b"] }, [])]
    ((World.readyTo emptyServer).setState .error) rfl ⟨id, trivial⟩ ?_
  decide +kernel

end NzbNntp
