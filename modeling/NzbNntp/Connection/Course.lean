import NzbNntp.Connection.Quiet

/-!
What the network has in store for a connection: where its stream ends, and what
happens to the operations to come. A course says, before anything is run, which
operations complete and how much of a reply arrives; the rules here relate it to
the operations.
-/

namespace NzbNntp

open Interruptible Delimited

/-- The end of the stream, and the events of the operations to come. -/
structure Course where
  cut : Option Nat
  events : List IoEvent

namespace Course

def operation (c : Course) : Option Course :=
  match c.events.headD .ready with
  | .ready => some { c with events := c.events.tail }
  | .eof n => some { cut := some ((c.cut.map (min n)).getD n), events := c.events.tail }
  | _ => none

def operations : Nat → Course → Option Course
  | 0, c => some c
  | n + 1, c => c.operation.bind (operations n)

def past (b : Bytes) (c : Course) : Course := { c with cut := c.cut.map (· - b.length) }

/-- The lines that are read one after the other, each as far as it arrives, if the
reads all complete. -/
def reads : List WireLine → Course → Option (List Bytes × Course)
  | [], c => some ([], c)
  | l :: rest, c =>
      c.operation.bind fun c => ((c.past l.full).reads rest).map fun r =>
        (arrives l.full c.cut :: r.1, r.2)

theorem operations_succ (n : Nat) (c : Course) :
    c.operations (n + 1) = (c.operations n).bind operation := by
  induction n generalizing c with
  | zero =>
      rw [operations, operations, Option.bind_some]
      cases c.operation <;> rfl
  | succ n ih =>
      rw [operations]
      cases hop : c.operation with
      | none => simp [operations, hop]
      | some c' => simpa [operations, hop] using ih c'

/-- Whether a read that is next brings all of the line or a part, if it completes. -/
def nextLine (l : WireLine) (c : Course) : Option Bytes :=
  c.operation.map fun c' => arrives l.full c'.cut

theorem reads_cons {l : WireLine} {rest : List WireLine} {lines : List Bytes} {c c' : Course} :
    c.reads (l :: rest) = some (lines, c') ↔ ∃ c₁ later, c.operation = some c₁ ∧
      (c₁.past l.full).reads rest = some (later, c') ∧ lines = arrives l.full c₁.cut :: later := by
  constructor
  · intro h
    rw [reads] at h
    obtain ⟨c₁, hop, h⟩ := Option.bind_eq_some_iff.mp h
    obtain ⟨r, hr, h⟩ := Option.map_eq_some_iff.mp h
    obtain ⟨rfl, rfl⟩ := Prod.mk.inj h
    exact ⟨c₁, r.1, hop, hr, rfl⟩
  · rintro ⟨c₁, later, hop, hreads, rfl⟩
    rw [reads, hop, Option.bind_some, hreads]
    rfl

end Course

section Rules

variable {π : Type} {w : World π} {t : Transport π} {c : Course}

def Transport.endingAt (t : Transport π) (cut : Option Nat) : Transport π := { t with cut }

structure OnCourse (c : Course) (t : Transport π) (w : World π) : Prop where
  events : w.events = c.events
  transport : w.conn.transport = some t
  cut : t.cut = c.cut

/-- An operation that completes finds the stream as the course has it. -/
structure Completes [Peer π] (t : Transport π) (e : IoEvent) (cut : Option Nat) : Prop where
  writeAll : ∀ data, t.writeAll data e = (.done, (t.endingAt cut).deliver data)
  flush : t.flush e = (.done, t.endingAt cut)
  readUntilLf : t.readUntilLf e = (t.endingAt cut).awaitLine

theorem OnCourse.next [Peer π] (h : OnCourse c t w) :
    (∃ c', c.operation = some c' ∧ w.events.tail = c'.events ∧ Completes t w.nextEvent c'.cut) ∨
      c.operation = none ∧ w.nextEvent.completes = false := by
  obtain ⟨hevents, -, hcut⟩ := h
  have hnext : w.nextEvent = c.events.headD .ready := by rw [World.nextEvent, hevents]
  rw [hnext, hevents, Course.operation]
  cases c.events.headD .ready with
  | ready =>
      have hend : t.endingAt c.cut = t := by rw [Transport.endingAt, ← hcut]
      refine .inl ⟨_, rfl, rfl, ?_⟩
      rw [hend.symm]
      exact ⟨fun _ => rfl, rfl, rfl⟩
  | eof n =>
      have hend : t.endStream n = t.endingAt (some ((c.cut.map (min n)).getD n)) := by
        rw [Transport.endingAt, Transport.endStream, hcut]
      refine .inl ⟨_, rfl, rfl, fun data => ?_, ?_, ?_⟩
      · rw [Transport.writeAll, hend]
      · rw [Transport.flush, hend]
      · rw [Transport.readUntilLf, hend]
  | fails error n => exact .inr ⟨rfl, rfl⟩
  | elapsed n => exact .inr ⟨rfl, rfl⟩
  | dropped n => exact .inr ⟨rfl, rfl⟩

/-- The command is written, or a part of it. -/
theorem wp_sendCommandNoFlush_course [Peer π] {cmd : String} (h : OnCourse c t w) :
    wp (sendCommandNoFlush cmd)
      ⟨fun _ w' => ∃ c', c.operation = some c' ∧ w'.conn.state = w.conn.state ∧
          OnCourse c' ((t.endingAt c'.cut).deliver (commandLine cmd)) w',
        fun _ w' => c.operation = none ∧ ∃ n,
          w'.conn.transport = some (t.deliver ((commandLine cmd).take n)),
        fun w' => ∃ n, w'.conn.transport = some (t.deliver ((commandLine cmd).take n))⟩ w := by
  simp only [sendCommandNoFlush, wp_bind, wp_onTransport h.transport, wp_get]
  rcases h.next with ⟨c', hop, hevents, hio⟩ | ⟨hop, hfails⟩
  · rw [hio.writeAll]
    exact ⟨c', hop, rfl, hevents, rfl, rfl⟩
  · cases hev : w.nextEvent with
    | ready | eof => rw [hev] at hfails; cases hfails
    | fails error n => exact ⟨hop, n, rfl⟩
    | elapsed n => exact ⟨hop, n, rfl⟩
    | dropped n => exact ⟨n, rfl⟩

theorem wp_flush_course [Peer π] (h : OnCourse c t w) :
    wp flush
      ⟨fun _ w' => ∃ c', c.operation = some c' ∧ w'.conn.state = w.conn.state ∧
          OnCourse c' (t.endingAt c'.cut) w',
        fun _ w' => c.operation = none ∧ w'.conn.transport = some t,
        fun w' => w'.conn.transport = some t⟩ w := by
  simp only [flush, wp_bind, wp_onTransport h.transport, wp_get]
  rcases h.next with ⟨c', hop, hevents, hio⟩ | ⟨hop, hfails⟩
  · rw [hio.flush]
    exact ⟨c', hop, rfl, hevents, rfl, rfl⟩
  · cases hev : w.nextEvent with
    | ready | eof => rw [hev] at hfails; cases hfails
    | fails error n => exact ⟨hop, rfl⟩
    | elapsed n => exact ⟨hop, rfl⟩
    | dropped n => exact rfl

theorem OnCourse.stream {c' : Course} {b later : Bytes} [Peer π] (h : OnCourse c t w)
    (hop : c.operation = some c') (hstream : Ended t ∨ t.unread = b ++ later) :
    Ended (t.endingAt c'.cut) ∨ (t.endingAt c'.cut).unread = b ++ later := by
  refine hstream.imp (fun hended => ?_) fun hunread => hunread
  have hcut := h.cut
  rw [Ended] at hended
  rw [hended] at hcut
  rw [Course.operation, ← hcut] at hop
  split at hop
  · exact (congrArg Course.cut (Option.some.inj hop)).symm
  · exact (congrArg Course.cut (Option.some.inj hop)).symm.trans (by simp)
  · cases hop

/-- A status line that is next on the stream: it is read as far as it arrives, or
the read is given up with a part of it. -/
theorem wp_readResponseLine_course [Peer π] {l : WireLine} {later : Bytes} (h : OnCourse c t w)
    (hstream : Ended t ∨ t.unread = l.full ++ later) :
    wp readResponseLine
      ⟨fun status w' => ∃ c', c.operation = some c' ∧
          statusOf (arrives l.full c'.cut) = .ok status ∧ w'.conn.state = w.conn.state ∧
          OnCourse (c'.past l.full) ((t.endingAt c'.cut).take (arrives l.full c'.cut).length) w',
        fun _ w' => (∀ line, c.nextLine l = some line → ∃ e, statusOf line = .error e) ∧
          ∃ cut n, w'.conn.transport = some ((t.endingAt cut).take n),
        fun w' => ∃ cut n, w'.conn.transport = some ((t.endingAt cut).take n)⟩ w := by
  simp only [readResponseLine, wp_bind, wp_onTransport h.transport]
  rcases h.next with ⟨c', hop, hevents, hio⟩ | ⟨hop, hfails⟩
  · have hstream' := h.stream hop hstream
    obtain ⟨hfirst, hline⟩ := firstLine_available hstream'
    have hpos : 0 < l.full.length := by simp [Piece.full]
    have hawait := awaitLine_firstLine hline
    rw [hfirst] at hawait
    rw [hio.readUntilLf, hawait]
    -- What is read is `nextLine`, so a line that is no status settles the error case.
    have hfail : ∀ e, statusOf (arrives l.full c'.cut) = .error e →
        ∀ line, c.nextLine l = some line → ∃ e, statusOf line = .error e := by
      intro e he line hline
      rw [Course.nextLine, hop] at hline
      exact ⟨e, (congrArg statusOf (Option.some.inj hline)).symm.trans he⟩
    simp only [settle, wp_pure]
    split
    · rename_i hnone
      have hstatus : statusOf (arrives l.full c'.cut) =
          .error (.io ⟨.invalidData, "stream did not contain valid UTF-8"⟩) := by
        change Text.fromUtf8 (arrives l.full c'.cut) = none at hnone
        rw [statusOf, hnone]
      exact ⟨hfail _ hstatus, c'.cut, _, rfl⟩
    · rename_i text htext
      have hstatus : statusOf (arrives l.full c'.cut) =
          if text.isEmpty then .error (.connection "Server closed connection")
          else parseResponseLine text := by
        change Text.fromUtf8 (arrives l.full c'.cut) = some text at htext
        rw [statusOf, htext]
      split
      · rename_i hempty
        rw [if_pos hempty] at hstatus
        exact ⟨hfail _ hstatus, c'.cut, _, rfl⟩
      · rename_i hnonempty
        rw [if_neg hnonempty] at hstatus
        rw [wp_ofExcept]
        exact ⟨fun r hr => ⟨c', hop, hstatus.trans hr, rfl, hevents, rfl,
            (take_arrives hpos hstream').1⟩,
          fun e he => ⟨hfail e (hstatus.trans he), c'.cut, _, rfl⟩⟩
  · have hgone : ∀ line, c.nextLine l = some line → ∃ e, statusOf line = .error e := by
      intro line hline
      rw [Course.nextLine, hop] at hline
      cases hline
    cases hev : w.nextEvent with
    | ready | eof => rw [hev] at hfails; cases hfails
    | fails error n => exact ⟨hgone, t.cut, _, rfl⟩
    | elapsed n => exact ⟨hgone, t.cut, _, rfl⟩
    | dropped n => exact ⟨t.cut, _, rfl⟩

end Rules

end NzbNntp
