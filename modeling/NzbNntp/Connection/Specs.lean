import NzbNntp.Connection.Commands

/-!
Rules for the I/O operations. An operation leaves the state machine alone
however it ends; where it succeeds, it has taken the transport one step further.
The rules are stated for assertions of the form `At s P`: the connection is in
state `s` and has a transport that satisfies `P`.
-/

namespace NzbNntp

open Interruptible Delimited

def commandLine (cmd : String) : Bytes := Text.utf8 (cmd ++ "\r\n")

theorem commandLine_eq (cmd : String) : commandLine cmd = Text.utf8 cmd ++ [cr] ++ [lf] := by
  rw [commandLine, Text.utf8_append, List.append_assoc]
  rfl

variable {π : Type}

theorem Transport.deliver_nil [Peer π] (t : Transport π) : t.deliver [] = t := by
  simp [Transport.deliver, Peer.hearAll]

@[simp] theorem Transport.deliver_cut [Peer π] (t : Transport π) (data : Bytes) :
    (t.deliver data).cut = t.cut := rfl

@[simp] theorem Transport.deliver_taken [Peer π] (t : Transport π) (data : Bytes) :
    (t.deliver data).taken = t.taken := rfl

def World.wire (w : World π) : Option Bytes := w.conn.transport.map (·.wire)

def World.taken (w : World π) : Option Bytes := w.conn.transport.map (·.taken)

def At (s : ConnectionState) (P : Transport π → Prop) (w : World π) : Prop :=
  w.conn.state = s ∧ ∃ t, w.conn.transport = some t ∧ P t

def InState (s : ConnectionState) (w : World π) : Prop := w.conn.state = s

/-- A transport property that an ending stream does not change. -/
def EndStable (P : Transport π → Prop) : Prop := ∀ t n, P t → P (t.endStream n)

theorem At.inState {s : ConnectionState} {P : Transport π → Prop} {w : World π}
    (h : At s P w) : InState s w := h.1

theorem At.mono {s : ConnectionState} {P P' : Transport π → Prop} {w : World π}
    (h : At s P w) (hP : ∀ t, P t → P' t) : At s P' w := by
  obtain ⟨hs, t, ht, hPt⟩ := h
  exact ⟨hs, t, ht, hP t hPt⟩

theorem At.setState {s s' : ConnectionState} {P : Transport π → Prop} {w : World π}
    (h : At s P w) : At s' P (w.setState s') := ⟨rfl, h.2⟩

/-- The postcondition of an I/O operation: the state stays `s`, and a success
gives a value `a` with a transport that satisfies `Q a`. -/
def ioPost {α : Type} (s : ConnectionState) (Q : α → Transport π → Prop) :
    Post NntpError (World π) α :=
  ⟨fun a => At s (Q a), fun _ => InState s, InState s⟩

section Operations

variable {s : ConnectionState} {P : Transport π → Prop} {w : World π}

theorem wp_onTransport {α : Type} {io : Transport π → IoEvent → α × Transport π}
    {Q : Post NntpError (World π) α} {t : Transport π} (ht : w.conn.transport = some t) :
    wp (onTransport io) Q w ↔
      Q.ok (io t w.nextEvent).1 (w.setTransport (io t w.nextEvent).2).tick := by
  unfold wp onTransport
  rw [ht]
  rfl

theorem wp_onTransport_none {α : Type} {io : Transport π → IoEvent → α × Transport π}
    {Q : Post NntpError (World π) α} (ht : w.conn.transport = none) :
    wp (onTransport io) Q w ↔ Q.err (.connection "Not connected") w := by
  unfold wp onTransport
  rw [ht]
  rfl

theorem wp_settle {timedOut : NntpError} {e : IoEnd} {Q : Post NntpError (World π) Unit}
    (hdone : e = .done → Q.ok () w) (herr : ∀ error, Q.err error w) (hdrop : Q.dropped w) :
    wp (settle timedOut e) Q w := by
  cases e with
  | done => exact hdone rfl
  | failed error => exact herr _
  | elapsed => exact herr _
  | dropped => exact hdrop

/-- A write that succeeds has delivered its bytes. -/
theorem wp_transportWriteAll [Peer π] {data : Bytes} {Q : Transport π → Prop}
    (hend : EndStable P) (hQ : ∀ t, P t → Q (t.deliver data)) (hw : At s P w) :
    wp (transportWriteAll data) (ioPost s fun _ => Q) w := by
  obtain ⟨hs, t, ht, hP⟩ := hw
  simp only [transportWriteAll, wp_bind, wp_onTransport ht, wp_get]
  refine wp_settle ?_ (fun _ => hs) hs
  intro hdone
  refine ⟨hs, _, rfl, ?_⟩
  cases hev : w.nextEvent with
  | ready => exact hQ t hP
  | eof n => exact hQ _ (hend t n hP)
  | fails error n => rw [hev] at hdone; cases hdone
  | elapsed n => rw [hev] at hdone; cases hdone
  | dropped n => rw [hev] at hdone; cases hdone

theorem wp_flush (hend : EndStable P) (hw : At s P w) :
    wp (flush : Nntp π Unit) (ioPost s fun _ => P) w := by
  obtain ⟨hs, t, ht, hP⟩ := hw
  simp only [flush, wp_bind, wp_onTransport ht, wp_get]
  refine wp_settle ?_ (fun _ => hs) hs
  intro hdone
  refine ⟨hs, _, rfl, ?_⟩
  cases hev : w.nextEvent with
  | ready => exact hP
  | eof n => exact hend t n hP
  | fails error n => rw [hev] at hdone; cases hdone
  | elapsed n => rw [hev] at hdone; cases hdone
  | dropped n => rw [hev] at hdone; cases hdone

theorem wp_sendCommand [Peer π] {cmd : String} {Q : Transport π → Prop} (hend : EndStable P)
    (hend' : EndStable Q) (hQ : ∀ t, P t → Q (t.deliver (Text.utf8 (cmd ++ "\r\n"))))
    (hw : At s P w) : wp (sendCommand cmd) (ioPost s fun _ => Q) w := by
  exact wp_seq (wp_transportWriteAll hend hQ hw) (fun _ _ h => wp_flush hend' h)
    (fun _ _ h => h) (fun _ h => h)

/-- A wait for a line that is not given up has ended as `awaitLine` says. -/
theorem readUntilLf_done {t : Transport π} {ev : IoEvent} {bytes : Bytes} {t' : Transport π}
    (hend : EndStable P) (hP : P t) (h : t.readUntilLf ev = (.done, bytes, t')) :
    ∃ t₀, P t₀ ∧ t₀.awaitLine = (.done, bytes, t') := by
  cases ev with
  | ready => exact ⟨t, hP, h⟩
  | eof n => exact ⟨t.endStream n, hend t n hP, h⟩
  | fails error n => cases h
  | elapsed n => cases h
  | dropped n => cases h

theorem wp_readResponseLine {Q : NntpResponse → Transport π → Prop} (hend : EndStable P)
    (hQ : ∀ t bytes t' line resp, P t → t.awaitLine = (.done, bytes, t') →
      Text.fromUtf8 bytes = some line → line ≠ "" → parseResponseLine line = .ok resp →
      Q resp t')
    (hw : At s P w) : wp (readResponseLine : Nntp π NntpResponse) (ioPost s Q) w := by
  obtain ⟨hs, t, ht, hP⟩ := hw
  simp only [readResponseLine, wp_bind, wp_onTransport ht]
  refine wp_settle ?_ (fun _ => hs) hs
  intro hdone
  obtain ⟨t₀, hP₀, hawait⟩ := readUntilLf_done hend hP (Prod.ext hdone rfl)
  split
  · exact hs
  · rename_i line hline
    split
    · exact hs
    · rename_i hne
      dsimp only
      rw [wp_ofExcept]
      refine ⟨fun resp hresp => ⟨hs, _, rfl, ?_⟩, fun _ _ => hs⟩
      exact hQ t₀ _ _ line resp hP₀ hawait hline (by simpa using hne) hresp

theorem wp_readBodyLine {timedOut : NntpError} {Q : Bytes → Transport π → Prop}
    (hend : EndStable P)
    (hQ : ∀ t bytes t', P t → t.awaitLine = (.done, bytes, t') → Q bytes t')
    (hw : At s P w) : wp (readBodyLine timedOut) (ioPost s Q) w := by
  obtain ⟨hs, t, ht, hP⟩ := hw
  have ht' : (w.setLineScratch []).conn.transport = some t := ht
  simp only [readBodyLine, wp_bind, wp_modify, wp_onTransport ht']
  refine wp_settle ?_ (fun _ => hs) hs
  intro hdone
  obtain ⟨t₀, hP₀, hawait⟩ := readUntilLf_done hend hP (Prod.ext hdone rfl)
  exact ⟨hs, _, rfl, hQ t₀ _ _ hP₀ hawait⟩

theorem wp_requireReady {operation : String} {Q : Post NntpError (World π) Unit}
    (hs : w.conn.state = .ready) (hQ : Q.ok () w) : wp (requireReady operation) Q w := by
  simp [requireReady, hs, hQ]

/-- What `orError` makes of the postcondition of an I/O operation: an error
leaves the connection in `Error`. -/
theorem wp_orError {α : Type} {x : Nntp π α} {Q : α → Transport π → Prop}
    (h : wp x (ioPost s Q) w) :
    wp (orError x) ⟨fun a => At s (Q a), fun _ => InState .error, InState s⟩ w := by
  rw [orError, wp_inspectErr]
  exact wp_mono h (fun _ _ h => h) (fun _ _ _ => rfl) (fun _ h => h)

end Operations

end NzbNntp
