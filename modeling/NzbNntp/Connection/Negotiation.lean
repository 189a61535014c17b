import NzbNntp.Connection.Connect
import NzbNntp.Connection.Exchange

/-!
What a successful `connect` leaves behind. Up to the login every error ends the
connect. The three exchanges after it are different: `connect` goes on after an
error in any of them, with the connection still `Ready`. It is aligned all the
same where each of their operations completes or meets the end of the stream;
otherwise a reply can be left unread.
-/

namespace NzbNntp

open Interruptible Delimited

def Calm {π : Type} (w : World π) : Prop := ∀ e ∈ w.events, e.completes = true

def blockCommands : List Bytes := [commandLine "CAPABILITIES", commandLine "LIST EXTENSIONS"]

/-- A status line that announces a block to `connect` is valid UTF-8. -/
def Courteous (s : ReplyServer) : Prop :=
  ∀ heard, ∀ line ∈ blockCommands,
    announcesBlock line (statusCode (s.answer (heard ++ [line])).status.full) = true →
    (Text.fromUtf8 (s.answer (heard ++ [line])).status.full).isSome = true

def Polite (P : Transport ReplyServer → Prop) (t : Transport ReplyServer) : Prop :=
  P t ∧ Courteous t.peer

theorem Calm.nextEvent {π : Type} {w : World π} (h : Calm w) : w.nextEvent.completes = true := by
  cases hevents : w.events with
  | nil => simp [World.nextEvent, hevents, IoEvent.completes]
  | cons e es => simpa [World.nextEvent, hevents] using h e (by simp [hevents])

theorem Calm.tick {π : Type} {w : World π} (h : Calm w) : Calm w.tick :=
  fun e he => h e (List.mem_of_mem_tail he)

theorem polite_endStable {P : Transport ReplyServer → Prop} (h : EndStable P) :
    EndStable (Polite P) :=
  fun t n ht => ⟨h t n ht.1, ht.2⟩

theorem ReplyServer.hearAll_answer (s : ReplyServer) (data : Bytes) :
    (Peer.hearAll s data).1.answer = s.answer := by
  induction data generalizing s with
  | nil => rfl
  | cons b data ih =>
      have hhear : (Peer.hear s b).1.answer = s.answer := by
        simp only [Peer.hear]
        split
        · rfl
        split
        · rfl
        · rfl
      rw [Peer.hearAll, ih, hhear]

theorem Courteous.deliver {t : Transport ReplyServer} (h : Courteous t.peer) (data : Bytes) :
    Courteous (t.deliver data).peer := by
  have hanswer : (t.deliver data).peer.answer = t.peer.answer :=
    ReplyServer.hearAll_answer t.peer data
  intro heard line
  rw [hanswer]
  exact h heard line

theorem Courteous.awaitLine {t t' : Transport ReplyServer} {e : IoEnd} {bytes : Bytes}
    (h : Courteous t.peer) (hawait : t.awaitLine = (e, bytes, t')) : Courteous t'.peer := by
  rw [(awaitLine_take hawait).1]
  exact h

/-! ### Operations that complete -/

section CalmRules

variable {s : ConnectionState} {P : Transport ReplyServer → Prop} {w : World ReplyServer}

/-- The postcondition of operations that complete: a success satisfies `Q`, a
failure `E`, and the operations still to come complete too. -/
def calmPost {α : Type} (s : ConnectionState) (Q : α → Transport ReplyServer → Prop)
    (E : Transport ReplyServer → Prop) : Post NntpError (World ReplyServer) α :=
  ⟨fun a w => Calm w ∧ At s (Q a) w, fun _ w => Calm w ∧ At s E w, fun _ => False⟩

theorem calm_sendCommandNoFlush {cmd : String} {Q E : Transport ReplyServer → Prop}
    (hend : EndStable P) (hQ : ∀ t, P t → Q (t.deliver (commandLine cmd))) (hcalm : Calm w)
    (hw : At s P w) : wp (sendCommandNoFlush cmd) (calmPost s (fun _ => Q) E) w := by
  obtain ⟨hs, t, ht, hP⟩ := hw
  have hcompletes := hcalm.nextEvent
  simp only [sendCommandNoFlush, wp_bind, wp_onTransport ht, wp_get]
  cases hev : w.nextEvent with
  | ready => exact ⟨hcalm.tick, hs, _, rfl, hQ t hP⟩
  | eof n => exact ⟨hcalm.tick, hs, _, rfl, hQ _ (hend t n hP)⟩
  | fails error n => rw [hev] at hcompletes; cases hcompletes
  | elapsed n => rw [hev] at hcompletes; cases hcompletes
  | dropped n => rw [hev] at hcompletes; cases hcompletes

theorem calm_flush {E : Transport ReplyServer → Prop} (hend : EndStable P) (hcalm : Calm w)
    (hw : At s P w) : wp flush (calmPost s (fun _ => P) E) w := by
  obtain ⟨hs, t, ht, hP⟩ := hw
  have hcompletes := hcalm.nextEvent
  simp only [flush, wp_bind, wp_onTransport ht, wp_get]
  cases hev : w.nextEvent with
  | ready => exact ⟨hcalm.tick, hs, _, rfl, hP⟩
  | eof n => exact ⟨hcalm.tick, hs, _, rfl, hend t n hP⟩
  | fails error n => rw [hev] at hcompletes; cases hcompletes
  | elapsed n => rw [hev] at hcompletes; cases hcompletes
  | dropped n => rw [hev] at hcompletes; cases hcompletes

theorem calm_sendCommand {cmd : String} {Q E : Transport ReplyServer → Prop}
    (hend : EndStable P) (hend' : EndStable Q)
    (hQ : ∀ t, P t → Q (t.deliver (commandLine cmd))) (hcalm : Calm w) (hw : At s P w) :
    wp (sendCommand cmd) (calmPost s (fun _ => Q) E) w :=
  wp_seq (calm_sendCommandNoFlush hend hQ hcalm hw)
    (fun _ _ h => calm_flush hend' h.1 h.2) (fun _ _ h => h) (fun _ h => h)

/-- A read that completes is a wait for a line on a transport that satisfies
`P`. -/
theorem calm_readUntilLf {ev : IoEvent} {t : Transport ReplyServer}
    (hev : ev.completes = true) (hend : EndStable P) (hP : P t) :
    ∃ t₀, P t₀ ∧ t.readUntilLf ev = t₀.awaitLine := by
  cases ev with
  | ready => exact ⟨t, hP, rfl⟩
  | eof n => exact ⟨t.endStream n, hend t n hP, rfl⟩
  | fails error n => cases hev
  | elapsed n => cases hev
  | dropped n => cases hev

theorem Answering.awaitLine_done {line : Bytes} {t : Transport ReplyServer}
    (h : Answering line t) : ∃ bytes t', t.awaitLine = (.done, bytes, t') := by
  rcases h with hended | ⟨heard, hunread, -⟩
  · exact ⟨_, _, hended.awaitLine⟩
  · rw [bytesFor_eq] at hunread
    exact NzbNntp.awaitLine_done hunread

/-- A status line that announces no block is all of its reply. -/
theorem Answering.owes_nothing {line bytes : Bytes} {block : Option Nat}
    {t t' : Transport ReplyServer} (h : Polite (Answering line) t) (hexp : Expects line block)
    (hline : block = none ∨ line ∈ blockCommands) (hawait : t.awaitLine = (.done, bytes, t'))
    (hunread : Text.fromUtf8 bytes = none ∨ statusCode bytes = none) : Owes [] t' := by
  obtain ⟨hended | ⟨heard, hstream, hopen, hposting⟩, hcourteous⟩ := h
  · rw [hended.awaitLine] at hawait
    cases hawait
    exact .inl (hended.take 0)
  · rw [bytesFor_eq] at hstream
    rcases awaitLine_of_unread hstream hawait with ⟨rfl, hrest, hpeer⟩ | ⟨-, hended⟩
    · have hno : announcesBlock line
          (statusCode (t.peer.answer (heard ++ [line])).status.full) = false := by
        rcases hunread with hnone | hnone
        · rcases hline with rfl | hline
          · cases hcode : statusCode (t.peer.answer (heard ++ [line])).status.full with
            | none => rfl
            | some code => simp [announcesBlock, hexp.code]
          · refine Bool.eq_false_iff.mpr fun h => ?_
            have hvalid := hcourteous heard line hline h
            rw [hnone] at hvalid
            cases hvalid
        · simp [announcesBlock, hnone]
      rw [hno, if_neg Bool.false_ne_true] at hrest
      exact .inr ⟨hrest, by rw [hpeer, hopen], by rw [hpeer, hposting, hexp.noArticle]⟩
    · exact .inl hended

theorem calm_readStatus {line : Bytes} {block : Option Nat} (hexp : Expects line block)
    (hline : block = none ∨ line ∈ blockCommands) (hcalm : Calm w)
    (hw : At s (Polite (Answering line)) w) :
    wp readResponseLine
      (calmPost s (fun resp => Polite (AfterStatus line resp.code)) (Polite (Owes []))) w := by
  obtain ⟨hs, t, ht, hP⟩ := hw
  obtain ⟨t₀, hP₀, hread⟩ :=
    calm_readUntilLf hcalm.nextEvent (polite_endStable (answering_endStable line)) hP
  obtain ⟨bytes, t', hawait⟩ := hP₀.1.awaitLine_done
  have hpeer : Courteous t'.peer := hP₀.2.awaitLine hawait
  simp only [readResponseLine, wp_bind, wp_onTransport ht, hread, hawait, settle, wp_pure]
  split
  · rename_i hnone
    exact ⟨hcalm.tick, hs, t', rfl, Answering.owes_nothing hP₀ hexp hline hawait (.inl hnone), hpeer⟩
  · rename_i text htext
    split
    · rename_i hempty
      obtain rfl : text = "" := by simpa using hempty
      obtain rfl : [] = bytes := Text.fromUtf8_eq_some.mp htext
      have hcode : statusCode [] = none := by decide
      exact ⟨hcalm.tick, hs, t', rfl, Answering.owes_nothing hP₀ hexp hline hawait (.inr hcode), hpeer⟩
    · rw [wp_ofExcept]
      refine ⟨fun resp hparse => ?_, fun e hparse => ?_⟩
      · exact ⟨hcalm.tick, hs, t', rfl, hP₀.1.readStatus hawait htext hparse, hpeer⟩
      · have hcode := statusCode_of_parse_error htext hparse
        exact ⟨hcalm.tick, hs, t', rfl, Answering.owes_nothing hP₀ hexp hline hawait (.inr hcode), hpeer⟩

theorem calm_readBodyLine {timedOut : NntpError} {E : Transport ReplyServer → Prop}
    {Q : Bytes → Transport ReplyServer → Prop} (hend : EndStable P)
    (hQ : ∀ t, P t → ∃ bytes t', t.awaitLine = (.done, bytes, t') ∧ Q bytes t')
    (hcalm : Calm w) (hw : At s P w) :
    wp (readBodyLine timedOut) (calmPost s Q E) w := by
  obtain ⟨hs, t, ht, hP⟩ := hw
  have ht' : (w.setLineScratch []).conn.transport = some t := ht
  have hnext : (w.setLineScratch []).nextEvent.completes = true := hcalm.nextEvent
  obtain ⟨t₀, hP₀, hawait⟩ := calm_readUntilLf hnext hend hP
  obtain ⟨bytes, t', ht₀, hQ'⟩ := hQ t₀ hP₀
  simp only [readBodyLine, wp_bind, wp_modify, wp_onTransport ht', hawait, ht₀, settle, wp_pure]
  exact ⟨hcalm.tick, hs, t', rfl, hQ'⟩

/-- The rest of a block is owed, and the fuel is enough to read it. -/
def Affordable (fuel : Nat) (t : Transport ReplyServer) : Prop :=
  Polite (OwesBlock []) t ∧ t.unread.length < fuel

theorem affordable_endStable (fuel : Nat) : EndStable (Affordable fuel) :=
  fun t n h => ⟨polite_endStable (owesBlock_endStable []) t n h.1, h.2⟩

theorem OwesBlock.awaitLine_done {t : Transport ReplyServer} (h : OwesBlock [] t) :
    ∃ bytes t', t.awaitLine = (.done, bytes, t') := by
  obtain ⟨⟨status, block, terminator, hproper, hterm⟩, hended | ⟨hunread, -⟩⟩ := h
  · exact ⟨_, _, hended.awaitLine⟩
  · cases block with
    | nil =>
        obtain ⟨l, hl⟩ := exists_piece_of_isTerminator hterm
        have hfull : t.unread = l.full ++ [] := by simpa [Reply.blockBytes, hl] using hunread
        exact NzbNntp.awaitLine_done hfull
    | cons l rest =>
        have hfull : t.unread = l.full ++ ((rest.map Piece.full).flatten ++ terminator) := by
          simpa [Reply.blockBytes] using hunread
        exact NzbNntp.awaitLine_done hfull

theorem Affordable.awaitLine {fuel : Nat} {t t' : Transport ReplyServer} {bytes : Bytes}
    (h : Affordable (fuel + 1) t) (hawait : t.awaitLine = (.done, bytes, t')) (hne : bytes ≠ [])
    (howes : OwesBlock [] t') : Affordable fuel t' := by
  obtain ⟨htake, hlen⟩ := awaitLine_take hawait
  have hpos : 0 < bytes.length := List.length_pos_of_ne_nil hne
  have hle : t.available.length ≤ t.unread.length := available_length_le t
  refine ⟨⟨howes, h.1.2.awaitLine hawait⟩, ?_⟩
  have hunread : t'.unread = t.unread.drop bytes.length := by
    rw [htake]
    rfl
  have hfuel := h.2
  rw [hunread, List.length_drop]
  omega

/-- Reading a block without disturbance ends at its terminator or at the end of
the stream. -/
theorem calm_multilineLoop (fuel : Nat) (out : Bytes) {w : World ReplyServer} (hcalm : Calm w)
    (hw : At s (Affordable fuel) w) :
    wp (multilineLoop none fuel out)
      (calmPost s (fun _ => Polite (Owes [])) (Polite (Owes []))) w := by
  induction fuel generalizing out w with
  | zero =>
      obtain ⟨-, t, -, hfuel⟩ := hw
      exact absurd hfuel.2 (Nat.not_lt_zero _)
  | succ fuel ih =>
      rw [multilineLoop]
      refine wp_seq (calm_readBodyLine (Q := fun line t => Courteous t.peer ∧ BodyLine [] line t ∧
        (line ≠ [] → OwesBlock [] t → Affordable fuel t)) (affordable_endStable _) ?_ hcalm hw) ?_
        (fun _ _ h => h) (fun _ h => h)
      · intro t h
        obtain ⟨bytes, t', hawait⟩ := h.1.1.awaitLine_done
        exact ⟨bytes, t', hawait, h.1.2.awaitLine hawait, h.1.1.awaitLine hawait,
          fun hne howes => h.awaitLine hawait hne howes⟩
      rintro line w' ⟨hcalm', hs, t, ht, hpeer, hline, hfuel⟩
      split
      · rename_i hempty
        obtain rfl : line = [] := by simpa using hempty
        rcases hline with ⟨hterm, -⟩ | ⟨-, -, hended⟩
        · cases hterm
        · exact ⟨hcalm', hs, t, ht, .inl (hended rfl), hpeer⟩
      · rename_i hempty
        rcases hline with ⟨hterm, howes⟩ | ⟨hterm, howes, -⟩
        · rw [if_pos hterm]
          exact ⟨hcalm', hs, t, ht, howes, hpeer⟩
        · rw [hterm, if_neg Bool.false_ne_true]
          exact ih _ hcalm' ⟨hs, t, ht, hfuel (by simpa using hempty) howes⟩

theorem calm_readMultilineBody (hcalm : Calm w) (hw : At s (Polite (OwesBlock [])) w) :
    wp readMultilineBody (calmPost s (fun _ => Polite (Owes [])) (Polite (Owes []))) w := by
  obtain ⟨hs, t, ht, hP⟩ := hw
  refine calm_multilineLoop _ [] hcalm ⟨hs, t, ht, hP, ?_⟩
  change t.unread.length < (w.conn.transport.map fun t => t.unread.length).getD 0 + 1
  rw [ht]
  exact Nat.lt_succ_self _

end CalmRules

/-! ### The three exchanges after the login -/

section Exchanges

variable {w : World ReplyServer} {α : Type}

def AtEase (w : World ReplyServer) : Prop := Calm w ∧ At .ready (Polite (Owes [])) w

/-- Leaves the connection at ease, whether it returns or fails. -/
def eased (α : Type) : Post NntpError (World ReplyServer) α :=
  ⟨fun _ => AtEase, fun _ => AtEase, fun _ => False⟩

/-- A command and its status line. What the handler does after the status line
is left open. -/
theorem eased_exchange {cmd : String} {block : Option Nat}
    {k : NntpResponse → Nntp ReplyServer α} (hcmd : OneLine cmd)
    (hexp : Expects (commandLine cmd) block)
    (hline : block = none ∨ commandLine cmd ∈ blockCommands) (hw : AtEase w)
    (hk : ∀ status w', Calm w' →
      At .ready (Polite (AfterStatus (commandLine cmd) status.code)) w' →
      wp (k status) (eased α) w') :
    wp (do sendCommand cmd; let status ← readResponseLine; k status) (eased α) w := by
  have hsend : wp (sendCommand cmd)
      (calmPost .ready (fun _ => Polite (Answering (commandLine cmd))) (Polite (Owes []))) w :=
    calm_sendCommand (polite_endStable (owes_endStable [])) (polite_endStable (answering_endStable _))
      (fun t h => ⟨h.1.deliver_command hcmd, h.2.deliver _⟩) hw.1 hw.2
  refine wp_seq hsend ?_ (fun _ _ h => h) (fun _ h => h)
  rintro _ w₁ ⟨hcalm₁, hw₁⟩
  refine wp_seq (calm_readStatus hexp hline hcalm₁ hw₁) ?_ (fun _ _ h => h) (fun _ h => h)
  exact fun status w₂ h => hk status w₂ h.1 h.2

theorem atEase_of_quiet {line : Bytes} {block : Option Nat} {code : Nat}
    (hexp : Expects line block) (hcode : block ≠ some code) (hcalm : Calm w)
    (hw : At .ready (Polite (AfterStatus line code)) w) : AtEase w :=
  ⟨hcalm, hw.mono fun _ h => ⟨h.1.quiet hexp hcode, h.2⟩⟩

/-- A handler that goes on with the block its status line announced. -/
theorem eased_block {line : Bytes} {code : Nat} {k : Bytes → Nntp ReplyServer α}
    (hexp : Expects line (some code)) (hcalm : Calm w)
    (hw : At .ready (Polite (AfterStatus line code)) w)
    (hk : ∀ body w', AtEase w' → wp (k body) (eased α) w') :
    wp (readMultilineBody >>= k) (eased α) w := by
  have hblock : At .ready (Polite (OwesBlock [])) w := hw.mono fun _ h => ⟨h.1.block hexp, h.2⟩
  exact wp_seq (calm_readMultilineBody hcalm hblock) (fun body w' h => hk body w' h)
    (fun _ _ h => h) (fun _ h => h)

theorem expects_capabilities : Expects (commandLine "CAPABILITIES") (some 101) :=
  expects_of_firstWord
    (by rw [commandLine_bare "CAPABILITIES", firstWord_append (by decide) (by decide)])
    (by decide) (by decide) (by decide)

theorem expects_modeReader : Expects (commandLine "MODE READER") none :=
  expects_verb "MODE" "READER" (by decide) (by decide) (by decide) (by decide) (by decide)

theorem expects_listExtensions : Expects (commandLine "LIST EXTENSIONS") (some 202) :=
  ⟨by decide, fun code => by
    rw [invitesArticle, show firstWord (commandLine "LIST EXTENSIONS") = Text.utf8 "LIST" by decide]
    simp [show Text.utf8 "LIST" ≠ Text.utf8 "POST" by decide]⟩

theorem expects_xfeature : Expects (commandLine "XFEATURE COMPRESS GZIP") none :=
  expects_verb "XFEATURE" "COMPRESS GZIP" (by decide) (by decide) (by decide) (by decide)
    (by decide)

theorem eased_requireReady {operation : String} {k : Unit → Nntp ReplyServer α}
    (hw : AtEase w) (hk : wp (k ()) (eased α) w) :
    wp (requireReady operation >>= k) (eased α) w := by
  rw [wp_bind]
  exact wp_requireReady hw.2.1 hk

theorem eased_queryCapabilities (hw : AtEase w) : wp queryCapabilities (eased Unit) w := by
  refine eased_requireReady hw ?_
  refine eased_exchange (by decide) expects_capabilities (.inr (by simp [blockCommands])) hw ?_
  intro status w' hcalm h
  split
  · rename_i hcode
    rw [hcode] at h
    exact eased_block expects_capabilities hcalm h fun _ _ hw' => hw'
  · rename_i hcode
    exact atEase_of_quiet expects_capabilities (by simpa using Ne.symm hcode) hcalm h

theorem eased_enterReaderMode (hw : AtEase w) : wp enterReaderMode (eased Unit) w := by
  refine eased_requireReady hw ?_
  refine eased_exchange (by decide) expects_modeReader (.inl rfl) hw ?_
  intro status w' hcalm h
  have hquiet : AtEase w' := atEase_of_quiet expects_modeReader (by simp) hcalm h
  split
  · exact hquiet
  · exact hquiet
  · exact hquiet

theorem eased_negotiateCompression (hw : AtEase w) :
    wp negotiateCompression (eased Unit) w := by
  refine eased_exchange (by decide) expects_listExtensions (.inr (by simp [blockCommands])) hw ?_
  intro status w' hcalm h
  split
  · rename_i hcode
    rw [hcode] at h
    refine eased_block expects_listExtensions hcalm h ?_
    intro data w'' hw''
    split
    · refine eased_exchange (by decide) expects_xfeature (.inl rfl) hw'' ?_
      intro status' w₃ hcalm₃ h₃
      have hquiet : AtEase w₃ := atEase_of_quiet expects_xfeature (by simp) hcalm₃ h₃
      split
      · exact hquiet
      · exact hquiet
    · exact hw''
  · rename_i hcode
    exact atEase_of_quiet expects_listExtensions (by simpa using Ne.symm hcode) hcalm h

/-- What becomes of an exchange whose error is logged. -/
theorem eased_attempt {x : Nntp ReplyServer α} {β : Type}
    {k : Except NntpError α → Nntp ReplyServer β} (hx : wp x (eased α) w)
    (hk : ∀ r w', AtEase w' → wp (k r) (eased β) w') : wp (x.attempt >>= k) (eased β) w := by
  rw [wp_bind, wp_attempt]
  exact wp_mono hx (fun a w' h => hk (.ok a) w' h) (fun e w' h => hk (.error e) w' h)
    (fun _ h => h)

theorem eased_probeCapabilities (hw : AtEase w) : wp probeCapabilities (eased Unit) w := by
  refine eased_attempt (eased_queryCapabilities hw) fun r w' hw' => ?_
  cases r with
  | ok _ => exact hw'
  | error e => exact hw'

theorem eased_switchToReaderMode (hw : AtEase w) : wp switchToReaderMode (eased Unit) w := by
  rw [switchToReaderMode, wp_bind, wp_get]
  dsimp only
  split
  · exact eased_attempt (eased_enterReaderMode hw) fun _ _ h => h
  · exact hw

theorem eased_compressIfConfigured {config : ServerConfig} (hw : AtEase w) :
    wp (compressIfConfigured config) (eased Unit) w := by
  rw [compressIfConfigured]
  split
  · exact eased_attempt (eased_negotiateCompression hw) fun _ _ h => h
  · exact hw

/-- The exchanges leave the connection at ease, whatever becomes of each. -/
theorem eased_negotiate {config : ServerConfig} (hw : AtEase w) :
    wp (negotiate config) (eased Unit) w := by
  refine wp_seq (eased_probeCapabilities hw) ?_ (fun _ _ h => h) (fun _ h => h)
  intro _ w₁ hw₁
  refine wp_seq (eased_switchToReaderMode hw₁) ?_ (fun _ _ h => h) (fun _ h => h)
  exact fun _ _ hw₂ => eased_compressIfConfigured hw₂

end Exchanges

/-! ### Up to the login -/

section Establish

variable {w : World ReplyServer} {s : ConnectionState} {P Q : Transport ReplyServer → Prop}

/-- The postcondition of an operation whose failure ends the connect. -/
def orElseFails {α : Type} (s : ConnectionState) (Q : α → Transport ReplyServer → Prop) :
    Post NntpError (World ReplyServer) α :=
  ⟨fun a => At s (Q a), fun _ _ => True, fun _ => True⟩

theorem established_exchange {α : Type} {cmd : String} {block : Option Nat}
    {k : NntpResponse → Nntp ReplyServer α} {R : α → Transport ReplyServer → Prop}
    {s' : ConnectionState} (hcmd : OneLine cmd) (hexp : Expects (commandLine cmd) block)
    (hblock : block = none) (hw : At s (Polite (Owes [])) w)
    (hk : ∀ status w', At s (Polite (Owes [])) w' → wp (k status) (orElseFails s' R) w') :
    wp (do sendCommand cmd; let status ← readResponseLine; k status) (orElseFails s' R) w := by
  have hsend : wp (sendCommand cmd) (ioPost s fun _ => Polite (Answering (commandLine cmd))) w :=
    wp_sendCommand (polite_endStable (owes_endStable []))
      (polite_endStable (answering_endStable _))
      (fun t h => ⟨h.1.deliver_command hcmd, h.2.deliver _⟩) hw
  refine wp_seq hsend ?_ (fun _ _ _ => trivial) (fun _ _ => trivial)
  intro _ w₁ hw₁
  have hread : wp readResponseLine (ioPost s fun _ => Polite (Owes [])) w₁ := by
    refine wp_readResponseLine (polite_endStable (answering_endStable _)) ?_ hw₁
    intro t bytes t' line resp h hawait htext _ hparse
    refine ⟨(h.1.readStatus hawait htext hparse).quiet hexp ?_, h.2.awaitLine hawait⟩
    rw [hblock]
    simp
  exact wp_seq hread (fun status w₂ h => hk status w₂ h) (fun _ _ _ => trivial)
    (fun _ _ => trivial)

theorem expects_authinfo (tail : String) : Expects (commandLine ("AUTHINFO" ++ " " ++ tail)) none :=
  expects_verb "AUTHINFO" tail rfl (by decide) (by decide) (by decide) (by decide)

def OneLineCredentials (config : ServerConfig) : Prop :=
  (∀ username, config.username = some username → OneLine username) ∧
    ∀ password, config.password = some password → OneLine password

theorem established_sendPassword {config : ServerConfig} (hcred : OneLineCredentials config)
    (hw : At s (Polite (Owes [])) w) :
    wp (sendPassword config) (orElseFails .ready fun _ => Polite (Owes [])) w := by
  rw [sendPassword]
  split
  · trivial
  rename_i password hpassword
  have hexp : Expects (commandLine (passCommand password)) none := by
    have h := expects_authinfo ("PASS " ++ password)
    rwa [← String.append_assoc] at h
  refine established_exchange (oneLine_append.mpr ⟨by decide, hcred.2 password hpassword⟩)
    hexp rfl hw ?_
  intro status w₁ hw₁
  split
  case h_1 => exact hw₁.setState
  all_goals trivial

theorem established_authenticate {config : ServerConfig} (hcred : OneLineCredentials config)
    (hw : At s (Polite (Owes [])) w) :
    wp (authenticate config) (orElseFails .ready fun _ => Polite (Owes [])) w := by
  rw [authenticate, setState, wp_bind, wp_modify]
  dsimp only
  split
  · trivial
  rename_i username husername
  have hexp : Expects (commandLine (userCommand username)) none := by
    have h := expects_authinfo ("USER " ++ username)
    rwa [← String.append_assoc] at h
  refine established_exchange (oneLine_append.mpr ⟨by decide, hcred.1 username husername⟩)
    hexp rfl hw.setState ?_
  intro status w₁ hw₁
  split
  case h_1 => exact hw₁.setState
  case h_2 => exact established_sendPassword hcred hw₁
  case h_3 => exact established_sendPassword hcred hw₁
  all_goals trivial

/-- The server greets with one line, and then waits for a command. -/
structure Greets (dial : Dial ReplyServer) : Prop where
  greeting : ∃ l : WireLine, dial.greeting = l.full
  idle : Idle dial.peer
  courteous : Courteous dial.peer

theorem established_openTransport {config : ServerConfig} {dial : Dial ReplyServer}
    (hdial : Greets dial) :
    wp (openTransport config dial)
      ⟨fun _ w' => At w'.conn.state (Polite OwesStatus) w', fun _ _ => True, fun _ => True⟩
      w := by
  have hset : ∀ w' : World ReplyServer,
      At w'.conn.state (Polite OwesStatus) (w'.setTransport
        { tls := config.ssl, peer := dial.peer, unread := dial.greeting }) := by
    intro w'
    obtain ⟨l, hl⟩ := hdial.greeting
    exact ⟨rfl, _, rfl, ⟨l, .inr ⟨hl, hdial.idle⟩⟩, hdial.courteous⟩
  rw [openTransport]
  split
  · exact wp_seq (wp_trivial _ w) (fun _ w' _ => hset w') (fun _ _ h => h) (fun _ h => h)
  · exact hset w

theorem established_readWelcome (hw : At s (Polite OwesStatus) w) :
    wp readWelcome (orElseFails s fun _ => Polite (Owes [])) w := by
  have hread : wp readResponseLine (ioPost s fun _ => Polite (Owes [])) w := by
    refine wp_readResponseLine (polite_endStable owesStatus_endStable) ?_ hw
    exact fun t bytes t' _ _ h hawait _ _ _ => ⟨h.1.awaitLine hawait, h.2.awaitLine hawait⟩
  refine wp_seq hread ?_ (fun _ _ _ => trivial) (fun _ _ => trivial)
  intro welcome w' hw'
  split
  case h_1 => exact hw'
  case h_2 => exact hw'
  all_goals trivial

/-- A session that was established owes nothing. -/
theorem established {config : ServerConfig} {dial : Dial ReplyServer} (hdial : Greets dial)
    (hcred : OneLineCredentials config) :
    wp (establish config dial) (orElseFails .ready fun _ => Polite (Owes [])) w := by
  rw [establish, setState, wp_bind, wp_modify]
  refine wp_seq (wp_trivial _ _) ?_ (fun _ _ h => h) (fun _ h => h)
  intro _ w₁ _
  refine wp_seq (established_openTransport hdial) ?_ (fun _ _ h => h) (fun _ h => h)
  intro _ w₂ hw₂
  refine wp_seq (established_readWelcome hw₂) ?_ (fun _ _ h => h) (fun _ h => h)
  intro _ w₃ hw₃
  split
  · exact established_authenticate hcred hw₃
  · exact hw₃.setState

end Establish

/-! ### The whole connect -/

/-- A connect that succeeds is an established session that was negotiated. -/
theorem connect_ok {π : Type} [Peer π] {config : ServerConfig} {dial : Dial π} {w w' : World π}
    (h : connect config dial w = .ok () w') :
    ∃ w₁, establish config dial w = .ok () w₁ ∧ negotiate config w₁ = .ok () w' := by
  have hinner : connectInner config dial w = .ok () w' := by
    unfold connect at h
    split at h
    · split at h
      · cases h
      · cases h
    · exact h
  rw [connectInner, Comp.bind_apply] at hinner
  cases hestablish : establish config dial w with
  | ok a w₁ => exact ⟨w₁, rfl, by rwa [hestablish] at hinner⟩
  | err e w₁ => rw [hestablish] at hinner; cases hinner
  | dropped w₁ => rw [hestablish] at hinner; cases hinner

/-- **A connect leaves nothing unread** if no operation of the three exchanges
after the login is cut short: the connection is `Ready`, and either the server
waits for a command and all it has sent is read, or the stream has ended. -/
theorem connect_leaves_nothing_unread (config : ServerConfig) (dial : Dial ReplyServer)
    (w w' : World ReplyServer) (hdial : Greets dial) (hcred : OneLineCredentials config)
    (hcalm : ∀ w₁, establish config dial w = .ok () w₁ → Calm w₁)
    (hconnect : connect config dial w = .ok () w') :
    w'.conn.state = .ready ∧ ∃ t, w'.conn.transport = some t ∧ Owes [] t := by
  obtain ⟨w₁, hestablish, hnegotiate⟩ := connect_ok hconnect
  have hw₁ : At .ready (Polite (Owes [])) w₁ := wp_ok (established hdial hcred) hestablish
  obtain ⟨-, hready, t, ht, howes, -⟩ :=
    wp_ok (eased_negotiate ⟨hcalm w₁ hestablish, hw₁⟩) hnegotiate
  exact ⟨hready, t, ht, howes⟩

def capableServer : ReplyServer where
  answer _ :=
    { status := ⟨Text.utf8 "101 Capability list:\r", lf_not_mem_capabilityStatus⟩
      block := [⟨Text.utf8 "READER\r", by decide⟩]
      terminator := [dot, cr, lf]
      proper := by decide
      terminates := isTerminator_dotCrLf }

def dialCapable : Dial ReplyServer where
  tcp := .ok ()
  serverName := .ok ()
  handshake := .ok ()
  peer := capableServer
  greeting := Text.utf8 "200 welcome\r\n"

theorem greets_dialCapable : Greets dialCapable where
  greeting := ⟨⟨Text.utf8 "200 welcome\r", by decide⟩, by decide⟩
  idle := ⟨rfl, rfl⟩
  courteous _ _ _ _ :=
    show (Text.fromUtf8 (Text.utf8 "101 Capability list:\r" ++ [lf])).isSome = true by decide

theorem connect_leaves_nothing_unread_undisturbed :
    ∃ w' : World ReplyServer, w'.conn.state = .ready ∧
      ∃ t, w'.conn.transport = some t ∧ Owes [] t :=
  ⟨_, connect_leaves_nothing_unread { ssl := false } dialCapable
    { conn := .new "news" } _ greets_dialCapable ⟨by simp, by simp⟩
    (by rintro _ ⟨⟩; simp [Calm]) rfl⟩

/-- The reply to `CAPABILITIES` comes after the 60 s of its read, and within the time limit of
`connect`: that succeeds, and the whole reply is still to be read. -/
theorem connect_can_leave_a_reply :
    ¬ ∀ (config : ServerConfig) (dial : Dial ReplyServer) (w w' : World ReplyServer),
      Greets dial → OneLineCredentials config → connect config dial w = .ok () w' →
      w'.conn.state = .ready ∧ ∃ t, w'.conn.transport = some t ∧ Owes [] t := by
  intro h
  obtain ⟨-, t, ht, howes⟩ := h { ssl := false, connectTimeoutSecs := 120 } dialCapable
    { conn := .new "news", events := [.ready, .ready, .ready, .ready, .elapsed 0] } _
    greets_dialCapable ⟨by simp, by simp⟩ rfl
  cases ht
  rcases howes with hended | ⟨hunread, -⟩
  · exact absurd hended (by decide)
  · exact absurd hunread (by decide)

end NzbNntp
