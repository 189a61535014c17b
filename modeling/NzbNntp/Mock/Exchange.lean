import NzbNntp.Connection.Quiet
import NzbNntp.Connection.StatusLine
import NzbNntp.Mock.Hearing
import NzbNntp.Pipeline.Content

/-!
A client that faces a session of the mock server: what the session owes is on the stream, and
nothing else. An exchange sends a command, which makes the session owe the answer, and reads
the answer off again; the rules say so for each operation of a call.
-/

namespace NzbNntp

open Interruptible Delimited

/-! ### What is sent -/

def statusBytes (code : Nat) (message : String) : Bytes :=
  Text.utf8 (threeDigits code ++ " " ++ message ++ "\r\n")

theorem utf8_eq_statusBytes {code : Nat} {message text : String}
    (h : text.toList = (threeDigits code ++ " " ++ message ++ "\r\n").toList) :
    Text.utf8 text = statusBytes code message := by
  rw [String.toList_inj.mp h, statusBytes]

structure Message (message : String) : Prop where
  free : '\n' ∉ message.toList
  ends : message.toList.getLast? ≠ some '\r'

theorem parseResponseLine_written {code : Nat} {message : String} (hcode : code ≤ 999)
    (hmessage : Message message) :
    parseResponseLine (threeDigits code ++ " " ++ message ++ "\r\n") = .ok { code, message } := by
  have hlast : ∀ c, message.toList.getLast? = some c → c ≠ '\r' ∧ c ≠ '\n' := by
    intro c hc
    constructor
    · rintro rfl
      exact hmessage.ends hc
    · rintro rfl
      exact hmessage.free (List.mem_of_getLast? hc)
  have htrim := Text.trimmed_iff.mp (trimmed_written code hlast)
  have hbegins := beginsWithCode_written hcode message
  rw [← htrim] at hbegins
  obtain ⟨code', message', htext, hparse, -⟩ := parseResponseLine_of_code hbegins
  rw [htrim] at htext
  obtain ⟨rfl, rfl⟩ := htext.unique (statusText_written hcode message)
  exact hparse

theorem statusBytes_line {code : Nat} {message : String} (hcode : code ≤ 999)
    (hmessage : Message message) :
    ∃ l : WireLine, l.full = statusBytes code message ∧ statusOf l.full = .ok { code, message } := by
  have hdigits : '\n' ∉ (threeDigits code).toList := by
    have hdigit : ∀ n < 10, Nat.digitChar n ≠ '\n' := by decide
    simp only [threeDigits, String.toList_ofList, List.mem_cons, List.not_mem_nil, or_false,
      not_or]
    exact ⟨(hdigit _ (by omega)).symm, (hdigit _ (by omega)).symm, (hdigit _ (by omega)).symm⟩
  have hfree : lf ∉ Text.utf8 (threeDigits code ++ " " ++ message) ++ [cr] := by
    simp [Text.lf_mem_utf8, hdigits, hmessage.free, show lf ≠ cr by decide]
  have hfull : Text.utf8 (threeDigits code ++ " " ++ message) ++ [cr] ++ [lf] =
      statusBytes code message := by
    rw [statusBytes, Text.utf8_append _ "\r\n", List.append_assoc]
    rfl
  refine ⟨⟨_, hfree⟩, hfull, ?_⟩
  rw [Piece.full, hfull, statusOf, statusBytes, Text.fromUtf8_utf8]
  dsimp only
  rw [if_neg (by simp), parseResponseLine_written hcode hmessage]

/-! ### Facing -/

/-- The connection is in state `s` and does not compress; its peer is a session of the mock
server, and `owed` is on the stream. -/
structure Facing (config : MockConfig) (state : MockState) (posting : Option Bytes)
    (s : ConnectionState) (owed : Bytes) (w : World MockSession) : Prop where
  quiet : Quiet w
  status : w.conn.state = s
  plain : Compresses false w
  linked : ∃ t, w.conn.transport = some t ∧ t.cut = none ∧ t.unread = owed ∧
    Serving config state posting t.peer

section Exchanges

variable {config : MockConfig} {state : MockState} {posting : Option Bytes}
  {s : ConnectionState} {owed : Bytes} {w : World MockSession}

theorem wp_orError_gives {α : Type} {x : Nntp MockSession α} {a : α}
    {P : World MockSession → Prop} (h : wp x (gives a P) w) : wp (orError x) (gives a P) w :=
  wp_orError_quiet h

theorem Facing.setState (h : Facing config state posting s owed w) (s' : ConnectionState) :
    Facing config state posting s' owed (w.setState s') :=
  ⟨h.quiet, rfl, h.plain, h.linked⟩

/-- A command makes the session owe its answer. -/
theorem wp_sendCommandNoFlush_facing {cmd : String} (hcmd : Phrase cmd)
    (hfaults : config.faults.Absent) {answer : MockAnswer}
    (hanswer : config.answerTo state cmd = answer)
    (hafter : answer.after.reading = some posting) (h : Facing config state none s owed w) :
    wp (sendCommandNoFlush cmd)
      (gives () (Facing config answer.state posting s (owed ++ answer.writes.flatten))) w := by
  obtain ⟨t, ht, hcut, hunread, hserving⟩ := h.linked
  obtain ⟨next, hheard, hnext⟩ := MockSession.hearAll_command hserving hfaults hcmd hanswer
  have hkeeps : wp (sendCommandNoFlush cmd) (always (Compresses false)) w :=
    preserves_sendCommandNoFlush_of (admits_of_ioStable _) w h.plain
  refine wp_mono (wp_and (wp_sendCommandNoFlush_quiet h.quiet ht) hkeeps) ?_
    (fun _ _ h => h.1) (fun _ h => h.1)
  rintro _ w' ⟨⟨hquiet, hs, ht'⟩, hplain⟩
  rw [Transport.deliver, hheard, hunread] at ht'
  exact ⟨rfl, hquiet, hs.trans h.status, hplain, _, ht', hcut, rfl, hnext _ hafter⟩

theorem wp_flush_facing (h : Facing config state posting s owed w) :
    wp flush (gives () (Facing config state posting s owed)) w := by
  obtain ⟨t, ht, hcut, hunread, hserving⟩ := h.linked
  have hkeeps : wp flush (always (Compresses false)) w := preserves_flush w h.plain
  refine wp_mono (wp_and (wp_flush_quiet h.quiet ht) hkeeps) ?_ (fun _ _ h => h.1) (fun _ h => h.1)
  rintro _ w' ⟨⟨hquiet, hs, ht'⟩, hplain⟩
  exact ⟨rfl, hquiet, hs.trans h.status, hplain, t, ht', hcut, hunread, hserving⟩

theorem wp_sendCommand_facing {cmd : String} (hcmd : Phrase cmd)
    (hfaults : config.faults.Absent) {answer : MockAnswer}
    (hanswer : config.answerTo state cmd = answer)
    (hafter : answer.after.reading = some posting) (h : Facing config state none s [] w) :
    wp (sendCommand cmd)
      (gives () (Facing config answer.state posting s answer.writes.flatten)) w :=
  wp_gives_seq (wp_sendCommandNoFlush_facing hcmd hfaults hanswer hafter h)
    fun _ => wp_flush_facing

/-- What has been taken is not owed any more. -/
theorem Facing.taken {t : Transport MockSession} {n : Nat} {w' : World MockSession}
    (ht : w.conn.transport = some t) (h : Facing config state posting s owed w)
    (htaken : HasTaken s t n w') (hplain : Compresses false w') :
    Facing config state posting s (owed.drop n) w' := by
  obtain ⟨t₀, ht₀, hcut, hunread, hserving⟩ := h.linked
  obtain rfl : t = t₀ := Option.some.inj (ht.symm.trans ht₀)
  obtain ⟨hquiet, hs, ht'⟩ := htaken
  exact ⟨hquiet, hs, hplain, _, ht', by simp [Transport.take, hcut],
    by simp [Transport.take, hunread], hserving⟩

/-- A status line is read off what is owed. -/
theorem wp_statusLine_facing {code : Nat} {message : String} {rest : Bytes} (hcode : code ≤ 999)
    (hmessage : Message message)
    (h : Facing config state posting s (statusBytes code message ++ rest) w) :
    wp readResponseLine (gives { code, message } (Facing config state posting s rest)) w := by
  obtain ⟨t, ht, hcut, hunread, -⟩ := h.linked
  obtain ⟨l, hfull, hstatus⟩ := statusBytes_line hcode hmessage
  have havail : t.available = l.full ++ rest := by
    rw [Transport.available, hcut, hunread, hfull]
  have hfirst : firstLine t.available = l.full := by rw [havail, firstLine_full]
  have hread := wp_readResponseLine_first h.quiet h.status ht
    (.inr (by rw [havail]; simp [Piece.full]))
  rw [hfirst, hstatus] at hread
  have hkeeps : wp readResponseLine (always (Compresses false)) w :=
    preserves_readResponseLine w h.plain
  refine wp_mono (wp_and hread hkeeps) ?_ ?_ (fun _ h => h.1)
  · rintro status w' ⟨⟨hok, htaken⟩, hplain⟩
    refine ⟨(Except.ok.inj hok).symm, ?_⟩
    have h' := h.taken ht htaken hplain
    rwa [hfull, List.drop_left] at h'
  · rintro e w' ⟨⟨herr, -⟩, -⟩
    cases herr

/-- The block of lines that is owed is read off, each of its lines closed by CRLF. -/
theorem wp_block_facing {lines : List Bytes} {rest : Bytes} (hlines : ∀ line ∈ lines, lf ∉ line)
    (h : Facing config state posting s (postedBytes lines ++ rest) w) :
    wp readMultilineBody
      (gives (normalized lines) (Facing config state posting s rest)) w := by
  obtain ⟨t, ht, hcut, hunread, -⟩ := h.linked
  obtain ⟨hhas, hbody, hafter⟩ := block_of_postedBytes lines hlines rest
  have havail : t.available = postedBytes lines ++ rest := by
    rw [Transport.available, hcut, hunread]
  have hstart : HasTaken s t 0 w := ⟨h.quiet, h.status, by rw [t.take_zero, ht]⟩
  have hread := wp_readMultilineBody_block (Nat.zero_le _) hstart
    (.inr (by rwa [List.drop_zero, havail]))
  rw [List.drop_zero, havail, hbody, hafter] at hread
  have hkeeps : wp readMultilineBody (always (Compresses false)) w :=
    preserves_readMultilineBody w h.plain
  refine wp_mono (wp_and hread hkeeps) ?_ ?_ (fun _ h => h.1)
  · rintro body w' ⟨⟨-, rfl, htaken⟩, hplain⟩
    refine ⟨rfl, ?_⟩
    have h' := h.taken ht htaken hplain
    rwa [List.length_append, Nat.add_sub_cancel, List.drop_left] at h'
  · rintro e w' ⟨⟨hnot, -⟩, -⟩
    exact absurd hhas hnot

/-- The same where the caller would decompress it. -/
theorem wp_body_facing {gz : GzDecoder} {lines : List Bytes} {rest : Bytes}
    (hlines : ∀ line ∈ lines, lf ∉ line)
    (h : Facing config state posting s (postedBytes lines ++ rest) w) :
    wp (orError (readMultilineBodyMaybeDecompress gz))
      (gives (normalized lines) (Facing config state posting s rest)) w := by
  apply wp_orError_gives
  rw [readMultilineBodyMaybeDecompress]
  refine wp_gives_seq (wp_block_facing hlines h) fun w' h' => ?_
  rw [wp_bind, wp_get]
  dsimp only
  rw [show w'.conn.compressEnabled = false from h'.plain, Bool.false_and,
    if_neg Bool.false_ne_true]
  exact ⟨rfl, h'⟩

/-- The exchange at the head of a call. -/
theorem wp_request_facing {cmd : String} (hcmd : Phrase cmd)
    (hfaults : config.faults.Absent) {answer : MockAnswer}
    (hanswer : config.answerTo state cmd = answer)
    (hafter : answer.after.reading = some posting) {code : Nat} {message : String} {rest : Bytes}
    (hcode : code ≤ 999) (hmessage : Message message)
    (hwrites : answer.writes.flatten = statusBytes code message ++ rest)
    (h : Facing config state none s [] w) :
    wp (request cmd)
      (gives { code, message } (Facing config answer.state posting .busy rest)) w := by
  rw [request, setState]
  refine (wp_bind _ _ w).mpr ?_
  have hsend := wp_sendCommand_facing hcmd hfaults hanswer hafter (h.setState .busy)
  refine wp_gives_seq (wp_orError_gives hsend) fun w₁ h₁ => ?_
  rw [hwrites] at h₁
  exact wp_orError_gives (wp_statusLine_facing hcode hmessage h₁)

/-! ### Articles that are sent -/

structure Delivering (t : Transport MockSession) (s : ConnectionState) (data : Bytes)
    (w : World MockSession) : Prop where
  quiet : Quiet w
  status : w.conn.state = s
  plain : Compresses false w
  transport : w.conn.transport = some (t.deliver data)

variable {t : Transport MockSession} {data : Bytes}

theorem wp_write_delivering (more : Bytes) (h : Delivering t s data w) :
    wp (orError (transportWriteAll more)) (gives () (Delivering t s (data ++ more))) w := by
  apply wp_orError_gives
  rw [transportWriteAll, wp_bind, wp_onTransport h.transport, h.quiet.nextEvent]
  refine ⟨rfl, h.quiet.tick, h.status, h.plain, ?_⟩
  rw [← deliver_append]
  rfl

theorem wp_postLine_delivering (line : Bytes) (h : Delivering t s data w) :
    wp (postLine line) (gives () (Delivering t s (data ++ (stuff line ++ crlf)))) w := by
  have hline : ∀ {data w}, Delivering t s data w → wp (do
      orError (transportWriteAll line)
      orError (transportWriteAll crlf)) (gives () (Delivering t s (data ++ (line ++ crlf)))) w := by
    intro data w h
    rw [← List.append_assoc]
    exact wp_gives_seq (wp_write_delivering line h) fun _ => wp_write_delivering crlf
  rw [postLine, stuff]
  split
  · have hdot : data ++ (dot :: line ++ crlf) = data ++ [dot] ++ (line ++ crlf) := by simp
    rw [hdot]
    exact wp_gives_seq (wp_write_delivering [dot] h) fun _ => hline
  · exact hline h

theorem wp_postAll_delivering (lines : List Bytes) (h : Delivering t s data w) :
    wp (postAll lines) (gives () (Delivering t s (data ++ articleBytes lines))) w := by
  induction lines generalizing data w with
  | nil => exact ⟨rfl, by simpa [articleBytes] using h⟩
  | cons line lines ih =>
      rw [articleBytes_cons, ← List.append_assoc]
      exact wp_gives_seq (wp_postLine_delivering line h) fun _ => ih

def Sends (lines : List Bytes) (writeLines : Nntp MockSession Unit) : Prop :=
  ∀ {t : Transport MockSession} {s : ConnectionState} {data : Bytes} {w : World MockSession},
    Delivering t s data w →
      wp writeLines (gives () (Delivering t s (data ++ articleBytes lines))) w

theorem sends_postBytesLoop (article : Bytes) :
    Sends (articleLines article) (postBytesLoop article article.length 0) := by
  intro t s data w h
  rw [postBytesLoop_eq article article.length 0 (by omega)]
  exact wp_postAll_delivering _ h

theorem sends_postLines (lines : List String) :
    Sends (lines.map Text.utf8) (postLines lines) := by
  induction lines with
  | nil =>
      intro t s data w h
      exact ⟨rfl, by simpa [articleBytes] using h⟩
  | cons line lines ih =>
      intro t s data w h
      rw [postLines_cons, List.map_cons, articleBytes_cons, ← List.append_assoc]
      exact wp_gives_seq (wp_write_delivering _ h) fun _ => ih

/-- An article is written, and with the dot at its end the session owes the answer to it. -/
theorem wp_article_facing {lines : List Bytes} {writeLines : Nntp MockSession Unit}
    (hsends : Sends lines writeLines) (hfree : ∀ line ∈ lines, lf ∉ line)
    (hfaults : config.faults.Absent) (h : Facing config state (some []) s [] w) :
    wp (do
        writeLines
        orError (transportWriteAll [dot, cr, lf]))
      (gives () (Facing config (state.received (normalized lines)).state none s
        (state.received (normalized lines)).writes.flatten)) w := by
  obtain ⟨t, ht, hcut, hunread, hserving⟩ := h.linked
  have hstart : Delivering t s [] w :=
    ⟨h.quiet, h.status, h.plain, by rw [t.deliver_nil, ht]⟩
  obtain ⟨between, hlines, hbetween⟩ := MockSession.hearAll_articleLines hserving hfree
  obtain ⟨next, hend, hnext⟩ := MockSession.hearAll_articleEnd hfaults hbetween
  have hheard : Peer.hearAll t.peer ([] ++ articleBytes lines ++ [dot, cr, lf]) =
      (next, (state.received ([] ++ normalized lines)).writes.flatten) := by
    rw [List.nil_append, Peer.hearAll_append, hlines]
    dsimp only
    rw [hend]
    rfl
  refine wp_gives_seq (hsends hstart) fun w₁ h₁ => ?_
  refine wp_mono (wp_write_delivering [dot, cr, lf] h₁) ?_ (fun _ _ h => h) (fun _ h => h)
  rintro _ w₂ ⟨rfl, hquiet, hs, hplain, ht₂⟩
  rw [Transport.deliver, hheard, hunread, List.nil_append] at ht₂
  exact ⟨rfl, hquiet, hs, hplain, _, ht₂, hcut, rfl, hnext⟩

end Exchanges

end NzbNntp
