import NzbNntp.Connection.Multiline
import NzbNntp.Connection.Postings
import NzbNntp.Mock.Basic
import NzbNntp.Text.Words

/-!
What a session of the mock server makes of a whole line, as long as none of its faults is
configured: the answer to a command goes out at once and whole, and the session is where it
was, between two lines.
-/

namespace NzbNntp

open Trimming

/-! ### Words of a command -/

namespace Text

section Commands

variable {table : UppercaseTable}

/-- Upper-case ASCII stays as it is. -/
theorem toUppercase_of_upper {s : String}
    (h : ∀ c ∈ s.toList, c.toNat < 128 ∧ c.toUpper = c) : toUppercase table s = s := by
  have hflat : ∀ cs : List Char, (∀ c ∈ cs, c.toNat < 128 ∧ c.toUpper = c) →
      cs.flatMap table.upper = cs := by
    intro cs
    induction cs with
    | nil => exact fun _ => rfl
    | cons c cs ih =>
        intro hcs
        obtain ⟨hascii, hupper⟩ := hcs c (by simp)
        rw [List.flatMap_cons, table.ascii c hascii, hupper, ih fun d hd => hcs d (by simp [hd])]
        rfl
  rw [toUppercase, hflat _ h, String.ofList_toList]

/-- A command is what is left of its line. -/
theorem trim_command {cmd : String} (h : Bare isWhitespace cmd.toList) :
    trim (cmd ++ "\r\n") = cmd := by
  rw [← String.toList_inj, trim_toList, String.toList_append, trim_append_ends (by simp [isWhitespace]), trim_of_bare h]

theorem splitn_singleton {n : Nat} (w : Word) : splitn (n + 1) ' ' w.text = [w.text] := by
  have hspace : ' ' ∉ w.text.toList := fun h => absurd (w.solid _ h) (by decide)
  rw [splitn]
  cases n with
  | zero => simp [splitnChars]
  | succ n =>
      rw [splitnChars, splitOnce, if_neg hspace]
      simp

theorem splitn_cons {n : Nat} (w : Word) (rest : String) :
    splitn (n + 2) ' ' (w.text ++ " " ++ rest) = w.text :: splitn (n + 1) ' ' rest := by
  have hspace : ' ' ∉ w.text.toList := fun h => absurd (w.solid _ h) (by decide)
  have hsplit : splitOnce ' ' (w.text ++ " " ++ rest).toList = some (w.text.toList, rest.toList) := by
    have htext : (w.text ++ " " ++ rest).toList = w.text.toList ++ ' ' :: rest.toList := by simp
    have hword : ∀ c ∈ w.text.toList, c ≠ ' ' := fun c hc h => hspace (h ▸ hc)
    rw [htext, splitOnce, if_pos (by simp), List.takeWhile_append_of_pos (by simpa using hword),
      List.dropWhile_append_of_pos (by simpa using hword)]
    simp
  rw [splitn, splitnChars, hsplit]
  simp [splitn]

theorem Word.bare (w : Word) : Bare isWhitespace w.text.toList :=
  ⟨fun c hc => w.solid c (List.mem_of_head? hc), fun c hc => w.solid c (List.mem_of_getLast? hc)⟩

/-- What begins with a word, and ends as bare text does, is bare. -/
theorem bare_append (w : Word) {rest : String} (h : Bare isWhitespace rest.toList)
    (hne : rest.toList ≠ []) : Bare isWhitespace (w.text ++ " " ++ rest).toList := by
  obtain ⟨c, cs, hw⟩ := List.exists_cons_of_ne_nil w.nonempty
  constructor
  · intro d hd
    apply w.bare.head
    simpa [hw] using hd
  · intro d hd
    apply h.last
    rw [String.toList_append, List.getLast?_append_of_ne_nil _ hne] at hd
    exact hd

end Commands

end Text

/-! ### Bodies -/

namespace MockConfig

/-- The lines that are sent of an article: one blank line if it has none. -/
def sentLines (data : Bytes) : List Bytes :=
  if articleLines data = [] then [[]] else articleLines data

def lineWrites (line : Bytes) : List Bytes :=
  (if line.head? = some dot then [[dot]] else []) ++ [line, crlf]

theorem flatten_lineWrites (line : Bytes) : (lineWrites line).flatten = stuff line ++ crlf := by
  unfold lineWrites stuff
  split <;> simp

/-- The line that an index loop finds at `start`, and where it goes on. -/
theorem articleLines_drop {data : Bytes} {start : Nat} (hstart : start < data.length) :
    let nlPos := newlineFrom data start
    let next := (nlPos.map (· + 1)).getD data.length
    articleLines (data.drop start) =
        Overview.stripCr ((data.take (nlPos.getD data.length)).drop start) ::
          articleLines (data.drop next) ∧ start < next := by
  dsimp only
  by_cases hlf : lf ∈ data.drop start
  · obtain ⟨text, rest, hsplit, hfree⟩ := List.eq_append_cons_of_mem hlf
    have hpos : newlineFrom data start = some (start + text.length) := by
      rw [newlineFrom, hsplit, findIdx?_lf hfree]
      rfl
    have hline : (data.take (start + text.length)).drop start = text := by
      rw [List.drop_take, hsplit, Nat.add_sub_cancel_left]
      simp
    have hrest : data.drop (start + text.length + 1) = rest := by
      rw [Nat.add_assoc, ← List.drop_drop, hsplit, List.drop_append]
      simp
    rw [hpos, Option.getD_some, Option.map_some, Option.getD_some, hline, hrest, hsplit]
    refine ⟨?_, by omega⟩
    rw [articleLines, Delimited.pieces_append hfree, List.map_cons]
    exact congrArg (· :: _) (lineText_full ⟨text, hfree⟩)
  · have hpos : newlineFrom data start = none := by
      rw [newlineFrom, List.findIdx?_eq_none_iff.mpr (by simpa using ne_lf_of_not_mem hlf)]
      rfl
    have hne : data.drop start ≠ [] := by simpa using hstart
    rw [hpos, Option.getD_none, List.take_length, Option.map_none, Option.getD_none,
      List.drop_length]
    refine ⟨?_, hstart⟩
    rw [articleLines, Delimited.pieces_of_not_mem hlf hne, List.map_singleton,
      lineText_of_not_mem hlf]
    rfl

/-- The loop takes one line after the other off the rest of the article. -/
theorem bodyWrites_eq (data : Bytes) (fuel start : Nat) (hfuel : data.length ≤ start + fuel) :
    bodyWrites data fuel start = (articleLines (data.drop start)).flatMap lineWrites := by
  induction fuel generalizing start with
  | zero =>
      rw [bodyWrites, List.drop_eq_nil_of_le (by omega)]
      rfl
  | succ fuel ih =>
      rw [bodyWrites]
      split
      · rename_i hstart
        obtain ⟨hlines, hnext⟩ := articleLines_drop hstart
        dsimp only at hlines hnext ⊢
        rw [ih _ (by omega), hlines, List.flatMap_cons, lineWrites]
      · rw [List.drop_eq_nil_of_le (by omega)]
        rfl

theorem flatten_flatMap_lineWrites (lines : List Bytes) :
    (lines.flatMap lineWrites).flatten = lines.flatMap fun line => stuff line ++ crlf := by
  induction lines with
  | nil => rfl
  | cons line lines ih =>
      rw [List.flatMap_cons, List.flatten_append, flatten_lineWrites, ih, List.flatMap_cons]

/-- A body goes out as an article does that is posted. -/
theorem flatten_writeMultilineBody (data : Bytes) :
    (writeMultilineBody data).flatten = postedBytes (sentLines data) := by
  have hwrites := bodyWrites_eq data data.length 0 (by omega)
  rw [List.drop_zero] at hwrites
  rw [writeMultilineBody, hwrites, postedBytes, sentLines]
  cases hlines : articleLines data with
  | nil => rfl
  | cons line lines =>
      have hne : ((line :: lines).flatMap lineWrites).isEmpty = false := by
        simp [lineWrites]
      rw [hne, if_neg Bool.false_ne_true, if_neg (List.cons_ne_nil _ _), List.append_nil,
        List.flatten_append, flatten_flatMap_lineWrites]
      simp [terminator]

end MockConfig

/-! ### Whole lines -/

/-- Text that is whole on a line, as a command is. -/
structure Phrase (text : String) : Prop where
  bare : Bare Text.isWhitespace text.toList
  nonempty : text.toList ≠ []
  free : '\n' ∉ text.toList

/-- A word in front of a phrase. -/
theorem Phrase.cons (w : Text.Word) {rest : String} (h : Phrase rest) :
    Phrase (w.text ++ " " ++ rest) where
  bare := Text.bare_append w h.bare h.nonempty
  nonempty := by simp
  free := by simp [w.lf_not_mem, h.free]

def MockConfig.answerTo (config : MockConfig) (state : MockState) (cmd : String) : MockAnswer :=
  let parts := Text.splitn 3 ' ' cmd
  config.answer state (config.verb parts) parts

structure MockFaults.Absent (faults : MockFaults) : Prop where
  silentClose : faults.silentCloseAfterBytes = none
  hang : faults.hangAfterCommand = none
  close : faults.closeAfterNCommands = none

/-- A session between two lines; `posting` is the article it reads. -/
structure Serving (config : MockConfig) (state : MockState) (posting : Option Bytes)
    (session : MockSession) : Prop where
  config : session.config = config
  state : session.state = state
  posting : session.posting = posting
  line : session.line = []
  hung : session.hung = false
  opened : session.closed = false

/-- What the session reads next, unless it ends: a command, or an article from its start. -/
def AfterCommand.reading : AfterCommand → Option (Option Bytes)
  | .counts => some none
  | .reads => some (some [])
  | .quits => none

namespace MockSession

variable {session : MockSession} {config : MockConfig} {state : MockState}

theorem hearAll_text (session : MockSession) (hopen : session.closed = false) {text : Bytes}
    (h : lf ∉ text) :
    Peer.hearAll session text = ({ session with line := session.line ++ text }, []) := by
  induction text generalizing session with
  | nil => simp [Peer.hearAll]
  | cons b text ih =>
      simp only [List.mem_cons, not_or] at h
      have hfirst : Peer.hear session b = ({ session with line := session.line ++ [b] }, []) := by
        change session.hear b = _
        rw [hear, hopen, if_neg Bool.false_ne_true, if_pos (Ne.symm h.1)]
      have hrest := ih { session with line := session.line ++ [b] } hopen h.2
      rw [Peer.hearAll, hfirst, hrest]
      simp

/-- Where nothing is configured to fail, the writes of an answer go out whole. -/
theorem writeAll_whole (session : MockSession) (hfaults : session.config.faults.Absent)
    (hhung : session.hung = false) (writes : List Bytes) :
    session.writeAll writes =
      ({ session with bytesWritten := session.bytesWritten + writes.flatten.length },
        writes.flatten, true) := by
  induction writes generalizing session with
  | nil => rfl
  | cons data rest ih =>
      have hwrite : session.write data =
          ({ session with bytesWritten := session.bytesWritten + data.length }, data, true) := by
        rw [write, hhung, if_neg Bool.false_ne_true, hfaults.silentClose]
      have hrest := ih { session with
        bytesWritten := session.bytesWritten + data.length } hfaults hhung
      rw [writeAll, hwrite]
      dsimp only
      rw [hrest]
      simp [Nat.add_assoc]

/-- The same for a whole answer, after which the loop goes on. -/
theorem respond_whole (h : Serving config state none session) (hfaults : config.faults.Absent)
    (answer : MockAnswer) :
    ∃ next, session.respond answer = (next, answer.writes.flatten) ∧
      ∀ posting, answer.after.reading = some posting →
        Serving config answer.state posting next := by
  obtain ⟨rfl, rfl, hposting, hline, hhung, hopen⟩ := h
  rw [respond, writeAll_whole { session with state := answer.state } hfaults hhung]
  dsimp only
  cases hafter : answer.after with
  | counts =>
      refine ⟨_, rfl, ?_⟩
      rintro _ ⟨⟩
      refine ⟨rfl, rfl, hposting, hline, hhung, ?_⟩
      rw [countCommand, hfaults.close]
      rfl
  | reads =>
      refine ⟨_, rfl, ?_⟩
      rintro _ ⟨⟩
      exact ⟨rfl, rfl, rfl, hline, hhung, hopen⟩
  | quits =>
      refine ⟨_, rfl, ?_⟩
      rintro _ ⟨⟩

/-- A line that is closed by its LF is read. -/
theorem hearAll_line {posting : Option Bytes} (h : Serving config state posting session)
    {text : Bytes} (hfree : lf ∉ text) :
    Peer.hearAll session (text ++ [lf]) = session.lineEnded (text ++ [lf]) := by
  have hline := h.line
  have hopen := h.opened
  have hsame : { session with line := [], closed := false } = session := by
    cases session
    cases hline
    cases hopen
    rfl
  have hopen' : { session with line := session.line ++ text }.closed = false := hopen
  have hlast : Peer.hear { session with line := session.line ++ text } lf =
      session.lineEnded (text ++ [lf]) := by
    change MockSession.hear _ lf = _
    rw [hear, hopen', if_neg Bool.false_ne_true, if_neg (not_not_intro rfl)]
    dsimp only
    rw [hsame, hline, List.nil_append]
  rw [Peer.hearAll_append, hearAll_text session hopen hfree]
  simp only [Peer.hearAll, hlast, List.nil_append, List.append_nil]

/-- A command is answered at once, and the session waits for the next line. -/
theorem hearAll_command (h : Serving config state none session) (hfaults : config.faults.Absent)
    {cmd : String} (hcmd : Phrase cmd) {answer : MockAnswer}
    (hanswer : config.answerTo state cmd = answer) :
    ∃ next, Peer.hearAll session (commandLine cmd) = (next, answer.writes.flatten) ∧
      ∀ posting, answer.after.reading = some posting →
        Serving config answer.state posting next := by
  have hline : lf ∉ Text.utf8 cmd ++ [cr] := by
    simp [Text.lf_mem_utf8, hcmd.free, show lf ≠ cr by decide]
  have hheard : Peer.hearAll session (commandLine cmd) = session.command cmd := by
    rw [commandLine_eq, hearAll_line h hline, lineEnded, h.posting, ← commandLine_eq,
      commandLine]
    dsimp only
    rw [lineRead, Text.fromUtf8_utf8]
    dsimp only
    rw [Text.trim_command hcmd.bare, if_neg (by simpa using hcmd.nonempty)]
  have hhang : session.config.faults.hangAfterCommand = none := h.config ▸ hfaults.hang
  have hsame : ∀ cmd, session.hangOn cmd = session := by
    intro cmd
    rw [hangOn, hhang, Option.any_none, Bool.or_false]
  have hrespond : session.command cmd = session.respond answer := by
    rw [command, hsame, h.config, h.state, ← hanswer]
    rfl
  rw [hheard, hrespond]
  exact respond_whole h hfaults answer

/-! ### Articles that are posted -/

/-- A line of an article is captured as the client had it. -/
theorem hearAll_articleLine {article line : Bytes} (h : Serving config state (some article) session)
    (hfree : lf ∉ line) :
    ∃ next, Peer.hearAll session (stuff line ++ crlf) = (next, []) ∧
      Serving config state (some (article ++ line ++ crlf)) next := by
  obtain ⟨hconfig, hstate, hposting, hline, hhung, hopen⟩ := h
  have htext : lf ∉ stuff line ++ [cr] := by
    simp [not_mem_stuff hfree, show lf ≠ cr by decide]
  have hnot : stuff line ≠ [dot] := by
    intro hdot
    have hterm := not_isTerminator_stuff line
    rw [hdot] at hterm
    exact absurd hterm (by decide)
  have hunstuff : unstuff (stuff line) = line := by
    unfold stuff
    split
    · rename_i hdot
      cases line with
      | nil => cases hdot
      | cons b line =>
          obtain rfl : b = dot := Option.some.inj hdot
          simp [unstuff]
    · rename_i hdot
      cases line with
      | nil => rfl
      | cons b line =>
          have hne : b ≠ dot := fun h => hdot (by rw [h]; rfl)
          simp [unstuff, Ne.symm hne]
  have hbytes : stuff line ++ crlf = stuff line ++ [cr] ++ [lf] := by simp
  rw [hbytes, hearAll_line ⟨hconfig, hstate, hposting, hline, hhung, hopen⟩ htext, lineEnded,
    hposting]
  dsimp only
  rw [articleLineRead, stripLf_concat, Overview.stripCr_concat]
  dsimp only
  rw [if_neg hnot, hunstuff]
  exact ⟨_, rfl, hconfig, hstate, rfl, hline, hhung, hopen⟩

theorem hearAll_articleLines {article : Bytes} {lines : List Bytes}
    (h : Serving config state (some article) session) (hfree : ∀ line ∈ lines, lf ∉ line) :
    ∃ next, Peer.hearAll session (articleBytes lines) = (next, []) ∧
      Serving config state (some (article ++ normalized lines)) next := by
  induction lines generalizing session article with
  | nil => exact ⟨session, rfl, by simpa [normalized] using h⟩
  | cons line lines ih =>
      obtain ⟨next, hfirst, hnext⟩ := hearAll_articleLine h (hfree line (by simp))
      obtain ⟨last, hrest, hlast⟩ := ih hnext fun l hl => hfree l (by simp [hl])
      refine ⟨last, ?_, by simpa [normalized] using hlast⟩
      rw [articleBytes_cons, Peer.hearAll_append, hfirst, hrest]
      rfl

/-- The dot ends the article, which is answered. -/
theorem hearAll_articleEnd (hfaults : config.faults.Absent) {article : Bytes}
    (h : Serving config state (some article) session) :
    ∃ next, Peer.hearAll session [dot, cr, lf] =
        (next, (state.received article).writes.flatten) ∧
      Serving config (state.received article).state none next := by
  have hline : lf ∉ [dot, cr] := by decide
  have hended : session.lineEnded ([dot, cr] ++ [lf]) =
      { session with posting := none }.respond (state.received article) := by
    rw [lineEnded, h.posting]
    dsimp only
    rw [articleLineRead, stripLf_concat, if_pos (by decide), h.state]
  have hserving : Serving config state none { session with posting := none } :=
    ⟨h.config, h.state, rfl, h.line, h.hung, h.opened⟩
  obtain ⟨next, hrespond, hnext⟩ := respond_whole hserving hfaults (state.received article)
  refine ⟨next, ?_, hnext none rfl⟩
  rw [← hrespond, ← hended]
  exact hearAll_line h hline

end MockSession

end NzbNntp
