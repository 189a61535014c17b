import NzbNntp.Connection.Handlers

/-!
Posting an article. The index loop of `post_article_bytes` writes the lines of
the article one after the other, each dot-stuffed and closed by CRLF; so on the
wire no line of the article is the lone dot that ends it.
-/

namespace NzbNntp

open Interruptible Delimited

/-- The text of a line: what stands before its LF, less one trailing CR. -/
def lineText (piece : Bytes) : Bytes := Overview.stripCr (piece.takeWhile (· ≠ lf))

def articleLines (article : Bytes) : List Bytes := (pieces lf article).map lineText

def stuff (line : Bytes) : Bytes := if line.head? = some dot then dot :: line else line

/-- The writes `post_article_bytes` makes for one line. -/
def postLine {π : Type} [Peer π] (line : Bytes) : Nntp π Unit := do
  if line.head? = some dot then orError (transportWriteAll [dot]) else pure ()
  orError (transportWriteAll line)
  orError (transportWriteAll crlf)

def postAll {π : Type} [Peer π] : List Bytes → Nntp π Unit
  | [] => pure ()
  | line :: rest => do
      postLine line
      postAll rest

theorem ne_lf_of_not_mem {text : Bytes} (h : lf ∉ text) : ∀ b ∈ text, b ≠ lf := by
  rintro b hb rfl
  exact h hb

theorem takeWhile_ne_lf {text : Bytes} (h : lf ∉ text) (rest : Bytes) :
    (text ++ lf :: rest).takeWhile (· ≠ lf) = text := by
  rw [List.takeWhile_append_of_pos (by simpa using ne_lf_of_not_mem h)]
  simp

theorem lineText_full (l : WireLine) : lineText l.full = Overview.stripCr l.text := by
  rw [lineText, Piece.full, takeWhile_ne_lf l.free]

theorem lineText_of_not_mem {text : Bytes} (h : lf ∉ text) :
    lineText text = Overview.stripCr text := by
  rw [lineText, List.takeWhile_eq_self_iff.mpr (by simpa using ne_lf_of_not_mem h)]

theorem findIdx?_lf {text : Bytes} (h : lf ∉ text) (rest : Bytes) :
    (text ++ lf :: rest).findIdx? (· = lf) = some text.length := by
  rw [List.findIdx?_append, List.findIdx?_eq_none_iff.mpr (by simpa using ne_lf_of_not_mem h)]
  simp [List.findIdx?_cons]

section PostBytesLoop

variable {π : Type} [Peer π]

/-- One round of the index loop, on the line it finds. -/
theorem postBytesLoop_succ {article : Bytes} {fuel start next : Nat} {line : Bytes}
    (hstart : start < article.length)
    (hline : Overview.stripCr ((article.take
      ((newlineFrom article start).getD article.length)).drop start) = line)
    (hnext : ((newlineFrom article start).map (· + 1)).getD article.length = next) :
    (postBytesLoop article (fuel + 1) start : Nntp π Unit) =
      postLine line >>= fun _ => postBytesLoop article fuel next := by
  rw [postBytesLoop, if_pos hstart]
  dsimp only
  rw [hline, hnext, postLine]
  split <;> simp only [bind_assoc]

/-- The index loop is the loop over the lines. Each round takes one line off the
rest of the article. -/
theorem postBytesLoop_eq (article : Bytes) (fuel start : Nat)
    (hfuel : article.length ≤ start + fuel) :
    (postBytesLoop article fuel start : Nntp π Unit) =
      postAll (articleLines (article.drop start)) := by
  induction fuel generalizing start with
  | zero => rw [postBytesLoop, List.drop_eq_nil_of_le (by omega)]; rfl
  | succ fuel ih =>
      by_cases hstart : start < article.length
      · by_cases hlf : lf ∈ article.drop start
        · obtain ⟨text, rest, hsplit, hfree⟩ := List.eq_append_cons_of_mem hlf
          have hpos : newlineFrom article start = some (start + text.length) := by
            rw [newlineFrom, hsplit, findIdx?_lf hfree]
            rfl
          have hline : (article.take (start + text.length)).drop start = text := by
            rw [List.drop_take, hsplit, Nat.add_sub_cancel_left]
            simp
          have hnext : ((newlineFrom article start).map (· + 1)).getD article.length =
              start + text.length + 1 := by
            rw [hpos]
            rfl
          have hrest : article.drop (start + text.length + 1) = rest := by
            rw [Nat.add_assoc, ← List.drop_drop, hsplit, List.drop_append]
            simp
          have hlines : articleLines (article.drop start) =
              Overview.stripCr text :: articleLines rest := by
            rw [hsplit, articleLines, pieces_append hfree, List.map_cons]
            exact congrArg (· :: _) (lineText_full ⟨text, hfree⟩)
          rw [postBytesLoop_succ hstart (by rw [hpos, Option.getD_some, hline]) hnext,
            ih _ (by omega), hrest, hlines, postAll]
        · have hpos : newlineFrom article start = none := by
            rw [newlineFrom,
              List.findIdx?_eq_none_iff.mpr (by simpa using ne_lf_of_not_mem hlf)]
            rfl
          have hnext : ((newlineFrom article start).map (· + 1)).getD article.length =
              article.length := by
            rw [hpos]
            rfl
          have hlines : articleLines (article.drop start) =
              [Overview.stripCr (article.drop start)] := by
            rw [articleLines, pieces_of_not_mem hlf (by simp; omega), List.map_singleton,
              lineText_of_not_mem hlf]
          rw [postBytesLoop_succ hstart (by rw [hpos, Option.getD_none, List.take_length]) hnext,
            ih _ (by omega), hlines, List.drop_length]
          rfl
      · rw [postBytesLoop, if_neg hstart, List.drop_eq_nil_of_le (by omega)]
        rfl

end PostBytesLoop

/-! ### What the server hears -/

/-- The server waits for article lines, and has heard the bytes `open_` of the
next one. -/
def Posting (open_ : Bytes) (t : Transport ReplyServer) : Prop :=
  Ended t ∨ (t.unread = [] ∧ t.peer.posting = true ∧ t.peer.line = open_)

theorem posting_endStable (open_ : Bytes) : EndStable (Posting open_) := by
  rintro t n (h | h)
  · exact .inl (ended_endStable t n h)
  · exact .inr h

theorem Posting.deliver_text {t : Transport ReplyServer} {open_ text : Bytes}
    (h : Posting open_ t) (hfree : lf ∉ text) : Posting (open_ ++ text) (t.deliver text) := by
  rcases h with hended | ⟨hunread, hposting, hline⟩
  · exact .inl hended
  · have hhear := ReplyServer.hearAll_of_not_mem t.peer hfree
    refine .inr ⟨?_, ?_, ?_⟩
    · simp [Transport.deliver, hhear, hunread]
    · simp [Transport.deliver, hhear, hposting]
    · simp [Transport.deliver, hhear, hline]

/-- A whole line that is not the lone dot leaves the server waiting. -/
theorem Posting.deliver_line {t : Transport ReplyServer} {open_ text : Bytes}
    (h : Posting open_ t) (hfree : lf ∉ text)
    (hterm : isTerminator (open_ ++ text ++ [lf]) = false) :
    Posting [] (t.deliver (text ++ [lf])) := by
  rcases h with hended | ⟨hunread, hposting, hline⟩
  · exact .inl hended
  · have hhear := ReplyServer.hearAll_articleLine t.peer hfree hposting
    rw [hline, hterm, if_neg Bool.false_ne_true] at hhear
    refine .inr ⟨?_, ?_, ?_⟩
    · simp [Transport.deliver, hhear, hunread]
    · rw [Transport.deliver, hhear, ReplyServer.afterArticleLine, hterm]
      rfl
    · rw [Transport.deliver, hhear]
      rfl

theorem Posting.deliver_terminator {t : Transport ReplyServer} (h : Posting [] t) :
    OwesStatus (t.deliver [dot, cr, lf]) := by
  rcases h with hended | ⟨hunread, hposting, hline⟩
  · exact ⟨⟨[], by simp⟩, .inl hended⟩
  · have hhear := ReplyServer.hearAll_articleLine t.peer (show lf ∉ [dot, cr] by decide) hposting
    rw [hline, if_pos (by decide)] at hhear
    refine ⟨(t.peer.nextReply [dot, cr, lf]).status, .inr ⟨?_, ?_⟩⟩
    · rw [Transport.deliver, show [dot, cr, lf] = [dot, cr] ++ [lf] from rfl, hhear, hunread]
      rfl
    · rw [Transport.deliver, show [dot, cr, lf] = [dot, cr] ++ [lf] from rfl, hhear]
      exact ⟨rfl, rfl⟩

theorem blockCode_post : blockCode (commandLine "POST") = none := by decide

theorem AfterStatus.invited {t : Transport ReplyServer}
    (h : AfterStatus (commandLine "POST") 340 t) : Posting [] t := by
  rcases h with hended | ⟨hunread, hline, hposting⟩
  · exact .inl hended
  · rw [if_neg (by decide)] at hunread
    exact .inr ⟨hunread, hposting.trans (by decide), hline⟩

theorem AfterStatus.refused {t : Transport ReplyServer} {code : Nat} (hcode : code ≠ 340)
    (h : AfterStatus (commandLine "POST") code t) : Owes [] t := by
  rcases h with hended | ⟨hunread, hline, hposting⟩
  · exact .inl hended
  · rw [announcesBlock, blockCode_post, if_neg (by simp)] at hunread
    exact .inr ⟨hunread, hline, hposting.trans (by simp [invitesArticle, hcode])⟩

/-! ### Writing the article -/

/-- The postcondition of a part of a `POST`: it ends with `P`, in `Error`, or,
dropped, in `Busy`. -/
def busyPost (α : Type) (P : Transport ReplyServer → Prop) :
    Post NntpError (World ReplyServer) α :=
  ⟨fun _ => At .busy P, fun _ => InState .error, InState .busy⟩

section Writing

variable {w : World ReplyServer}

theorem wp_writeText {open_ text : Bytes} (hfree : lf ∉ text) (hw : At .busy (Posting open_) w) :
    wp (orError (transportWriteAll text)) (busyPost _ (Posting (open_ ++ text))) w :=
  wp_orError (wp_transportWriteAll (posting_endStable _) (fun _ h => h.deliver_text hfree) hw)

theorem wp_writeLine {open_ text : Bytes} (hfree : lf ∉ text)
    (hterm : isTerminator (open_ ++ text ++ [lf]) = false) (hw : At .busy (Posting open_) w) :
    wp (orError (transportWriteAll (text ++ [lf]))) (busyPost _ (Posting [])) w :=
  wp_orError
    (wp_transportWriteAll (posting_endStable _) (fun _ h => h.deliver_line hfree hterm) hw)

/-- No stuffed line is the lone dot. -/
theorem not_isTerminator_stuff (line : Bytes) : isTerminator (stuff line ++ crlf) = false := by
  refine Bool.eq_false_iff.mpr fun h => ?_
  unfold stuff at h
  split at h
  · rename_i hdot
    cases line with
    | nil => cases hdot
    | cons b line =>
        obtain rfl : b = dot := Option.some.inj hdot
        rcases isTerminator_iff.mp h with h | h <;> simp [show dot ≠ cr by decide] at h
  · rename_i hdot
    cases line with
    | nil => exact absurd h (by decide)
    | cons b line =>
        rcases isTerminator_iff.mp h with h | h
        · exact hdot (by simp_all)
        · exact hdot (by simp_all)

theorem wp_postLine {line : Bytes} (hfree : lf ∉ line) (hw : At .busy (Posting []) w) :
    wp (postLine line) (busyPost _ (Posting [])) w := by
  have hrest : ∀ open_ w', open_ ++ line = stuff line → At .busy (Posting open_) w' →
      wp (do orError (transportWriteAll line); orError (transportWriteAll crlf))
        (busyPost _ (Posting [])) w' := by
    intro open_ w' hstuff hw'
    refine wp_seq (wp_writeText hfree hw') ?_ (fun _ _ h => h) (fun _ h => h)
    intro _ w'' hw''
    have hfreeCr : lf ∉ [cr] := by decide
    have hcrlf : crlf = [cr] ++ [lf] := rfl
    rw [hcrlf]
    refine wp_writeLine hfreeCr ?_ hw''
    rw [hstuff, List.append_assoc]
    exact not_isTerminator_stuff line
  rw [postLine]
  split
  · rename_i hdot
    refine wp_seq (wp_writeText (by decide) hw) ?_ (fun _ _ h => h) (fun _ h => h)
    exact fun _ w' hw' => hrest _ w' (by simp [stuff, hdot]) hw'
  · rename_i hdot
    exact hrest [] w (by simp [stuff, hdot]) hw

theorem wp_postAll (lines : List Bytes) (hfree : ∀ line ∈ lines, lf ∉ line)
    {w : World ReplyServer} (hw : At .busy (Posting []) w) :
    wp (postAll lines) (busyPost _ (Posting [])) w := by
  induction lines generalizing w with
  | nil => exact hw
  | cons line rest ih =>
      refine wp_seq (wp_postLine (hfree line (by simp)) hw) ?_ (fun _ _ h => h) (fun _ h => h)
      exact fun _ w' hw' => ih (fun l hl => hfree l (by simp [hl])) hw'

theorem not_mem_stripCr {line : Bytes} (h : lf ∉ line) : lf ∉ Overview.stripCr line := by
  unfold Overview.stripCr
  split
  · exact fun hmem => h (List.mem_of_mem_dropLast hmem)
  · exact h

theorem not_mem_articleLines {article line : Bytes} (h : line ∈ articleLines article) :
    lf ∉ line := by
  simp only [articleLines, List.mem_map] at h
  obtain ⟨piece, -, rfl⟩ := h
  exact not_mem_stripCr fun hmem => by simpa using List.mem_takeWhile_imp hmem

theorem wp_postBytesLoop (article : Bytes) (hw : At .busy (Posting []) w) :
    wp (postBytesLoop article article.length 0) (busyPost _ (Posting [])) w := by
  rw [postBytesLoop_eq article article.length 0 (by omega)]
  exact wp_postAll _ (fun _ h => not_mem_articleLines h) hw

theorem utf8_head_dot {line : String} :
    (Text.utf8 line).head? = some dot ↔ line.toList.head? = some '.' := by
  cases hline : line.toList with
  | nil => simp [Text.utf8, hline]
  | cons c cs =>
      have hne : String.utf8EncodeChar c ≠ [] := String.utf8EncodeChar_ne_nil
      obtain ⟨b, bs, hc⟩ := List.exists_cons_of_ne_nil hne
      rw [Text.utf8, hline, List.flatMap_cons, hc]
      constructor
      · intro h
        obtain rfl : b = dot := Option.some.inj h
        have hmem : dot ∈ String.utf8EncodeChar c := by simp [hc]
        rw [Text.mem_utf8EncodeChar_ascii (by decide)] at hmem
        rw [show c = '.' from Char.toNat_inj.mp hmem]
        rfl
      · intro h
        obtain rfl : c = '.' := Option.some.inj h
        obtain ⟨rfl, -⟩ := List.cons.inj (hc.symm.trans (show _ = [dot] by decide))
        rfl

/-- The one write `post_article` makes for a line. -/
theorem postLines_cons {π : Type} [Peer π] (line : String) (rest : List String) :
    (postLines (line :: rest) : Nntp π Unit) =
      orError (transportWriteAll (stuff (Text.utf8 line) ++ crlf)) >>= fun _ =>
        postLines rest := by
  rw [postLines, stuff]
  by_cases hdot : line.toList.head? = some '.'
  · rw [if_pos hdot, if_pos (utf8_head_dot.mpr hdot)]
    simp only [Text.utf8_append, Text.toString_string]
    rfl
  · rw [if_neg hdot, if_neg (mt utf8_head_dot.mp hdot)]
    simp only [Text.utf8_append, Text.toString_string]
    rfl

theorem not_mem_stuff {line : Bytes} (h : lf ∉ line) : lf ∉ stuff line := by
  unfold stuff
  split
  · simp [h, show lf ≠ dot by decide]
  · exact h

theorem wp_postLines (lines : List String) (hlines : ∀ line ∈ lines, OneLine line)
    {w : World ReplyServer} (hw : At .busy (Posting []) w) :
    wp (postLines lines) (busyPost _ (Posting [])) w := by
  induction lines generalizing w with
  | nil => exact hw
  | cons line rest ih =>
      have hfree : lf ∉ Text.utf8 line := fun h => hlines line (by simp) (Text.lf_mem_utf8.mp h)
      have hterm := not_isTerminator_stuff (Text.utf8 line)
      have hcrlf : stuff (Text.utf8 line) ++ crlf = (stuff (Text.utf8 line) ++ [cr]) ++ [lf] := by
        simp
      rw [hcrlf] at hterm
      rw [postLines_cons, hcrlf]
      refine wp_seq (wp_writeLine ?_ hterm hw) ?_ (fun _ _ h => h) (fun _ h => h)
      · simp [not_mem_stuff hfree, show lf ≠ cr by decide]
      · exact fun _ w' hw' => ih (fun l hl => hlines l (by simp [hl])) hw'

theorem wp_requireTransport {P : Transport ReplyServer → Prop} (hw : At .busy P w) :
    wp requireTransport (busyPost _ P) w := by
  obtain ⟨hs, t, ht, hP⟩ := hw
  simp only [requireTransport, wp_bind, wp_get, ht]
  exact ⟨hs, t, ht, hP⟩

/-! ### The exchange -/

theorem raises_write (data : Bytes) :
    Raises NotRefusal (orError (transportWriteAll data) : Nntp ReplyServer Unit) :=
  raises_inspectErr (raises_transportWriteAll notRefusal_transmitted data) _

theorem raises_postLine (line : Bytes) :
    Raises NotRefusal (postLine line : Nntp ReplyServer Unit) := by
  have htext : Raises NotRefusal (do
      orError (transportWriteAll line)
      orError (transportWriteAll crlf) : Nntp ReplyServer Unit) :=
    raises_bind (raises_write line) fun _ => raises_write crlf
  unfold postLine
  split
  · exact raises_bind (raises_write _) fun _ => htext
  · exact htext

theorem raises_postAll (lines : List Bytes) :
    Raises NotRefusal (postAll lines : Nntp ReplyServer Unit) := by
  induction lines with
  | nil => exact raises_pure ()
  | cons line rest ih => exact raises_bind (raises_postLine line) fun _ => ih

theorem raises_postLines (lines : List String) :
    Raises NotRefusal (postLines lines : Nntp ReplyServer Unit) := by
  induction lines with
  | nil => exact raises_pure ()
  | cons line rest ih =>
      rw [postLines_cons]
      exact raises_bind (raises_write _) fun _ => ih

/-- `POST` settles its exchange, however it writes the article. -/
theorem settles_postWith {writeLines : Nntp ReplyServer Unit}
    (hwrite : ∀ {w}, At .busy (Posting []) w → wp writeLines (busyPost _ (Posting [])) w)
    (hraises : Raises NotRefusal writeLines) (hw : AtRest w) :
    wp (postWith writeLines) (settles _ false w) w := by
  refine settles_command (by decide) hw ?_
  intro status w' h
  split
  case h_1 hcode =>
    rw [hcode] at h
    have hposting : At .busy (Posting []) w' := h.mono fun _ ht => ht.invited
    have hraised : Raises NotRefusal (do
        requireTransport
        writeLines
        orError (transportWriteAll [dot, cr, lf])
        let result ← orError readResponseLine
        returnReady result : Nntp ReplyServer NntpResponse) := by
      refine raises_bind ?_ fun _ => raises_bind hraises fun _ => ?_
      · apply raises_bind raises_get fun w => ?_
        split
        · exact raises_fail rfl
        · exact raises_pure ()
      refine raises_bind (raises_write _) fun _ => raises_bind ?_ fun _ => ?_
      · exact raises_inspectErr (raises_readResponseLine notRefusal_transmitted fun _ => rfl) _
      · exact raises_bind (raises_modify _) fun _ => raises_pure _
    suffices hsent : wp (do
        requireTransport
        writeLines
        orError (transportWriteAll [dot, cr, lf])
        let result ← orError readResponseLine
        returnReady result) ⟨fun _ => AtRest, fun _ => InState .error, InState .busy⟩ w' by
      exact wp_mono (wp_and (hraised w') hsent) (fun _ _ h => h.2)
        (fun _ _ h => fails_of_error h.1 h.2) (fun _ h => h.2)
    refine wp_seq (wp_requireTransport hposting) ?_ (fun _ _ h => h) (fun _ h => h)
    intro _ w₀ hw₀
    refine wp_seq (hwrite hw₀) ?_ (fun _ _ h => h) (fun _ h => h)
    intro _ w₁ hw₁
    refine wp_seq (wp_orError (wp_transportWriteAll (posting_endStable [])
      (fun _ h => h.deliver_terminator) hw₁)) ?_ (fun _ _ h => h) (fun _ h => h)
    intro _ w₂ hw₂
    have hresult : wp (orError readResponseLine) (busyPost _ (Owes [])) w₂ := by
      refine wp_orError (wp_readResponseLine owesStatus_endStable ?_ hw₂)
      exact fun t bytes t' _ _ h hawait _ _ _ => h.awaitLine hawait
    refine wp_seq hresult ?_ (fun _ _ h => h) (fun _ h => h)
    exact fun _ _ h => h.atRest
  case h_2 hcode =>
    rw [hcode] at h
    exact settles_returnReady (h.mono fun _ ht => ht.refused (by decide))
  case h_3 => exact settles_failIn_error rfl

theorem settles_postArticle {article : String} (hw : AtRest w) :
    wp (postArticle article) (settles _ false w) w :=
  settles_postWith (wp_postLines _ fun _ h => Text.not_mem_lines h) (raises_postLines _) hw

theorem settles_postArticleBytes {article : Bytes} (hw : AtRest w) :
    wp (postArticleBytes article) (settles _ false w) w := by
  refine settles_postWith (wp_postBytesLoop article) ?_ hw
  rw [postBytesLoop_eq article article.length 0 (by omega)]
  exact raises_postAll _

end Writing

end NzbNntp
