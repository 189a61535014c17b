import NzbNntp.Connection.Posting

/-!
The multi-line reader on a stream that brings no I/O error: it returns the lines
before the first terminator, unstuffed, and leaves what follows the terminator;
on a stream that ends before a terminator it fails. Posting is the inverse.
-/

namespace NzbNntp

open Interruptible Delimited

def HasTerminator (stream : Bytes) : Prop := ∃ l ∈ pieces lf stream, isTerminator l = true

def blockBody (stream : Bytes) : Bytes :=
  (((pieces lf stream).takeWhile fun l => !isTerminator l).map unstuff).flatten

def afterBlock (stream : Bytes) : Bytes :=
  ((pieces lf stream).dropWhile fun l => !isTerminator l).tail.flatten

section Streams

theorem hasTerminator_full {l : WireLine} {rest : Bytes} :
    HasTerminator (l.full ++ rest) ↔ isTerminator l.full = true ∨ HasTerminator rest := by
  simp [HasTerminator]

theorem not_hasTerminator_of_lf_not_mem {stream : Bytes} (h : lf ∉ stream) :
    ¬ HasTerminator stream := by
  rintro ⟨l, hl, hterm⟩
  have hmem : l ∈ pieces lf stream ∧ lf ∈ l := ⟨hl, lf_mem_of_isTerminator hterm⟩
  exact h (by rw [← flatten_pieces lf stream]; exact List.mem_flatten.mpr ⟨l, hmem⟩)

theorem blockBody_of_terminator {l : WireLine} {rest : Bytes} (h : isTerminator l.full = true) :
    blockBody (l.full ++ rest) = [] := by
  simp [blockBody, h]

theorem afterBlock_of_terminator {l : WireLine} {rest : Bytes} (h : isTerminator l.full = true) :
    afterBlock (l.full ++ rest) = rest := by
  simp [afterBlock, h]

theorem blockBody_of_line {l : WireLine} {rest : Bytes} (h : isTerminator l.full = false) :
    blockBody (l.full ++ rest) = unstuff l.full ++ blockBody rest := by
  simp [blockBody, h]

theorem afterBlock_of_line {l : WireLine} {rest : Bytes} (h : isTerminator l.full = false) :
    afterBlock (l.full ++ rest) = afterBlock rest := by
  simp [afterBlock, h]

end Streams

section Reader

variable {π : Type} {w : World π}

def Quiet (w : World π) : Prop := ∀ e ∈ w.events, e = .ready

theorem Quiet.nextEvent (h : Quiet w) : w.nextEvent = .ready := by
  cases hevents : w.events with
  | nil => simp [World.nextEvent, hevents]
  | cons e es => simpa [World.nextEvent, hevents] using h e (by simp [hevents])

theorem Quiet.tick (h : Quiet w) : Quiet w.tick :=
  fun e he => h e (List.mem_of_mem_tail he)

theorem available_take (t : Transport π) (n : Nat) :
    (t.take n).available = t.available.drop n := by
  unfold Transport.available Transport.take
  cases t.cut with
  | none => rfl
  | some c => simp [List.drop_take]

def Reading (stream : Bytes) (ends : Bool) (w : World π) : Prop :=
  Quiet w ∧ ∃ t, w.conn.transport = some t ∧ t.available = stream ∧ t.cut.isSome = ends

/-- The postcondition of a line read: the line is `line`, the stream goes on with
`rest`. -/
def readsLine (line rest : Bytes) (ends : Bool) : Post NntpError (World π) Bytes :=
  ⟨fun l w => l = line ∧ Reading rest ends w, fun _ _ => False, fun _ => False⟩

theorem wp_readBodyLine_of_awaitLine {timedOut : NntpError} {stream line : Bytes} {ends : Bool}
    (hline : ∀ t : Transport π, t.available = stream → t.cut.isSome = ends →
      t.awaitLine = (.done, line, t.take line.length))
    (hw : Reading stream ends w) :
    wp (readBodyLine timedOut) (readsLine line (stream.drop line.length) ends) w := by
  obtain ⟨hquiet, t, ht, havail, hends⟩ := hw
  have ht' : (w.setLineScratch []).conn.transport = some t := ht
  have hnext : (w.setLineScratch []).nextEvent = .ready := hquiet.nextEvent
  simp only [readBodyLine, wp_bind, wp_modify, wp_onTransport ht', hnext, Transport.readUntilLf,
    hline t havail hends, settle, wp_pure]
  refine ⟨rfl, hquiet.tick, t.take line.length, rfl, ?_, ?_⟩
  · rw [available_take, havail]
  · rw [← hends, Transport.take, Option.isSome_map]

theorem wp_readBodyLine_line {timedOut : NntpError} {l : WireLine} {rest : Bytes} {ends : Bool}
    (hw : Reading (l.full ++ rest) ends w) :
    wp (readBodyLine timedOut) (readsLine l.full rest ends) w := by
  have h : wp (readBodyLine timedOut)
      (readsLine l.full ((l.full ++ rest).drop l.full.length) ends) w :=
    wp_readBodyLine_of_awaitLine (fun t havail _ => awaitLine_of_available havail) hw
  rwa [List.drop_left] at h

/-- At the end of the stream: the unfinished line, or nothing. -/
theorem wp_readBodyLine_last {timedOut : NntpError} {text : Bytes} (hfree : lf ∉ text)
    (hw : Reading text true w) : wp (readBodyLine timedOut) (readsLine text [] true) w := by
  have h : wp (readBodyLine timedOut) (readsLine text (text.drop text.length) true) w := by
    refine wp_readBodyLine_of_awaitLine (fun t havail hends => ?_) hw
    simp [Transport.awaitLine, havail, breakAfter_of_not_mem hfree, hends]
  rwa [List.drop_length] at h

/-- What a multi-line read gives: the body before the terminator, or the error
of a stream that ends before one, all of it read. -/
def readsBlock (out stream : Bytes) (ends : Bool) : Post NntpError (World π) Bytes where
  ok b w := HasTerminator stream ∧ b = out ++ blockBody stream ∧ Reading (afterBlock stream) ends w
  err e w := ¬ HasTerminator stream ∧
    e = .connection "Server closed connection during multi-line read" ∧ Reading [] ends w
  dropped _ := False

/-- The loop on a whole stream, by induction along its lines. Each line takes a
byte at least, which the fuel pays for. -/
theorem wp_multilineLoop_reads (stream : Bytes) {ends : Bool} {w : World π} (fuel : Nat)
    (out : Bytes) (hfuel : stream.length < fuel) (hends : ends = true ∨ HasTerminator stream)
    (hw : Reading stream ends w) :
    wp (multilineLoop none fuel out) (readsBlock out stream ends) w := by
  induction stream using pieces_induction (d := lf) generalizing w fuel out with
  | nil =>
      obtain rfl : ends = true := hends.resolve_right (not_hasTerminator_of_lf_not_mem (by simp))
      obtain ⟨fuel, rfl⟩ : ∃ k, fuel = k + 1 := ⟨fuel - 1, by omega⟩
      rw [multilineLoop]
      refine wp_seq (wp_readBodyLine_last (by simp) hw) ?_ (fun _ _ h => h.elim) (fun _ h => h)
      rintro line w' ⟨rfl, hw'⟩
      exact ⟨not_hasTerminator_of_lf_not_mem (by simp), rfl, hw'⟩
  -- An unterminated last line is appended; the read after it meets the end of the stream.
  | last text hfree hne =>
      have hnone := not_hasTerminator_of_lf_not_mem hfree
      obtain rfl : ends = true := hends.resolve_right hnone
      have hlen : 0 < text.length := List.length_pos_of_ne_nil hne
      obtain ⟨fuel, rfl⟩ : ∃ k, fuel = k + 2 := ⟨fuel - 2, by omega⟩
      rw [multilineLoop]
      refine wp_seq (wp_readBodyLine_last hfree hw) ?_ (fun _ _ h => h.elim) (fun _ h => h)
      rintro line w' ⟨rfl, hw'⟩
      rw [not_isTerminator_of_lf_not_mem hfree, if_neg (by simpa using hne)]
      change wp (multilineLoop none (fuel + 1) _) _ w'
      rw [multilineLoop]
      refine wp_seq (wp_readBodyLine_last (by simp) hw') ?_ (fun _ _ h => h.elim) (fun _ h => h)
      rintro line' w'' ⟨rfl, hw''⟩
      exact ⟨hnone, rfl, hw''⟩
  | cons l rest ih =>
      have hlen : 0 < l.full.length := by simp [Piece.full]
      rw [List.length_append] at hfuel
      obtain ⟨fuel, rfl⟩ : ∃ k, fuel = k + 1 := ⟨fuel - 1, by omega⟩
      rw [multilineLoop]
      refine wp_seq (wp_readBodyLine_line hw) ?_ (fun _ _ h => h.elim) (fun _ h => h)
      rintro line w' ⟨rfl, hw'⟩
      rw [if_neg (by simp [Piece.full])]
      cases hterm : isTerminator l.full with
      | true =>
          rw [if_pos rfl]
          refine ⟨hasTerminator_full.mpr (.inl hterm), ?_, ?_⟩
          · rw [blockBody_of_terminator hterm, List.append_nil]
          · rwa [afterBlock_of_terminator hterm]
      | false =>
          have hiff : HasTerminator (l.full ++ rest) ↔ HasTerminator rest := by
            simp [hasTerminator_full, hterm]
          rw [if_neg Bool.false_ne_true]
          change wp (multilineLoop none fuel _) _ w'
          refine wp_mono (ih fuel (out ++ unstuff l.full) (by omega)
            (hends.imp_right hiff.mp) hw') ?_ ?_ (fun _ h => h)
          · rintro b w'' ⟨hrest, rfl, hw''⟩
            refine ⟨hiff.mpr hrest, ?_, ?_⟩
            · rw [blockBody_of_line hterm, List.append_assoc]
            · rwa [afterBlock_of_line hterm]
          · rintro e w'' ⟨hrest, rfl, hw''⟩
            exact ⟨fun h => hrest (hiff.mp h), rfl, hw''⟩

theorem wp_readMultilineBody_reads {stream : Bytes} {ends : Bool}
    (hends : ends = true ∨ HasTerminator stream) (hw : Reading stream ends w) :
    wp readMultilineBody (readsBlock [] stream ends) w := by
  obtain ⟨hquiet, t, ht, havail, hcut⟩ := hw
  refine wp_multilineLoop_reads stream _ [] ?_ hends ⟨hquiet, t, ht, havail, hcut⟩
  have hle := available_length_le t
  rw [havail] at hle
  change stream.length < (w.conn.transport.map fun t => t.unread.length).getD 0 + 1
  rw [ht]
  exact Nat.lt_succ_of_le hle

end Reader

/-- **The multi-line reader is exact.** On a stream that ends, a block is
returned if and only if the stream holds a terminator; it is the unstuffed lines
before the first one, and what follows that one is left unread. Without a
terminator the read fails. The buffers a connection has used before play no
part. -/
theorem readMultilineBody_exact {π : Type} (w : World π) (t : Transport π)
    (ht : w.conn.transport = some t) (hends : t.cut.isSome = true)
    (hquiet : ∀ e ∈ w.events, e = .ready) :
    (HasTerminator t.available →
      ∃ w' t', readMultilineBody w = .ok (blockBody t.available) w' ∧
        w'.conn.transport = some t' ∧ t'.available = afterBlock t.available) ∧
    (¬ HasTerminator t.available →
      ∃ w', readMultilineBody w =
        .err (.connection "Server closed connection during multi-line read") w') := by
  have h : wp readMultilineBody (readsBlock [] t.available true) w :=
    wp_readMultilineBody_reads (.inl rfl) ⟨hquiet, t, ht, rfl, hends⟩
  unfold wp at h
  cases hrun : readMultilineBody w with
  | ok b w' =>
      rw [hrun] at h
      obtain ⟨hterm, rfl, -, t', ht', havail, -⟩ := h
      exact ⟨fun _ => ⟨w', t', rfl, ht', havail⟩, fun hno => absurd hterm hno⟩
  | err e w' =>
      rw [hrun] at h
      obtain ⟨hno, rfl, -⟩ := h
      exact ⟨fun hterm => absurd hterm hno, fun _ => ⟨w', rfl⟩⟩
  | dropped w' =>
      rw [hrun] at h
      exact h.elim

def World.reading (stream : Bytes) : World Unit where
  conn := {
    serverId := "news"
    state := .busy
    transport := some { tls := false, peer := (), unread := stream, cut := some stream.length } }

theorem readMultilineBody_exact_on_stuffed_dot :
    ∃ w' t', readMultilineBody (.reading (Text.utf8 "..\n.\r\nrest")) =
        .ok (blockBody (Text.utf8 "..\n.\r\nrest")) w' ∧
      w'.conn.transport = some t' ∧ t'.available = afterBlock (Text.utf8 "..\n.\r\nrest") :=
  (readMultilineBody_exact (.reading (Text.utf8 "..\n.\r\nrest")) _ rfl rfl
    (by simp [World.reading])).1 ⟨[dot, cr, lf], by decide, by decide⟩

/-! ### Posting, and reading back -/

/-- What `post_article_bytes` puts on the wire after the `340` reply. -/
def postedBytes (lines : List Bytes) : Bytes :=
  (lines.flatMap fun line => stuff line ++ crlf) ++ [dot, cr, lf]

def normalized (lines : List Bytes) : Bytes := lines.flatMap (· ++ crlf)

theorem unstuff_stuff (line : Bytes) : unstuff (stuff line ++ crlf) = line ++ crlf := by
  unfold stuff
  split
  · rename_i hdot
    cases line with
    | nil => cases hdot
    | cons b line =>
        obtain rfl : b = dot := Option.some.inj hdot
        simp [unstuff]
  · rename_i hdot
    cases line with
    | nil => decide
    | cons b line =>
        have hne : b ≠ dot := fun h => hdot (by rw [h]; rfl)
        simp [unstuff, Ne.symm hne]

/-- The reader undoes the writer, whatever follows on the stream. -/
theorem block_of_postedBytes (lines : List Bytes) (hfree : ∀ line ∈ lines, lf ∉ line)
    (rest : Bytes) :
    HasTerminator (postedBytes lines ++ rest) ∧
      blockBody (postedBytes lines ++ rest) = normalized lines ∧
      afterBlock (postedBytes lines ++ rest) = rest := by
  induction lines with
  | nil =>
      have hsplit : postedBytes [] ++ rest = (⟨[dot, cr], by decide⟩ : WireLine).full ++ rest := rfl
      have hterm : isTerminator (⟨[dot, cr], by decide⟩ : WireLine).full = true := by decide
      rw [hsplit]
      exact ⟨hasTerminator_full.mpr (.inl hterm), blockBody_of_terminator hterm,
        afterBlock_of_terminator hterm⟩
  | cons line lines ih =>
      obtain ⟨hhas, hbody, hafter⟩ := ih fun l hl => hfree l (by simp [hl])
      have hline : lf ∉ stuff line ++ [cr] := by
        simp [not_mem_stuff (hfree line (by simp)), show lf ≠ cr by decide]
      let l : WireLine := ⟨stuff line ++ [cr], hline⟩
      have hfull : l.full = stuff line ++ crlf := by simp [l, Piece.full]
      have hsplit : postedBytes (line :: lines) ++ rest = l.full ++ (postedBytes lines ++ rest) := by
        rw [hfull]
        simp [postedBytes]
      have hterm : isTerminator l.full = false := by
        rw [hfull]
        exact not_isTerminator_stuff line
      rw [hsplit]
      refine ⟨hasTerminator_full.mpr (.inr hhas), ?_, ?_⟩
      · rw [blockBody_of_line hterm, hfull, unstuff_stuff, hbody]
        simp [normalized]
      · rw [afterBlock_of_line hterm, hafter]

section Wire

variable {π : Type} [Peer π] {w : World π}

def Wrote (b : Bytes) (t : Transport π) : Prop := t.wire = b

/-- What a success says about the transport; nothing is said of a failure. -/
def ifOk {α : Type} (P : Transport π → Prop) : Post NntpError (World π) α where
  ok _ w := ∃ t, w.conn.transport = some t ∧ P t
  err _ _ := True
  dropped _ := True

theorem wp_write_wrote {b data : Bytes} {t : Transport π} (ht : w.conn.transport = some t)
    (hb : Wrote b t) :
    wp (orError (transportWriteAll data)) (ifOk (Wrote (b ++ data))) w := by
  have hend : EndStable (Wrote b : Transport π → Prop) := fun _ _ h => h
  have hdeliver : ∀ t : Transport π, Wrote b t → Wrote (b ++ data) (t.deliver data) := by
    rintro t rfl
    rfl
  exact wp_mono (wp_orError (wp_transportWriteAll hend hdeliver ⟨rfl, t, ht, hb⟩))
    (fun _ _ h => h.2) (fun _ _ _ => trivial) (fun _ _ => trivial)

theorem wp_postLine_wrote {b line : Bytes} {t : Transport π} (ht : w.conn.transport = some t)
    (hb : Wrote b t) : wp (postLine line) (ifOk (Wrote (b ++ (stuff line ++ crlf)))) w := by
  have hrest : ∀ b' (w' : World π) t', b' ++ line = b ++ stuff line →
      w'.conn.transport = some t' → Wrote b' t' →
      wp (do orError (transportWriteAll line); orError (transportWriteAll crlf))
        (ifOk (Wrote (b ++ (stuff line ++ crlf)))) w' := by
    intro b' w' t' hstuff ht' hb'
    refine wp_seq (wp_write_wrote ht' hb') ?_ (fun _ _ h => h) (fun _ h => h)
    rintro _ w'' ⟨t'', ht'', hb''⟩
    rw [← List.append_assoc, ← hstuff]
    exact wp_write_wrote ht'' hb''
  rw [postLine]
  split
  · rename_i hdot
    refine wp_seq (wp_write_wrote ht hb) ?_ (fun _ _ h => h) (fun _ h => h)
    rintro _ w' ⟨t', ht', hb'⟩
    exact hrest _ w' t' (by simp [stuff, hdot]) ht' hb'
  · rename_i hdot
    exact hrest b w t (by simp [stuff, hdot]) ht hb

theorem wp_postAll_wrote (lines : List Bytes) {b : Bytes} {w : World π} {t : Transport π}
    (ht : w.conn.transport = some t) (hb : Wrote b t) :
    wp (postAll lines)
      (ifOk (Wrote (b ++ lines.flatMap fun line => stuff line ++ crlf))) w := by
  induction lines generalizing b w t with
  | nil => exact ⟨t, ht, by simpa using hb⟩
  | cons line lines ih =>
      refine wp_seq (wp_postLine_wrote ht hb) ?_ (fun _ _ h => h) (fun _ h => h)
      rintro _ w' ⟨t', ht', hb'⟩
      rw [List.flatMap_cons, ← List.append_assoc]
      exact ih ht' hb'

omit [Peer π] in
theorem wp_readResponseLine_wrote {b : Bytes} {t : Transport π} (ht : w.conn.transport = some t)
    (hb : Wrote b t) : wp (orError readResponseLine) (ifOk (Wrote b)) w := by
  have hend : EndStable (Wrote b : Transport π → Prop) := fun _ _ h => h
  refine wp_mono (wp_orError (wp_readResponseLine hend ?_ ⟨rfl, t, ht, hb⟩))
    (fun _ _ h => h.2) (fun _ _ _ => trivial) (fun _ _ => trivial)
  intro t₀ bytes t' _ _ hb₀ hawait _ _ _
  rw [(awaitLine_take hawait).1]
  exact hb₀

/-- What `POST` does after the invitation to send the article. -/
def sendArticle (writeLines : Nntp π Unit) : Nntp π NntpResponse := do
  requireTransport
  writeLines
  orError (transportWriteAll [dot, cr, lf])
  let result ← orError readResponseLine
  returnReady result

omit [Peer π] in
theorem wp_requireReady_same (operation : String) :
    wp (requireReady operation) ⟨fun _ w' => w' = w, fun _ _ => True, fun _ => True⟩ w := by
  simp only [requireReady, wp_bind, wp_get]
  split
  · trivial
  · rfl

/-- A `POST` that was invited and succeeded has sent the article. -/
theorem postWith_invited {writeLines : Nntp π Unit} {status resp : NntpResponse}
    {w₁ w₂ : World π} (hstatus : request "POST" w = .ok status w₁) (hcode : status.code = 340)
    (hpost : postWith writeLines w = .ok resp w₂) : sendArticle writeLines w₁ = .ok resp w₂ := by
  have hrequest : wp (request "POST")
      ⟨fun s w' => s = status ∧ w' = w₁, fun _ _ => True, fun _ => True⟩ w := by
    unfold wp
    rw [hstatus]
    exact ⟨rfl, rfl⟩
  have hsend : wp (postWith writeLines)
      ⟨fun r w' => sendArticle writeLines w₁ = .ok r w', fun _ _ => True, fun _ => True⟩ w := by
    refine wp_seq (wp_requireReady_same "POST") ?_ (fun _ _ h => h) (fun _ h => h)
    rintro _ w' rfl
    refine wp_seq hrequest ?_ (fun _ _ h => h) (fun _ h => h)
    rintro s w' ⟨rfl, rfl⟩
    rw [hcode]
    exact wp_mono (wp_run (sendArticle writeLines) _) (fun _ _ h => h) (fun _ _ _ => trivial)
      (fun _ _ => trivial)
  exact wp_ok hsend hpost

theorem wp_sendArticle_wrote {article b : Bytes} {t : Transport π}
    (ht : w.conn.transport = some t) (hb : Wrote b t) :
    wp (sendArticle (postBytesLoop article article.length 0))
      (ifOk (Wrote (b ++ postedBytes (articleLines article)))) w := by
  have htransport : wp requireTransport (ifOk (Wrote b)) w := by
    simp only [requireTransport, wp_bind, wp_get, ht]
    exact ⟨t, ht, hb⟩
  refine wp_seq htransport ?_ (fun _ _ h => h) (fun _ h => h)
  rintro _ w₀ ⟨t₀, ht₀, hb₀⟩
  rw [postBytesLoop_eq article article.length 0 (by omega), List.drop_zero]
  refine wp_seq (wp_postAll_wrote _ ht₀ hb₀) ?_ (fun _ _ h => h) (fun _ h => h)
  rintro _ w₁ ⟨t₁, ht₁, hb₁⟩
  refine wp_seq (wp_write_wrote ht₁ hb₁) ?_ (fun _ _ h => h) (fun _ h => h)
  rintro _ w₂ ⟨t₂, ht₂, hb₂⟩
  refine wp_seq (wp_readResponseLine_wrote ht₂ hb₂) ?_ (fun _ _ h => h) (fun _ h => h)
  rintro resp w₃ ⟨t₃, ht₃, hb₃⟩
  refine ⟨t₃, ht₃, ?_⟩
  rw [Wrote, hb₃, postedBytes, List.append_assoc]

end Wire

/-- **Posting and reading are inverse on the wire.** Let `written` be what a
successful `post_article_bytes` puts on the wire after the `340` reply. Whatever
follows `written` on a stream, reading it back gives the article with uniform
line ends and leaves what follows unread. -/
theorem posted_article_reads_back {π ρ : Type} [Peer π] (article written rest : Bytes)
    (w w₁ w₂ : World π) (status resp : NntpResponse)
    (hstatus : request "POST" w = .ok status w₁) (hcode : status.code = 340)
    (hpost : postArticleBytes article w = .ok resp w₂)
    (t₁ t₂ : Transport π) (ht₁ : w₁.conn.transport = some t₁) (ht₂ : w₂.conn.transport = some t₂)
    (hwritten : t₂.wire = t₁.wire ++ written)
    (r : World ρ) (t : Transport ρ) (ht : r.conn.transport = some t)
    (havail : t.available = written ++ rest) (hquiet : ∀ e ∈ r.events, e = .ready) :
    ∃ r' t', readMultilineBody r = .ok (normalized (articleLines article)) r' ∧
      r'.conn.transport = some t' ∧ t'.available = rest := by
  have hwire : written = postedBytes (articleLines article) := by
    obtain ⟨t₂', ht₂', hb⟩ := wp_ok (wp_sendArticle_wrote ht₁ (b := t₁.wire) rfl)
      (postWith_invited hstatus hcode hpost)
    obtain rfl : t₂ = t₂' := Option.some.inj (ht₂.symm.trans ht₂')
    exact List.append_cancel_left (hwritten.symm.trans hb)
  obtain ⟨hterm, hbody, hafter⟩ :=
    block_of_postedBytes (articleLines article) (fun _ h => not_mem_articleLines h) rest
  rw [hwire] at havail
  have h : wp readMultilineBody (readsBlock [] t.available t.cut.isSome) r :=
    wp_readMultilineBody_reads (.inr (by rwa [havail])) ⟨hquiet, t, ht, rfl, rfl⟩
  unfold wp at h
  cases hrun : readMultilineBody r with
  | ok b r' =>
      rw [hrun] at h
      obtain ⟨-, rfl, -, t', ht', havail', -⟩ := h
      rw [havail, hbody, List.nil_append]
      exact ⟨r', t', rfl, ht', by rw [havail', havail, hafter]⟩
  | err e r' =>
      rw [hrun] at h
      exact absurd (by rwa [havail]) h.1
  | dropped r' =>
      rw [hrun] at h
      exact h.elim

def newsServer : ReplyServer where
  answer heard :=
    if heard.length = 1 then .bare (Text.utf8 "340 Send it\r") (by decide)
    else .bare (Text.utf8 "240 Received\r") (by decide)

theorem posted_article_reads_back_on_dots :
    ∃ r' t', readMultilineBody (.reading (Text.utf8 "..\r\nab\r\n.\r\n430 no\r\n")) =
        .ok (normalized (articleLines (Text.utf8 ".\nab"))) r' ∧
      r'.conn.transport = some t' ∧ t'.available = Text.utf8 "430 no\r\n" :=
  posted_article_reads_back (Text.utf8 ".\nab") (Text.utf8 "..\r\nab\r\n.\r\n")
    (Text.utf8 "430 no\r\n") (.readyTo newsServer) _ _ _ _ rfl rfl rfl _ _ rfl rfl (by decide)
    (.reading (Text.utf8 "..\r\nab\r\n.\r\n430 no\r\n")) _ rfl (by decide)
    (by simp [World.reading])

end NzbNntp
