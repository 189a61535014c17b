import NzbNntp.Connection.Blocks
import NzbNntp.Connection.Calls
import NzbNntp.Connection.Multiline

/-!
`fetch_body` without `BODY`: it issues `ARTICLE` and strips the headers. What is left of an
article of header lines, a blank line and a body is the body, whatever its lines look like.
-/

namespace NzbNntp

open Interruptible

/-! ### The separator -/

section Separator

/-- No separator begins where no line ends. -/
theorem stripArticleHeaders_cons {a b : UInt8} (hb : b ≠ lf) (rest : Bytes) :
    stripArticleHeaders (a :: b :: rest) = stripArticleHeaders (b :: rest) := by
  rw [stripArticleHeaders.eq_def]
  dsimp only
  rw [if_neg fun h => hb h.2, if_neg fun h => hb h.2]

theorem stripArticleHeaders_crlf (c d : UInt8) (rest : Bytes) :
    stripArticleHeaders (cr :: lf :: c :: d :: rest) =
      if c = cr ∧ d = lf then rest else stripArticleHeaders (lf :: c :: d :: rest) := by
  rw [stripArticleHeaders, if_pos ⟨rfl, rfl⟩]

/-- The byte after a line without LF, or inside it, is no LF. -/
theorem exists_cons_line {line : Bytes} (hfree : lf ∉ line) (rest : Bytes) :
    ∃ b more, b ≠ lf ∧ line ++ cr :: lf :: rest = b :: more := by
  cases line with
  | nil => exact ⟨cr, lf :: rest, by decide, rfl⟩
  | cons b line =>
      simp only [List.mem_cons, not_or] at hfree
      exact ⟨b, line ++ cr :: lf :: rest, Ne.symm hfree.1, rfl⟩

/-- No separator begins inside a line. -/
theorem stripArticleHeaders_line {line : Bytes} (hfree : lf ∉ line) (rest : Bytes) :
    stripArticleHeaders (line ++ cr :: lf :: rest) = stripArticleHeaders (cr :: lf :: rest) := by
  induction line with
  | nil => rfl
  | cons a line ih =>
      simp only [List.mem_cons, not_or] at hfree
      obtain ⟨b, more, hb, hnext⟩ := exists_cons_line hfree.2 rest
      rw [← ih hfree.2, List.cons_append, hnext]
      exact stripArticleHeaders_cons hb more

/-- The end of a line is no separator where a line follows that is not blank. -/
theorem stripArticleHeaders_lineEnd {line : Bytes} (hne : line ≠ []) (hfree : lf ∉ line)
    (rest : Bytes) :
    stripArticleHeaders (cr :: lf :: (line ++ cr :: lf :: rest)) =
      stripArticleHeaders (line ++ cr :: lf :: rest) := by
  obtain ⟨a, line, rfl⟩ := List.exists_cons_of_ne_nil hne
  simp only [List.mem_cons, not_or] at hfree
  obtain ⟨b, more, hb, hnext⟩ := exists_cons_line hfree.2 rest
  rw [List.cons_append, hnext]
  rw [stripArticleHeaders_crlf, if_neg fun h => hb h.2]
  exact stripArticleHeaders_cons (Ne.symm hfree.1) _

/-- The headers end at the blank line, by induction along them. -/
theorem stripArticleHeaders_article {headers : List Bytes} (hne : headers ≠ [])
    (hheaders : ∀ line ∈ headers, line ≠ [] ∧ lf ∉ line) (body : List Bytes) :
    stripArticleHeaders (normalized (headers ++ [] :: body)) = normalized body := by
  have hcons : ∀ (line : Bytes) (lines : List Bytes),
      normalized (line :: lines) = line ++ cr :: lf :: normalized lines := by
    intro line lines
    simp [normalized, crlf]
  induction headers with
  | nil => exact absurd rfl hne
  | cons line headers ih =>
      rw [List.cons_append, hcons, stripArticleHeaders_line (hheaders line (by simp)).2]
      cases headers with
      | nil =>
          rw [List.nil_append, hcons, List.nil_append, stripArticleHeaders_crlf, if_pos ⟨rfl, rfl⟩]
      | cons next headers =>
          have hnext := hheaders next (by simp)
          rw [← ih (by simp) fun l hl => hheaders l (by simp [hl])]
          rw [List.cons_append, hcons]
          exact stripArticleHeaders_lineEnd hnext.1 hnext.2 _

end Separator

/-! ### The two ways to a body -/

section Bodies

variable {π : Type} [Peer π] {w w₁ : World π} {gz : GzDecoder} {mid : String}
  {lines : List Bytes}

def AnswersWith (cmd : String) (code : Nat) (lines : List Bytes) (w : World π) : Prop :=
  ∃ status w₁ t t' events', Queried cmd w status w₁ ∧ status.code = code ∧
    w₁.conn.transport = some t ∧
    BlockLines t w₁.events (lines.map fun line => stuff line ++ crlf) t' events'

theorem blockText_stuffed (lines : List Bytes) :
    blockText (lines.map fun line => stuff line ++ crlf) = normalized lines := by
  induction lines with
  | nil => rfl
  | cons line lines ih =>
      rw [List.map_cons, blockText_cons, unstuff_stuff, ih]
      simp [normalized]

/-- The block is read as it was before it was stuffed. -/
theorem exists_blockReply (gz : GzDecoder) {cmd : String} {code : Nat}
    (hplain : w.conn.compressEnabled = false) (h : AnswersWith cmd code lines w) :
    ∃ status w₁ w₂, status.code = code ∧ request cmd w = .ok status w₁ ∧
      orError (readMultilineBodyMaybeDecompress gz) w₁ = .ok (normalized lines) w₂ := by
  obtain ⟨status, w₁, t, t', events', hquery, hcode, ht, hblock⟩ := h
  have hask := ask_eq_ok_iff.mpr hquery
  obtain ⟨w₂, hread, -, -⟩ := readMultilineBody_of_lines (w := w₁.setState .busy) hblock ht rfl
  have hplain₂ : w₂.conn.compressEnabled = false :=
    (status_readMultilineBody hread).2.trans (hquery.compressEnabled.trans hplain)
  refine ⟨status, _, w₂, hcode, request_of_ok hask, orError_of_ok ?_⟩
  rw [readMultilineBodyMaybeDecompress_eq, Comp.bind_of_ok hread, blockText_stuffed]
  show Outcome.ok (inflated gz w₂.conn.compressEnabled _) w₂ = _
  rw [hplain₂]
  rfl

theorem wp_fetchArticle_of_answer (hready : w.conn.state = .ready)
    (hplain : w.conn.compressEnabled = false)
    (h : AnswersWith s!"ARTICLE {normalizeMessageId mid}" 220 lines w) :
    wp (fetchArticle gz mid)
      ⟨fun r w' => r.data = some (normalized lines) ∧ w'.conn.state = .ready, fun _ _ => False,
        fun _ => False⟩ w := by
  obtain ⟨status, w₁, w₂, hcode, hrequest, hread⟩ := exists_blockReply gz hplain h
  rw [fetchArticle, wp_bind_of_ok (requireReady_of_ready hready)]
  dsimp only
  rw [wp_bind_of_ok hrequest]
  simp only [hcode]
  rw [wp_bind_of_ok hread]
  exact ⟨rfl, rfl⟩

theorem wp_fetchBodyDirect_of_answer (hready : w.conn.state = .ready)
    (hplain : w.conn.compressEnabled = false)
    (h : AnswersWith s!"BODY {normalizeMessageId mid}" 222 lines w) :
    wp (fetchBodyDirect gz mid)
      ⟨fun r w' => r.code = 222 ∧ r.data = some (normalized lines) ∧ w'.conn.state = .ready,
        fun _ _ => False, fun _ => False⟩ w := by
  obtain ⟨status, w₁, w₂, hcode, hrequest, hread⟩ := exists_blockReply gz hplain h
  rw [fetchBodyDirect, wp_bind_of_ok (requireReady_of_ready hready)]
  dsimp only
  rw [wp_bind_of_ok hrequest]
  simp only [hcode]
  rw [wp_bind_of_ok hread]
  exact ⟨rfl, rfl, rfl⟩

/-- **The fallback is the body.** A connection that has to issue `ARTICLE` returns what one
that issues `BODY` does. -/
theorem fetchBody_fallback_agrees (gz : GzDecoder) (mid : String) (headers body : List Bytes)
    {article direct : World π} (hne : headers ≠ [])
    (hheaders : ∀ line ∈ headers, line ≠ [] ∧ lf ∉ line)
    (harticle : article.conn.state = .ready ∧ article.conn.compressEnabled = false)
    (hdirect : direct.conn.state = .ready ∧ direct.conn.compressEnabled = false)
    (hfallback : article.conn.capabilities.haveBody = false ∧
      article.conn.capabilities.haveArticle = true)
    (hoffers : direct.conn.capabilities.haveBody = true)
    (h220 : AnswersWith s!"ARTICLE {normalizeMessageId mid}" 220 (headers ++ [] :: body) article)
    (h222 : AnswersWith s!"BODY {normalizeMessageId mid}" 222 body direct) :
    ∃ r w r' w', fetchBody gz mid article = .ok r w ∧ fetchBody gz mid direct = .ok r' w' ∧
      r.code = 222 ∧ r'.code = 222 ∧ r.data = some (normalized body) ∧ r.data = r'.data ∧
      w.conn.state = .ready ∧ w'.conn.state = .ready := by
  have hstripped : wp (fetchBody gz mid)
      ⟨fun r w => r.code = 222 ∧ r.data = some (normalized body) ∧ w.conn.state = .ready,
        fun _ _ => False, fun _ => False⟩ article := by
    rw [fetchBody, wp_bind, wp_get]
    dsimp only
    rw [if_pos (by simp [hfallback.1, hfallback.2])]
    refine wp_seq (wp_fetchArticle_of_answer harticle.1 harticle.2 h220) ?_ (fun _ _ h => h)
      (fun _ h => h)
    intro r w hr
    refine ⟨rfl, ?_, hr.2⟩
    rw [hr.1, Option.map_some, stripArticleHeaders_article hne hheaders]
  have hissued : wp (fetchBody gz mid)
      ⟨fun r w => r.code = 222 ∧ r.data = some (normalized body) ∧ w.conn.state = .ready,
        fun _ _ => False, fun _ => False⟩ direct := by
    rw [fetchBody, wp_bind, wp_get]
    dsimp only
    rw [if_neg (by simp [hoffers])]
    exact wp_fetchBodyDirect_of_answer hdirect.1 hdirect.2 h222
  obtain ⟨r, w, hrun, hcode, hdata, hstate⟩ := exists_ok_of_wp hstripped
  obtain ⟨r', w', hrun', hcode', hdata', hstate'⟩ := exists_ok_of_wp hissued
  exact ⟨r, w, r', w', hrun, hrun', hcode, hcode', hdata, hdata.trans hdata'.symm, hstate, hstate'⟩

end Bodies

/-- A server with one article, whose body has a blank line and one that begins with a dot. -/
def articleServer : ReplyServer where
  answer lines :=
    let header : WireLine := ⟨Text.utf8 "Subject: a\r", by decide⟩
    let blank : WireLine := ⟨[cr], by decide⟩
    let dotted : WireLine := ⟨Text.utf8 "..b\r", by decide⟩
    if lines.any (Text.utf8 "BODY").isPrefixOf then
      ⟨⟨Text.utf8 "222 body\r", by decide⟩, [blank, dotted], [dot, cr, lf], by decide,
        isTerminator_dotCrLf⟩
    else
      ⟨⟨Text.utf8 "220 article\r", lf_not_mem_articleStatus⟩, [header, blank, blank, dotted],
        [dot, cr, lf], by decide, isTerminator_dotCrLf⟩

theorem answersWith_articleServer :
    let mid := "<a@b>"
    AnswersWith s!"BODY {normalizeMessageId mid}" 222 [[], Text.utf8 ".b"]
      (.readyTo articleServer) :=
  ⟨_, _, _, _, _, ask_eq_ok_iff.mp rfl, rfl, rfl,
    .line rfl (by decide) (by decide) (.line rfl (by decide) (by decide) (.terminator rfl rfl))⟩

theorem fetchBody_fallback_agrees_on_blank :
    ∃ r w r' w', fetchBody rawDecoder "<a@b>" (.withoutBody articleServer) = .ok r w ∧
      fetchBody rawDecoder "<a@b>" (.readyTo articleServer) = .ok r' w' ∧ r.code = 222 ∧
      r'.code = 222 ∧ r.data = some (normalized [[], Text.utf8 ".b"]) ∧ r.data = r'.data ∧
      w.conn.state = .ready ∧ w'.conn.state = .ready := by
  refine fetchBody_fallback_agrees rawDecoder "<a@b>" [Text.utf8 "Subject: a"] _ (by simp)
    (by decide) ⟨rfl, rfl⟩ ⟨rfl, rfl⟩ ⟨rfl, rfl⟩ rfl ?_ answersWith_articleServer
  exact ⟨_, _, _, _, _, ask_eq_ok_iff.mp rfl, rfl, rfl,
    .line rfl (by decide) (by decide) (.line rfl (by decide) (by decide)
      (.line rfl (by decide) (by decide) (.line rfl (by decide) (by decide)
        (.terminator rfl rfl))))⟩

end NzbNntp
