import NzbNntp.Connection.Blocks
import NzbNntp.Connection.Calls
import NzbNntp.Pipeline.Overrun

/-!
A pipeline with one request, beside `fetch_article`. Both write the same line and
read the same reply, the one in `Ready` and the other in `Busy`, and both copies of
the table of status codes are `judgeStatus`. They part in one place: `fetch_article`
decompresses the block and the pipeline does not.
-/

namespace NzbNntp

open Interruptible

section Outcomes

variable {π : Type}

def NntpError.SameVariant (e e' : NntpError) : Prop := e.ctorIdx = e'.ctorIdx

/-- Of one request, both callers are told the same: the same article, or an error of
the same variant, and the connection is in the same state. A call that is dropped
tells nothing. -/
def Agree : Outcome NntpError (Pipeline × World π) (List PipelineResult) →
    Outcome NntpError (World π) NntpResponse → Prop
  | .ok [⟨_, .ok article⟩] s, .ok article' w =>
      article = article' ∧ s.2.conn.state = w.conn.state
  | .ok [⟨_, .error e⟩] s, .err e' w | .err e s, .err e' w =>
      e.SameVariant e' ∧ s.2.conn.state = w.conn.state
  | .dropped _, .dropped _ => True
  | _, _ => False

def Bracketed (mid : String) : Prop :=
  mid.toList.head? = some '<' ∧ mid.toList.getLast? = some '>'

instance : DecidablePred Bracketed := fun mid =>
  inferInstanceAs (Decidable (mid.toList.head? = some '<' ∧ mid.toList.getLast? = some '>'))

def Inflates (gz : GzDecoder) (raw : Bytes) : Prop :=
  startsGzip raw = true ∧ ∃ decoded, readToEnd gz raw = .ok decoded ∧ decoded ≠ raw

variable [Peer π]

/-- The reply to the `ARTICLE` command for `mid` is the status `220` and the block `raw`. -/
def RepliesWith (mid : String) (w : World π) (raw : Bytes) : Prop :=
  ∃ w₁ status t, Sent (commandLine s!"ARTICLE {mid}") w w₁ ∧ NextStatus w₁ status t ∧
    status.code = 220 ∧ NextBlock t w₁.events.tail raw

def CompressedReply (gz : GzDecoder) (mid : String) (w : World π) : Prop :=
  w.conn.compressEnabled = true ∧ ∃ raw, RepliesWith mid w raw ∧ Inflates gz raw

end Outcomes

/-! ### The two copies -/

section Copies

variable {π : Type} [Peer π] {gz : GzDecoder} {mid : String} {tag : Nat} {w w₁ : World π}
  {status : NntpResponse}

theorem inflated_eq_self_iff {compressed : Bool} {raw : Bytes} :
    inflated gz compressed raw = raw ↔ ¬ (compressed = true ∧ Inflates gz raw) := by
  unfold inflated Inflates
  by_cases hgzip : (compressed && startsGzip raw) = true
  · rw [if_pos hgzip]
    rw [Bool.and_eq_true] at hgzip
    cases hdecode : readToEnd gz raw with
    | ok decoded => simp [hgzip]
    | error e => simp
  · rw [if_neg hgzip]
    rw [Bool.and_eq_true] at hgzip
    exact iff_of_true rfl fun h => hgzip ⟨h.1, h.2.1⟩

omit [Peer π] in
/-- The pipeline's table, after a status line without a block. -/
theorem readReply_refuses {request : PipelineRequest} (h : readResponseLine w = .ok status w₁)
    (hcode : status.code ≠ 220) :
    readReply request w = .ok (judgeStatus request status []).result
      (w₁.setState (w₁.conn.state.after (judgeStatus request status []).result)) := by
  have hread : orError readResponseLine w = .ok status w₁ := orError_of_ok h
  have hrun : wp (readReply request)
      ⟨fun result w' => result = (judgeStatus request status []).result ∧
          w' = w₁.setState (w₁.conn.state.after (judgeStatus request status []).result),
        fun _ _ => False, fun _ => False⟩ w := by
    rw [readReply, wp_bind_of_ok hread]
    split
    case h_1 => contradiction
    case h_12 =>
      have hjudge : (judgeStatus request status []).result =
          .error (unexpectedArticleResponse status.code status.message) := by
        simp [judgeStatus, *]
      rw [hjudge, ConnectionState.after_unexpected]
      exact ⟨rfl, rfl⟩
    all_goals
      rename_i hstatus
      simp only [judgeStatus, hstatus]
      exact ⟨rfl, rfl⟩
  obtain ⟨_, _, hrun, rfl, rfl⟩ := exists_ok_of_wp hrun
  exact hrun

theorem normalizeMessageId_of_bracketed (h : Bracketed mid) : normalizeMessageId mid = mid :=
  if_pos h

theorem fetchArticle_of_err {e : NntpError} (hready : w.conn.state = .ready)
    (hmid : Bracketed mid) (h : ask s!"ARTICLE {mid}" w = .err e w₁) :
    fetchArticle gz mid w = .err e (w₁.setState .error) := by
  refine (Comp.bind_of_ok (requireReady_of_ready hready)).trans (Comp.bind_of_err ?_)
  rw [normalizeMessageId_of_bracketed hmid]
  exact request_of_err h

theorem fetchArticle_of_dropped (hready : w.conn.state = .ready) (hmid : Bracketed mid)
    (h : ask s!"ARTICLE {mid}" w = .dropped w₁) :
    fetchArticle gz mid w = .dropped (w₁.setState .busy) := by
  refine (Comp.bind_of_ok (requireReady_of_ready hready)).trans (Comp.bind_of_dropped ?_)
  rw [normalizeMessageId_of_bracketed hmid]
  exact request_of_dropped h

/-- The table of `fetch_article`, after a status line without a block. -/
theorem fetchArticle_refuses (tag : Nat) (gz : GzDecoder) (hready : w.conn.state = .ready)
    (hmid : Bracketed mid) (h : ask s!"ARTICLE {mid}" w = .ok status w₁) (hcode : status.code ≠ 220) :
    ∃ e, (judgeStatus ⟨mid, tag⟩ status []).result = .error e ∧
      fetchArticle gz mid w = .err e (w₁.setState (ConnectionState.ready.after (.error e))) := by
  have hrun : wp (fetchArticle gz mid)
      ⟨fun _ _ => False, fun e w' => (judgeStatus ⟨mid, tag⟩ status []).result = .error e ∧
          w' = w₁.setState (ConnectionState.ready.after (.error e)),
        fun _ => False⟩ w := by
    rw [fetchArticle, wp_bind_of_ok (requireReady_of_ready hready)]
    dsimp only
    rw [normalizeMessageId_of_bracketed hmid, wp_bind_of_ok (request_of_ok h)]
    split
    case h_1 => contradiction
    case h_12 =>
      refine ⟨by simp [judgeStatus, *], ?_⟩
      rw [ConnectionState.after_unexpected]
      rfl
    all_goals
      rename_i hstatus
      refine ⟨?_, rfl⟩
      simp only [judgeStatus, hstatus]
  obtain ⟨e, _, hrun, hjudge, rfl⟩ := exists_err_of_wp hrun
  exact ⟨e, hjudge, hrun⟩

omit [Peer π] in
/-- How the pipeline goes on after a status line that announces a block. -/
theorem readReply_block {request : PipelineRequest} (h : readResponseLine w = .ok status w₁)
    (hcode : status.code = 220) :
    readReply request w = match readMultilineBody w₁ with
      | .ok raw w₂ =>
          .ok (.ok { code := status.code, message := status.message, data := some raw }) w₂
      | .err e w₂ => .ok (.error e) (w₂.setState .error)
      | .dropped w₂ => .dropped w₂ := by
  have hread : orError readResponseLine w = .ok status w₁ := orError_of_ok h
  rw [readReply, Comp.bind_of_ok hread]
  simp only [hcode]
  rw [Comp.bind_apply, Comp.attempt]
  cases readMultilineBody w₁ with
  | ok raw w₂ => rfl
  | err e w₂ => rfl
  | dropped w₂ => rfl

/-- How `fetch_article` does. -/
theorem fetchArticle_block (hready : w.conn.state = .ready) (hmid : Bracketed mid)
    (h : ask s!"ARTICLE {mid}" w = .ok status w₁) (hcode : status.code = 220) :
    fetchArticle gz mid w = match readMultilineBody w₁ with
      | .ok raw w₂ =>
          .ok { code := status.code, message := status.message
                data := some (inflated gz w₂.conn.compressEnabled raw) } (w₂.setState .ready)
      | .err e w₂ => .err e (w₂.setState .error)
      | .dropped w₂ => .dropped (w₂.setState .busy) := by
  have hrequest : request s!"ARTICLE {normalizeMessageId mid}" w =
      .ok status (w₁.setState .busy) := by
    rw [normalizeMessageId_of_bracketed hmid]
    exact request_of_ok h
  refine (Comp.bind_of_ok (requireReady_of_ready hready)).trans
    ((Comp.bind_of_ok hrequest).trans ?_)
  simp only [hcode]
  rw [Comp.bind_apply, orError, Comp.inspectErr, readMultilineBodyMaybeDecompress_eq,
    Comp.bind_apply, readMultilineBody_setState]
  cases readMultilineBody w₁ with
  | ok raw w₂ => rfl
  | err e w₂ => rfl
  | dropped w₂ => rfl

end Copies

/-! ### A pipeline with one request -/

section Sole

variable {π : Type} [Peer π] {w : World π} {request : PipelineRequest}

/-- The exchange for the only request of a pipeline. -/
def soleExchange (request : PipelineRequest) : Nntp π (NntpResult NntpResponse) := do
  orError (sendCommand s!"ARTICLE {request.mid}")
  readReply request

/-- The flush writes the one command. -/
theorem wp_flushSends_sole (depth : UInt8) (request : PipelineRequest) (w : World π) :
    wp flushSends
      ⟨fun _ s => s.1.inFlight = [request] ∧ s.1.pending = [] ∧
          orError (sendCommand s!"ARTICLE {request.mid}") w = .ok () s.2,
        fun e s => orError (sendCommand s!"ARTICLE {request.mid}") w = .err e s.2,
        fun s => orError (sendCommand s!"ARTICLE {request.mid}") w =
          .dropped s.2⟩
      ((Pipeline.new depth).submit request.messageId request.tag, w) := by
  have hroom : ((Pipeline.new depth).submit request.messageId request.tag).inFlight.length <
      ((Pipeline.new depth).submit request.messageId request.tag).depth := Nat.le_max_right _ _
  rw [flushSends, wp_bind, wp_get]
  show wp (flushLoop 1 >>= _) _ _
  rw [wp_bind]
  refine (wp_flushLoop_succ hroom rfl).mpr ?_
  have hparts : orError (sendCommand s!"ARTICLE {request.mid}" : Nntp π Unit) =
      orError (sendCommandNoFlush s!"ARTICLE {request.mid}") >>= fun _ => orError flush :=
    Comp.inspectErr_bind _ _ _
  rw [hparts]
  refine wp_mono (wp_run (sendCommandNoFlush s!"ARTICLE {request.mid}") w) ?_ ?_ ?_
  · intro _ w₁ hsend
    show wp (orError flush).onSnd _ (_, w₁)
    rw [wp_onSnd]
    refine wp_mono (wp_run (orError flush) w₁) ?_ ?_ ?_
    · intro _ w₂ hflush
      exact ⟨rfl, rfl, (Comp.bind_of_ok (orError_of_ok hsend)).trans hflush⟩
    · intro e w₂ hflush
      exact (Comp.bind_of_ok (orError_of_ok hsend)).trans hflush
    · intro w₂ hflush
      exact (Comp.bind_of_ok (orError_of_ok hsend)).trans hflush
  · intro e w₁ hsend
    exact Comp.bind_of_err (orError_of_err hsend)
  · intro w₁ hsend
    exact Comp.bind_of_dropped (orError_of_dropped hsend)

/-- `process_all` gives the outcome of the exchange, and nothing else. -/
theorem wp_processAll_sole (depth : UInt8) (request : PipelineRequest) (w : World π) :
    wp processAll
      ⟨fun rs s => ∃ result, rs = [⟨request, result⟩] ∧
          soleExchange request w = .ok result s.2,
        fun e s => soleExchange request w = .err e s.2,
        fun s => soleExchange request w = .dropped s.2⟩
      ((Pipeline.new depth).submit request.messageId request.tag, w) := by
  rw [processAll, wp_bind, wp_get]
  show wp (processLoop 2 []) _ _
  rw [processLoop]
  refine wp_seq (wp_flushSends_sole depth request w) ?_ ?_ ?_
  · rintro _ ⟨⟨d, _, _⟩, w₁⟩ ⟨rfl, rfl, hsend⟩
    have hsole : soleExchange request w = readReply request w₁ := Comp.bind_of_ok hsend
    have hreceive : wp receiveOne
        ⟨fun r s => ∃ result, r = some ⟨request, result⟩ ∧ s.1 = { depth := d } ∧
            soleExchange request w = .ok result s.2,
          fun e s => soleExchange request w = .err e s.2,
          fun s => soleExchange request w = .dropped s.2⟩ (⟨d, [request], []⟩, w₁) := by
      rw [hsole, receiveOne, wp_bind, wp_get]
      simp only [modifyPipeline, wp_bind, wp_modify, wp_onSnd]
      refine wp_mono (wp_run (readReply request) w₁) ?_ (fun _ _ h => h) (fun _ h => h)
      intro result w₂ hreply
      exact ⟨result, rfl, rfl, hreply⟩
    rw [wp_bind, wp_get]
    refine wp_seq hreceive ?_ (fun _ _ h => h) (fun _ h => h)
    rintro _ ⟨p, w₂⟩ ⟨result, rfl, rfl, hsole⟩
    dsimp only
    split
    · rw [wp_bind, wp_get]
      exact ⟨result, rfl, hsole⟩
    · have hidle : Pipeline.sends { depth := d } = 0 := Nat.min_zero _
      rw [wp, processLoop_done (flushSends_idle hidle) rfl]
      exact ⟨result, rfl, hsole⟩
  · intro e s hsend
    exact Comp.bind_of_err hsend
  · intro s hsend
    exact Comp.bind_of_dropped hsend

theorem exists_processAll_sole (depth : UInt8) (request : PipelineRequest) (w : World π) :
    ∃ q, processAll ((Pipeline.new depth).submit request.messageId request.tag, w) =
      ((fun result => [⟨request, result⟩]) <$> soleExchange request : Nntp π _).onSnd (q, w) := by
  have hsole := wp_processAll_sole depth request w
  unfold wp at hsole
  cases hrun : processAll ((Pipeline.new depth).submit request.messageId request.tag, w) with
  | ok rs s =>
      rw [hrun] at hsole
      obtain ⟨result, rfl, hsole⟩ := hsole
      refine ⟨s.1, ?_⟩
      rw [← bind_pure_comp, Comp.onSnd, Comp.bind_of_ok hsole]
      rfl
  | err e s =>
      rw [hrun] at hsole
      refine ⟨s.1, ?_⟩
      rw [← bind_pure_comp, Comp.onSnd, Comp.bind_of_err hsole]
  | dropped s =>
      rw [hrun] at hsole
      refine ⟨s.1, ?_⟩
      rw [← bind_pure_comp, Comp.onSnd, Comp.bind_of_dropped hsole]

variable {w₁ : World π} {status : NntpResponse}

theorem soleExchange_of_ok (h : ask s!"ARTICLE {request.mid}" w = .ok status w₁) :
    ∃ w₀, readResponseLine w₀ = .ok status w₁ ∧ soleExchange request w = readReply request w₀ := by
  obtain ⟨_, w₀, hsend, hread⟩ := Comp.bind_eq_ok_iff.mp h
  exact ⟨w₀, hread, Comp.bind_of_ok (orError_of_ok hsend)⟩

/-- The exchange begins as `ask` does, and its errors become the state of the connection. -/
theorem soleExchange_eq_bind (request : PipelineRequest) :
    ∃ rest : NntpResponse → Nntp π (NntpResult NntpResponse),
      soleExchange request = orError (ask s!"ARTICLE {request.mid}") >>= rest := by
  obtain ⟨rest, hreply⟩ :
      ∃ rest, (readReply request : Nntp π _) = orError readResponseLine >>= rest := ⟨_, rfl⟩
  refine ⟨rest, ?_⟩
  rw [soleExchange, hreply, ← bind_assoc, ask, orError, orError, orError, Comp.inspectErr_bind]

theorem soleExchange_of_err {e : NntpError} (h : ask s!"ARTICLE {request.mid}" w = .err e w₁) :
    soleExchange request w = .err e (w₁.setState .error) := by
  obtain ⟨rest, hsole⟩ := soleExchange_eq_bind (π := π) request
  rw [hsole]
  exact Comp.bind_of_err (orError_of_err h)

theorem soleExchange_of_dropped (h : ask s!"ARTICLE {request.mid}" w = .dropped w₁) :
    soleExchange request w = .dropped w₁ := by
  obtain ⟨rest, hsole⟩ := soleExchange_eq_bind (π := π) request
  rw [hsole]
  exact Comp.bind_of_dropped (orError_of_dropped h)

end Sole

section Agreement

variable {π : Type} [Peer π] {gz : GzDecoder} {mid : String} {tag : Nat} {w w₁ : World π}
  {status : NntpResponse}

/-- What `RepliesWith` says of an exchange that has succeeded. -/
theorem repliesWith_iff {t : Transport π} {raw : Bytes}
    (h : ask s!"ARTICLE {mid}" w = .ok status w₁) (ht : w₁.conn.transport = some t) :
    RepliesWith mid w raw ↔ status.code = 220 ∧ NextBlock t w₁.events raw := by
  constructor
  · rintro ⟨w₀, status', t', hsent, hnext, hcode, hblock⟩
    have h' := ask_eq_ok_iff.mpr ⟨w₀, t', hsent, hnext, rfl⟩
    rw [h] at h'
    cases h'
    cases ht
    exact ⟨hcode, hblock⟩
  · rintro ⟨hcode, hblock⟩
    obtain ⟨w₀, t', hsent, hnext, rfl⟩ := ask_eq_ok_iff.mp h
    cases ht
    exact ⟨w₀, status, t, hsent, hnext, hcode, hblock⟩

/-- Without a status line there is no compressed reply. -/
theorem not_compressedReply (h : ∀ status w₁, ask s!"ARTICLE {mid}" w ≠ .ok status w₁) :
    ¬ CompressedReply gz mid w := by
  rintro ⟨-, raw, ⟨w₀, status, t, hsent, hnext, -⟩, -⟩
  exact h status _ (ask_eq_ok_iff.mpr ⟨w₀, t, hsent, hnext, rfl⟩)

theorem ask_state (h : ask s!"ARTICLE {mid}" w = .ok status w₁) :
    w₁.conn.state = w.conn.state ∧ w₁.conn.compressEnabled = w.conn.compressEnabled := by
  have hstate : Preserves (OfStatus fun s _ => s = w.conn.state) (ask s!"ARTICLE {mid}" : Nntp π _) :=
    preserves_ask _
  have hflag : Preserves (OfCompression fun b => b = w.conn.compressEnabled)
      (ask s!"ARTICLE {mid}" : Nntp π _) := preserves_ask _
  exact ⟨wp_ok (hstate w rfl) h, wp_ok (hflag w rfl) h⟩

/-- **Pipelined and plain fetches.** The pipeline with this one request tells its
caller the same as `fetch_article` does, and leaves the connection in the same
state, unless compression is on and the article comes compressed: the pipeline
hands out the compressed bytes. -/
theorem processAll_agrees_iff (gz : GzDecoder) (depth : UInt8) (mid : String) (tag : Nat)
    (w : World π) (hready : w.conn.state = .ready) (hmid : Bracketed mid) :
    Agree (processAll ((Pipeline.new depth).submit mid tag, w)) (fetchArticle gz mid w) ↔
      ¬ CompressedReply gz mid w := by
  let request : PipelineRequest := ⟨mid, tag⟩
  obtain ⟨q, hq⟩ := exists_processAll_sole depth request w
  rw [show (Pipeline.new depth).submit mid tag =
    (Pipeline.new depth).submit request.messageId request.tag from rfl, hq, ← bind_pure_comp, Comp.onSnd]
  dsimp only
  have hline : s!"ARTICLE {request.mid}" = s!"ARTICLE {mid}" := by
    rw [PipelineRequest.mid, if_pos hmid.1]
  cases hask : ask s!"ARTICLE {mid}" w with
  -- Without a status line both fail with the same error, and there is no reply to differ over.
  | err e w₁ =>
      have hnone : ¬ CompressedReply gz mid w := not_compressedReply fun s w' h => by
        rw [hask] at h
        cases h
      refine iff_of_true ?_ hnone
      rw [fetchArticle_of_err hready hmid hask,
        Comp.bind_of_err (soleExchange_of_err (by rw [hline]; exact hask))]
      exact ⟨rfl, rfl⟩
  | dropped w₁ =>
      have hnone : ¬ CompressedReply gz mid w := not_compressedReply fun s w' h => by
        rw [hask] at h
        cases h
      refine iff_of_true ?_ hnone
      rw [fetchArticle_of_dropped hready hmid hask,
        Comp.bind_of_dropped (soleExchange_of_dropped (by rw [hline]; exact hask))]
      trivial
  | ok status w₁ =>
      obtain ⟨hstate, hflag⟩ := ask_state hask
      obtain ⟨t, ht⟩ := exists_transport_of_ask hask
      obtain ⟨w₀, hread, hsole⟩ :=
        soleExchange_of_ok (show ask s!"ARTICLE {request.mid}" w = _ by rw [hline]; exact hask)
      by_cases hcode : status.code = 220
      · rw [readReply_block hread hcode] at hsole
        rw [fetchArticle_block hready hmid hask hcode]
        have hnext := wp_readMultilineBody_next ht
        unfold wp at hnext
        cases hblock : readMultilineBody w₁ with
        | err e w₂ =>
            rw [hblock] at hsole hnext
            rw [Comp.bind_of_ok hsole]
            refine iff_of_true ⟨rfl, rfl⟩ ?_
            rintro ⟨-, raw, hreply, -⟩
            exact hnext raw ((repliesWith_iff hask ht).mp hreply).2
        | dropped w₂ =>
            rw [hblock] at hsole hnext
            rw [Comp.bind_of_dropped hsole]
            refine iff_of_true trivial ?_
            rintro ⟨-, raw, hreply, -⟩
            exact hnext raw ((repliesWith_iff hask ht).mp hreply).2
        | ok raw w₂ =>
            rw [hblock] at hsole hnext
            rw [Comp.bind_of_ok hsole]
            obtain ⟨hstate₂, hflag₂⟩ := status_readMultilineBody hblock
            have hreply : CompressedReply gz mid w ↔
                w₂.conn.compressEnabled = true ∧ Inflates gz raw := by
              rw [CompressedReply, hflag₂, hflag]
              refine and_congr_right fun _ => ⟨?_, fun h => ⟨raw, ?_, h⟩⟩
              · rintro ⟨raw', hraw', h⟩
                obtain rfl := (hnext raw').mp ((repliesWith_iff hask ht).mp hraw').2
                exact h
              · exact (repliesWith_iff hask ht).mpr ⟨hcode, (hnext raw).mpr rfl⟩
            rw [hreply, ← inflated_eq_self_iff]
            constructor
            · intro h
              exact (Option.some.inj (congrArg NntpResponse.data h.1)).symm
            · intro h
              refine ⟨?_, hstate₂.trans (hstate.trans hready)⟩
              show _ = { code := status.code, message := status.message
                         data := some (inflated gz w₂.conn.compressEnabled raw) : NntpResponse }
              rw [h]
      · obtain ⟨e, hjudge, hfetch⟩ := fetchArticle_refuses tag gz hready hmid hask hcode
        rw [readReply_refuses hread hcode, hstate, hready, hjudge] at hsole
        rw [hfetch, Comp.bind_of_ok hsole]
        refine iff_of_true ⟨rfl, rfl⟩ ?_
        rintro ⟨-, raw, hreply, -⟩
        exact hcode ((repliesWith_iff hask ht).mp hreply).1

end Agreement

theorem processAll_agrees_iff_on_missing :
    Agree (processAll ((Pipeline.new 4).submit "<a@b>" 7, .readyTo emptyServer))
        (fetchArticle rawDecoder "<a@b>" (.readyTo emptyServer)) ↔
      ¬ CompressedReply rawDecoder "<a@b>" (.readyTo emptyServer) :=
  processAll_agrees_iff rawDecoder 4 "<a@b>" 7 (.readyTo emptyServer) rfl (by decide)

def compressingServer : ReplyServer where
  answer _ :=
    { status := ⟨Text.utf8 "220 article\r", lf_not_mem_articleStatus⟩
      block := [⟨gzippedHi ++ [cr], lf_not_mem_gzippedHi⟩]
      terminator := [dot, cr, lf]
      proper := not_isTerminator_gzippedHi
      terminates := isTerminator_dotCrLf }

/-- On a compressed session the pipeline hands out the gzip stream where `fetch_article`
hands out the article. -/
theorem processAll_can_disagree :
    ¬ ∀ (gz : GzDecoder) (depth : UInt8) (mid : String) (tag : Nat) (w : World ReplyServer),
      w.conn.state = .ready → Bracketed mid →
        Agree (processAll ((Pipeline.new depth).submit mid tag, w)) (fetchArticle gz mid w) := by
  intro h
  have hagree := h hiDecoder 4 "<a@b>" 7 (.compressed compressingServer) rfl (by decide)
  have hdata := congrArg NntpResponse.data hagree.1
  exact absurd hdata (by decide +kernel)

end NzbNntp
