import NzbNntp.Mock.Queries

/-!
The batches of a client, answered by a session that has news. What is in flight is owed, reply
behind reply, whatever part of the commands has been sent; so the replies are read in the order
of the requests.
-/

namespace NzbNntp

open Interruptible Chunks

section Batches

variable {config : MockConfig} {state : MockState} {w : World MockSession} {gz : GzDecoder}

/-! ### Pipelines -/

def MockConfig.pipedReply (config : MockConfig) (r : Text.Word × Nat) : Bytes :=
  (config.tellArticle r.1 (articleWrites s!"220 0 <{Text.trimAngles r.1.text}>\r\n")).flatten

/-- `requests` have no result yet, and those in flight are owed their replies. -/
structure Pipelined (config : MockConfig) (state : MockState) (requests : List (Text.Word × Nat))
    (σ : Pipeline × World MockSession) : Prop where
  queue : σ.1.requests = requests.map Query.request
  facing : Facing config state none .ready
    ((requests.take σ.1.inFlight.length).flatMap config.pipedReply) σ.2

/-- The pipeline writes an id as a word too. -/
theorem exists_word_mid (r : Text.Word × Nat) :
    ∃ token : Text.Word, token.text = (Query.request r).mid ∧
      Text.trimAngles token.text = Text.trimAngles r.1.text := by
  rw [PipelineRequest.mid]
  split
  · exact ⟨r.1, rfl, rfl⟩
  · exact exists_word_bracketed r.1

theorem wp_sendFirst_pipelined {requests : List (Text.Word × Nat)} {p : Pipeline}
    {req : PipelineRequest} {rest : List PipelineRequest} (hsteady : Steady config state)
    (hpending : p.pending = req :: rest) (h : Pipelined config state requests (p, w)) :
    wp (sendCommandNoFlush s!"ARTICLE {req.mid}")
      (gives () fun w' => Pipelined config state requests (p.sendFirst req rest, w')) w := by
  have hdrop := congrArg (List.drop p.inFlight.length) h.queue
  rw [Pipeline.requests, List.drop_left, hpending, ← List.map_drop] at hdrop
  obtain ⟨r, later, hlater, rfl, -⟩ := List.map_eq_cons_iff.mp hdrop.symm
  obtain ⟨token, htoken, htrim⟩ := exists_word_mid r
  have hverb : Text.IsVerb "ARTICLE" := by decide
  have hcmd : Phrase s!"ARTICLE {(Query.request r).mid}" := htoken ▸ hverb.command token
  have hanswer := answerTo_article htrim hsteady
  rw [htoken] at hanswer
  have htake : requests.take (p.inFlight.length + 1) = requests.take p.inFlight.length ++ [r] := by
    rw [List.take_add, hlater]
    rfl
  refine wp_mono (wp_sendCommandNoFlush_facing hcmd hsteady.faults hanswer
    (show AfterCommand.counts.reading = some none from rfl) h.facing) ?_ (fun _ _ h => h)
    (fun _ h => h)
  rintro _ w' ⟨rfl, h'⟩
  refine ⟨rfl, (requests_sendFirst hpending).trans h.queue, ?_⟩
  simp only [Pipeline.sendFirst, List.length_append, List.length_singleton, htake,
    List.flatMap_append, List.flatMap_singleton]
  exact h'

theorem wp_flushLoop_pipelined {requests : List (Text.Word × Nat)} (fuel : Nat) {p : Pipeline}
    (hsteady : Steady config state) (h : Pipelined config state requests (p, w)) :
    wp (flushLoop fuel)
      ⟨fun _ σ => Pipelined config state requests σ, fun _ _ => False, fun _ => False⟩ (p, w) := by
  induction fuel generalizing p w with
  | zero => exact h
  | succ fuel ih =>
      by_cases hsends : p.sends = 0
      · rw [wp, flushLoop_idle hsends]
        exact h
      · obtain ⟨hroom, req, rest, hpending⟩ := Pipeline.exists_pending hsends
        rw [wp_flushLoop_succ hroom hpending]
        exact wp_mono (wp_sendFirst_pipelined hsteady hpending h) (fun _ _ h => ih h.2)
          (fun _ _ h => h.elim) (fun _ h => h)

theorem wp_flushSends_pipelined {requests : List (Text.Word × Nat)}
    {σ : Pipeline × World MockSession} (hsteady : Steady config state)
    (h : Pipelined config state requests σ) :
    wp flushSends
      ⟨fun _ σ' => Pipelined config state requests σ', fun _ _ => False, fun _ => False⟩ σ := by
  rw [flushSends, wp_bind, wp_get]
  refine wp_seq (wp_flushLoop_pipelined _ hsteady h) ?_ (fun _ _ h => h) (fun _ h => h)
  intro n σ' h'
  split
  · rw [wp_onSnd]
    refine wp_mono (wp_orError_gives (wp_flush_facing h'.facing)) ?_ (fun _ _ h => h) (fun _ h => h)
    rintro _ w' ⟨-, hfacing⟩
    exact ⟨h'.queue, hfacing⟩
  · exact h'

/-- The reply to a request is what the news know of the article. -/
theorem wp_readReply_pipelined (r : Text.Word × Nat) {rest : Bytes}
    (h : Facing config state none .ready (config.pipedReply r ++ rest) w) :
    wp (readReply (Query.request r))
      (gives ((config.news state).fetched r).result (Facing config state none .ready rest)) w := by
  have hlf := lf_not_mem_trimAngles r.1
  rw [readReply]
  cases hlookup : config.articles.lookup (Text.trimAngles r.1.text) with
  | some data =>
      have hnews : ((config.news state).fetched r).result = .ok (News.withData
          { code := 220, message := s!"0 <{Text.trimAngles r.1.text}>" } (News.text data)) := by
        simp only [News.fetched, MockConfig.news, hlookup]
      rw [MockConfig.pipedReply, tellArticle_some _ hlookup,
        show (articleWrites _ data).flatten = statusBytes 220 s!"0 <{Text.trimAngles r.1.text}>" ++
          _ from flatten_articleWrites 220 data (by simp [threeDigits]), List.append_assoc] at h
      rw [hnews]
      refine wp_gives_seq (wp_orError_gives (wp_statusLine_facing (by decide)
        (message_id "0 " (by decide) hlf) h)) fun w₁ h₁ => ?_
      refine (wp_bind readMultilineBody.attempt _ w₁).mpr ((wp_attempt _ w₁).mpr ?_)
      refine wp_mono (wp_block_facing (fun _ => lf_not_mem_sentLines) h₁) ?_ (fun _ _ h => h.elim)
        (fun _ h => h)
      rintro _ w₂ ⟨rfl, h₂⟩
      exact ⟨rfl, h₂⟩
  | none =>
      have hnews : ((config.news state).fetched r).result = .error (.articleNotFound r.1.text) := by
        simp only [News.fetched, MockConfig.news, hlookup]
      rw [MockConfig.pipedReply, tellArticle_none _ hlookup] at h
      rw [hnews]
      exact wp_gives_seq (wp_orError_gives (wp_statusLine_facing (by decide)
        (message_id "No article: " (by decide) hlf) h)) fun w₁ h₁ => ⟨rfl, h₁⟩

theorem wp_receiveOne_pipelined {requests : List (Text.Word × Nat)} {r : Text.Word × Nat}
    {σ : Pipeline × World MockSession} (hne : σ.1.inFlight ≠ [])
    (h : Pipelined config state (r :: requests) σ) :
    wp receiveOne
      (gives (some ((config.news state).fetched r)) fun σ' =>
        σ'.1.depth = σ.1.depth ∧ Pipelined config state requests σ') σ := by
  obtain ⟨⟨depth, inFlight, pending⟩, w⟩ := σ
  cases inFlight with
  | nil => exact absurd rfl hne
  | cons request flight =>
      obtain ⟨hrequests, hfacing⟩ := h
      obtain ⟨rfl, hrest⟩ := List.cons.inj hrequests
      simp only [List.length_cons, List.take_succ_cons, List.flatMap_cons] at hfacing
      simp only [receiveOne, wp_bind, wp_get, modifyPipeline, wp_modify, wp_onSnd]
      refine wp_mono (wp_readReply_pipelined r hfacing) ?_ (fun _ _ h => h) (fun _ h => h)
      rintro _ w' ⟨rfl, h'⟩
      exact ⟨rfl, rfl, hrest, h'⟩

/-- A result of the news is no reason to give up. -/
theorem not_isFatal_fetched (news : News) (r : Text.Word × Nat) :
    isFatal (news.fetched r).result = false := by
  rw [News.fetched]
  dsimp only
  split
  · rfl
  · rfl

/-- The rounds, each of which gives the first request its result; by induction on the fuel. -/
theorem wp_processLoop_pipelined (hsteady : Steady config state) (fuel : Nat)
    {requests : List (Text.Word × Nat)} (results : List PipelineResult)
    {σ : Pipeline × World MockSession} (hfuel : requests.length < fuel) (hdepth : 0 < σ.1.depth)
    (h : Pipelined config state requests σ) :
    wp (processLoop fuel results)
      (gives (results ++ requests.map (config.news state).fetched) fun σ' =>
        Facing config state none .ready [] σ'.2) σ := by
  induction fuel generalizing σ requests results with
  | zero => exact absurd hfuel (Nat.not_lt_zero _)
  | succ fuel ih =>
      rw [processLoop]
      refine wp_seq (wp_and (wp_flushSends σ.1 σ.2) (wp_flushSends_pipelined hsteady h)) ?_
        (fun _ _ h => h.2.elim) (fun _ h => h.2.elim)
      rintro _ σ₁ ⟨⟨hp₁, -, -⟩, h₁⟩
      have hdepth₁ : 0 < σ₁.1.depth := by
        rw [hp₁]
        exact hdepth
      rw [wp_bind, wp_get]
      dsimp only
      split
      · rename_i hempty
        have hnone : σ₁.1.requests = [] := by
          rw [hp₁] at hempty ⊢
          exact Pipeline.requests_afterSends_sends hdepth (by simpa using hempty)
        obtain rfl : requests = [] := by
          rw [h₁.queue, List.map_eq_nil_iff] at hnone
          exact hnone
        exact ⟨(List.append_nil _).symm, by simpa using h₁.facing⟩
      · rename_i hnonempty
        have hne : σ₁.1.inFlight ≠ [] := by simpa using hnonempty
        obtain ⟨r, rest, rfl⟩ : ∃ r rest, requests = r :: rest := by
          refine List.exists_cons_of_ne_nil fun hnil => hne ?_
          have hrequests := h₁.queue
          rw [hnil] at hrequests
          exact (List.append_eq_nil_iff.mp hrequests).1
        refine wp_gives_seq (wp_receiveOne_pipelined hne h₁) fun σ₂ hσ₂ => ?_
        obtain ⟨hdepth₂, h₂⟩ := hσ₂
        dsimp only
        rw [not_isFatal_fetched, if_neg Bool.false_ne_true]
        have hrest := ih (results ++ [(config.news state).fetched r])
          (Nat.lt_of_succ_lt_succ hfuel) (hdepth₂ ▸ hdepth₁) h₂
        rwa [List.append_assoc] at hrest

theorem tellsNews_articles (depth : UInt8) (requests : List (Text.Word × Nat))
    (hsteady : Steady config state) (h : Facing config state none .ready [] w) :
    TellsNews gz config state (.articles depth requests) w := by
  refine ⟨state, hsteady, rfl, ?_⟩
  have hp : Pipeline.submitted depth (requests.map Query.request) =
      { Pipeline.new depth with pending := requests.map Query.request } :=
    Pipeline.foldl_submit _ _
  have hstart : Pipelined config state requests
      (.submitted depth (requests.map Query.request), w) := by
    rw [hp]
    exact ⟨rfl, h⟩
  have hdepth : 0 < (Pipeline.submitted depth (requests.map Query.request)).depth := by
    rw [hp]
    exact Nat.lt_of_lt_of_le Nat.one_pos (Nat.le_max_right _ _)
  have hfuel : requests.length <
      (Pipeline.submitted depth (requests.map Query.request)).requests.length + 1 := by
    rw [hstart.queue, List.length_map]
    exact Nat.lt_succ_self _
  change wp (processAll.withFst _)
    (answers config (.ok (requests.map (config.news state).fetched)) state) w
  rw [wp_withFst, processAll, wp_bind, wp_get]
  refine wp_mono (wp_processLoop_pipelined hsteady _ [] hfuel hdepth hstart) ?_
    (fun _ _ h => h.elim) (fun _ h => h)
  rintro _ σ ⟨rfl, hfacing⟩
  exact ⟨rfl, hfacing⟩

/-! ### STAT checks -/

def MockConfig.statReply (config : MockConfig) (id : Text.Word) : Bytes :=
  (config.tellArticle id fun _ => [Text.utf8 s!"223 0 <{Text.trimAngles id.text}>\r\n"]).flatten

/-- The checks of a batch are sent one behind the other, and so are the replies. -/
theorem wp_statSends_facing {s : ConnectionState} {owed : Bytes} (ids : List Text.Word)
    (hsteady : Steady config state) (h : Facing config state none s owed w) :
    wp (statSends (ids.map (·.text)))
      (gives () (Facing config state none s (owed ++ ids.flatMap config.statReply))) w := by
  induction ids generalizing owed w with
  | nil => exact ⟨rfl, by simpa using h⟩
  | cons id ids ih =>
      obtain ⟨token, htoken, htrim⟩ := exists_word_normalized id
      have hverb : Text.IsVerb "STAT" := by decide
      have hcmd : Phrase s!"STAT {normalizeMessageId id.text}" := htoken ▸ hverb.command token
      have hanswer := answerTo_stat htrim hsteady
      rw [htoken] at hanswer
      have hsend := wp_orError_gives (wp_sendCommandNoFlush_facing hcmd hsteady.faults hanswer
        (show AfterCommand.counts.reading = some none from rfl) h)
      rw [List.map_cons, statSends, List.flatMap_cons, ← List.append_assoc]
      exact wp_gives_seq hsend fun _ => ih

/-- The replies are read in the order of the checks. -/
theorem wp_statReads_facing {s : ConnectionState} {rest : Bytes} (ids : List Text.Word)
    (results : List StatResult)
    (h : Facing config state none s (ids.flatMap config.statReply ++ rest) w) :
    wp (statReads (ids.map (·.text)) results)
      (gives (results ++ ids.map (config.news state).checked) (Facing config state none s rest))
      w := by
  induction ids generalizing results w with
  | nil => exact ⟨(List.append_nil _).symm, h⟩
  | cons id ids ih =>
      have hlf := lf_not_mem_trimAngles id
      rw [List.flatMap_cons, List.append_assoc] at h
      rw [List.map_cons, statReads, List.map_cons,
        List.append_cons results ((config.news state).checked id)]
      cases hlookup : config.articles.lookup (Text.trimAngles id.text) with
      | some data =>
          have hfound : (config.news state).checked id =
              { messageId := id.text, exists_ := true } := by
            simp only [News.checked, MockConfig.news, hlookup, Option.isSome_some]
          rw [MockConfig.statReply, tellArticle_some _ hlookup, flatten_statWrites] at h
          rw [hfound]
          exact wp_gives_seq (wp_orError_gives (wp_statusLine_facing (by decide)
            (message_id "0 " (by decide) hlf) h)) fun _ => ih _
      | none =>
          have hmissing : (config.news state).checked id =
              { messageId := id.text, exists_ := false } := by
            simp only [News.checked, MockConfig.news, hlookup, Option.isSome_none]
          rw [MockConfig.statReply, tellArticle_none _ hlookup] at h
          rw [hmissing]
          exact wp_gives_seq (wp_orError_gives (wp_statusLine_facing (by decide)
            (message_id "No article: " (by decide) hlf) h)) fun _ => ih _

/-- One batch after the other; between them nothing is owed. -/
theorem wp_statBatches_facing (batches : List (List Text.Word)) (results : List StatResult)
    (hsteady : Steady config state) (h : Facing config state none .ready [] w) :
    wp (statBatches (batches.map (·.map (·.text))) results)
      (gives (results ++ batches.flatten.map (config.news state).checked)
        (Facing config state none .ready [])) w := by
  induction batches generalizing results w with
  | nil => exact ⟨(List.append_nil _).symm, h⟩
  | cons batch batches ih =>
      rw [List.map_cons, statBatches, List.flatten_cons, List.map_append, ← List.append_assoc]
      have hbusy := h.setState .busy
      refine (wp_bind (setState .busy) _ w).mpr ?_
      refine wp_gives_seq (wp_statSends_facing batch hsteady hbusy) fun w₁ h₁ => ?_
      refine wp_gives_seq (wp_orError_gives (wp_flush_facing h₁)) fun w₂ h₂ => ?_
      rw [List.nil_append, ← List.append_nil (List.flatMap _ _)] at h₂
      refine wp_gives_seq (wp_statReads_facing batch results h₂) fun w₃ h₃ => ?_
      exact (wp_bind (setState .ready) _ w₃).mpr (ih _ (h₃.setState .ready))

theorem tellsNews_stats (ids : List Text.Word) (hsteady : Steady config state)
    (h : Facing config state none .ready [] w) : TellsNews gz config state (.stats ids) w := by
  refine ⟨state, hsteady, rfl, ?_⟩
  have hbatches := wp_statBatches_facing (chunks statBatchSize ids) [] hsteady h
  rw [flatten_chunks (by decide), List.nil_append, ← chunks_map] at hbatches
  change wp (execute.withFst _) (answers config (.ok (ids.map (config.news state).checked)) state) w
  simp only [wp_withFst, execute, wp_bind, wp_get, wp_modify, wp_onSnd]
  refine wp_mono hbatches ?_ (fun _ _ h => h.elim) (fun _ h => h)
  rintro _ w' ⟨rfl, hfacing⟩
  exact ⟨rfl, hfacing⟩

end Batches

end NzbNntp
