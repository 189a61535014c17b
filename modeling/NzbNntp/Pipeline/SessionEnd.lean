import NzbNntp.Connection.Lines
import NzbNntp.Pipeline.Agreement
import NzbNntp.Pipeline.Stat

/-!
Replies that end the session. Some codes say that the server has had enough of the
connection, whatever was asked: the probe of the pool knows them. An operation that reads
one of them is to leave the connection in `Error`, so that the pool does not keep it. All
of them do, for every status line they read, but for the second one of a posting.
-/

namespace NzbNntp

open Interruptible Chunks

/-- The codes that `ping` takes for the end of the session. -/
def sessionEnding : List Nat := [400, 403, 480, 481, 482, 502]

/-! ### The status lines of an operation -/

section Readings

variable {π : Type}

namespace Call

def Admitted (conn : NntpConnection π) : Call → Prop
  | .fetchHeadNumber n maxHeaderBytes =>
      conn.capabilities.haveHead = true ∧ n ≠ 0 ∧ 0 < maxHeaderBytes ∧ maxHeaderBytes ≤ 64 * 1024
  | .statArticle _ => conn.capabilities.haveStat = true
  | .xoverLosslessBounded _ _ _ maxBytes => 0 < maxBytes ∧ maxBytes ≤ 8 * 1024 * 1024
  | .xpat _ _ patterns => patterns ≠ []
  | .xpatBounded _ _ patterns maxBytes =>
      patterns ≠ [] ∧ 0 < maxBytes ∧ maxBytes ≤ 8 * 1024 * 1024
  | .fetchBodyPrefix _ maxBytes =>
      0 < maxBytes ∧ maxBytes ≤ 256 * 1024 ∧ conn.compressEnabled = false ∧
        conn.capabilities.haveBody = true
  | _ => True

def opening (caps : NntpCapabilities) (c : Call) : String := (c.command caps).getD "POST"

def writeLines [Peer π] : Call → Option (Nntp π Unit)
  | .postArticle article => some (postLines (Text.lines article))
  | .postArticleBytes article => some (postBytesLoop article article.length 0)
  | _ => none

end Call

/-- Which status line of a call it is: the reply to its command, or the reply to the
article that it has posted. -/
inductive ReplyTo where
  | command
  | article
  deriving DecidableEq

variable [Peer π]

inductive Call.Reads (c : Call) (w : World π) : ReplyTo → NntpResponse → Prop
  | command {status : NntpResponse} {w₁ : World π} : c.Admitted w.conn →
      Queried (c.opening w.conn.capabilities) w status w₁ → Reads c w .command status
  | article {writeLines : Nntp π Unit} {invitation status : NntpResponse} {w₁ w₂ w₃ : World π}
      {t : Transport π} : c.writeLines = some writeLines → Queried "POST" w invitation w₁ →
      invitation.code = 340 → writeLines (w₁.setState .busy) = .ok () w₂ →
      transportWriteAll [dot, cr, lf] w₂ = .ok () w₃ → NextStatus w₃ status t →
      Reads c w .article status

omit [Peer π] in
inductive Hears : World π → List NntpResponse → World π → Prop
  | nil {w : World π} : Hears w [] w
  | cons {w w' : World π} {t : Transport π} {status : NntpResponse} {rest : List NntpResponse} :
      NextStatus w status t → Hears (w.setTransport t).tick rest w' → Hears w (status :: rest) w'

def SendsBatch (batch : List String) (w w' : World π) : Prop :=
  ∃ w₁, statSends batch (w.setState .busy) = .ok () w₁ ∧ flush w₁ = .ok () w'

def Checks (reply : NntpResponse) : Prop := reply.code ∈ [223, 430]

inductive BatchesRead : List (List String) → World π → NntpResponse → Prop
  | here {batch : List String} {later : List (List String)} {w w₁ w₂ : World π}
      {before : List NntpResponse} {status : NntpResponse} : SendsBatch batch w w₁ →
      Hears w₁ (before ++ [status]) w₂ → before.length < batch.length →
      (∀ reply ∈ before, Checks reply) → BatchesRead (batch :: later) w status
  | later {batch : List String} {later : List (List String)} {w w₁ w₂ : World π}
      {replies : List NntpResponse} {status : NntpResponse} : SendsBatch batch w w₁ →
      Hears w₁ replies w₂ → replies.length = batch.length → (∀ reply ∈ replies, Checks reply) →
      BatchesRead later (w₂.setState .ready) status → BatchesRead (batch :: later) w status

end Readings

/-! ### The reply to a command -/

section Commands

variable {π : Type} [Peer π] {gz : GzDecoder} {w w₁ : World π} {status : NntpResponse}

/-- The session has ended: the call fails, and the connection is in `Error`. -/
def ended {α : Type} : Post NntpError (World π) α :=
  ⟨fun _ _ => False, fun _ w' => w'.conn.state = .error, fun _ => False⟩

theorem not_ending {code : Nat} {P : Prop} (hend : status.code ∈ sessionEnding)
    (hcode : status.code = code) (hother : code ∉ sessionEnding) : P :=
  absurd (hcode ▸ hend) hother

/-- An operation that asks `cmd` goes on after the status line. -/
theorem wp_request_of_queried {α : Type} {operation cmd : String} {k : NntpResponse → Nntp π α}
    (hready : w.conn.state = .ready) (h : Queried cmd w status w₁)
    (hk : wp (k status) ended (w₁.setState .busy)) :
    wp (do
      requireReady operation
      let status ← request cmd
      k status) ended w := by
  rw [wp_bind_of_ok (requireReady_of_ready hready),
    wp_bind_of_ok (request_of_ok (ask_eq_ok_iff.mpr h))]
  exact hk

theorem ended_fetchArticle {mid : String} (hready : w.conn.state = .ready)
    (h : Queried s!"ARTICLE {normalizeMessageId mid}" w status w₁)
    (hend : status.code ∈ sessionEnding) : wp (fetchArticle gz mid) ended w := by
  refine wp_request_of_queried hready h ?_
  split
  case h_1 | h_2 | h_3 | h_4 | h_5 | h_6 =>
    rename_i hcode
    exact not_ending hend hcode (by decide)
  all_goals exact rfl

theorem ended_fetchBodyDirect {mid : String} (hready : w.conn.state = .ready)
    (h : Queried s!"BODY {normalizeMessageId mid}" w status w₁)
    (hend : status.code ∈ sessionEnding) : wp (fetchBodyDirect gz mid) ended w := by
  refine wp_request_of_queried hready h ?_
  split
  case h_1 | h_2 | h_3 | h_4 | h_5 =>
    rename_i hcode
    exact not_ending hend hcode (by decide)
  all_goals exact rfl

theorem ended_overviewFormat (hready : w.conn.state = .ready)
    (h : Queried "LIST OVERVIEW.FMT" w status w₁)
    (hend : status.code ∈ sessionEnding) : wp (overviewFormat gz) ended w := by
  refine wp_request_of_queried hready h ?_
  split
  case h_1 =>
    rename_i hcode
    exact not_ending hend hcode (by decide)
  all_goals exact rfl

theorem ended_xover {start stop : Nat} (hready : w.conn.state = .ready)
    (h : Queried s!"XOVER {start}-{stop}" w status w₁)
    (hend : status.code ∈ sessionEnding) : wp (xover gz start stop) ended w := by
  refine wp_request_of_queried hready h ?_
  split
  case h_1 | h_2 | h_3 | h_4 =>
    rename_i hcode
    exact not_ending hend hcode (by decide)
  all_goals exact rfl

theorem ended_xoverLosslessWithLimit {start stop : Nat} {format : OverviewFormat}
    {limit : Option Nat} (hready : w.conn.state = .ready)
    (h : Queried s!"XOVER {start}-{stop}" w status w₁) (hend : status.code ∈ sessionEnding) :
    wp (xoverLosslessWithLimit gz start stop format limit) ended w := by
  refine wp_request_of_queried hready h ?_
  split
  case h_1 | h_2 | h_3 | h_4 =>
    rename_i hcode
    exact not_ending hend hcode (by decide)
  all_goals exact rfl

theorem ended_xhdr {header : String} {range : ArticleRange} (hready : w.conn.state = .ready)
    (h : Queried s!"XHDR {header} {range.toCommandArg}" w status w₁)
    (hend : status.code ∈ sessionEnding) : wp (xhdr gz header range) ended w := by
  refine wp_request_of_queried hready h ?_
  split
  case h_1 | h_2 | h_3 | h_4 | h_5 =>
    rename_i hcode
    exact not_ending hend hcode (by decide)
  all_goals exact rfl

theorem ended_listActive {wildmat : Option String} (hready : w.conn.state = .ready)
    (h : Queried (listActiveCommand wildmat) w status w₁)
    (hend : status.code ∈ sessionEnding) : wp (listActive gz wildmat) ended w := by
  refine wp_request_of_queried hready h ?_
  split
  case h_1 =>
    rename_i hcode
    exact not_ending hend hcode (by decide)
  all_goals exact rfl

theorem ended_fetchHeadNumber {n maxHeaderBytes : Nat} (hready : w.conn.state = .ready)
    (hadmitted : (Call.fetchHeadNumber n maxHeaderBytes).Admitted w.conn)
    (h : Queried s!"HEAD {n}" w status w₁) (hend : status.code ∈ sessionEnding) :
    wp (fetchHeadNumber gz n maxHeaderBytes) ended w := by
  obtain ⟨hhead, hn, hpos, hbound⟩ := hadmitted
  rw [fetchHeadNumber, wp_bind, wp_get]
  dsimp only
  rw [hhead, if_neg (by simp), if_neg (by omega)]
  refine wp_request_of_queried hready h ?_
  split
  case h_1 | h_2 | h_3 | h_4 | h_5 =>
    rename_i hcode
    exact not_ending hend hcode (by decide)
  all_goals exact rfl

theorem ended_statArticle {mid : String} (hready : w.conn.state = .ready)
    (hadmitted : (Call.statArticle mid).Admitted w.conn)
    (h : Queried s!"STAT {normalizeMessageId mid}" w status w₁)
    (hend : status.code ∈ sessionEnding) : wp (statArticle mid) ended w := by
  rw [statArticle, wp_bind, wp_get]
  dsimp only
  rw [show w.conn.capabilities.haveStat = true from hadmitted, if_neg (by simp)]
  refine wp_request_of_queried hready h ?_
  split
  case h_1 | h_2 =>
    rename_i hcode
    exact not_ending hend hcode (by decide)
  all_goals exact rfl

/-- The probe has the six codes on its list. -/
theorem ended_ping (hready : w.conn.state = .ready) (h : Queried "DATE" w status w₁)
    (hend : status.code ∈ sessionEnding) : wp ping ended w := by
  refine wp_request_of_queried hready h ?_
  split
  case h_7 => simp_all [sessionEnding]
  all_goals exact rfl

theorem ended_group {name : String} (hready : w.conn.state = .ready)
    (h : Queried s!"GROUP {name}" w status w₁) (hend : status.code ∈ sessionEnding) :
    wp (group name) ended w := by
  refine wp_request_of_queried hready h ?_
  rw [wp_bind]
  show wp _ _ _
  split
  case h_1 | h_2 =>
    rename_i hcode
    exact not_ending hend hcode (by decide)
  all_goals exact rfl

theorem ended_xpatWithLimit {header : String} {range : ArticleRange} {patterns : List String}
    {limit : Option Nat} (hready : w.conn.state = .ready) (hpatterns : patterns ≠ [])
    (h : Queried (xpatCommand header range patterns) w status w₁)
    (hend : status.code ∈ sessionEnding) :
    wp (xpatWithLimit gz header range patterns limit) ended w := by
  rw [xpatWithLimit, wp_bind_of_ok (requireReady_of_ready hready),
    if_neg (by simpa using hpatterns)]
  refine (wp_bind_of_ok (request_of_ok (ask_eq_ok_iff.mpr h))).mpr ?_
  split
  case h_1 | h_2 | h_3 | h_4 | h_5 | h_9 | h_10 =>
    rename_i hcode
    exact not_ending hend hcode (by decide)
  all_goals exact rfl

theorem ended_fetchBody {mid : String} (hready : w.conn.state = .ready)
    (h : Queried (fetchBodyCommand w.conn.capabilities mid) w status w₁)
    (hend : status.code ∈ sessionEnding) : wp (fetchBody gz mid) ended w := by
  rw [fetchBodyCommand] at h
  rw [fetchBody, wp_bind, wp_get]
  dsimp only
  split
  · rename_i harticle
    rw [if_pos harticle] at h
    exact wp_seq (ended_fetchArticle hready h hend) (fun _ _ h => h.elim) (fun _ _ h => h)
      (fun _ h => h)
  · rename_i hbody
    rw [if_neg hbody] at h
    exact ended_fetchBodyDirect hready h hend

theorem ended_fetchBodyPrefix {mid : String} {maxBytes : Nat} (hready : w.conn.state = .ready)
    (hadmitted : (Call.fetchBodyPrefix mid maxBytes).Admitted w.conn)
    (h : Queried s!"BODY {normalizeMessageId mid}" w status w₁)
    (hend : status.code ∈ sessionEnding) : wp (fetchBodyPrefix mid maxBytes) ended w := by
  obtain ⟨hpos, hbound, hplain, hbody⟩ := hadmitted
  rw [fetchBodyPrefix, wp_bind, wp_get]
  dsimp only
  rw [if_neg (by omega), hplain, if_neg Bool.false_ne_true, hbody, if_neg (by simp)]
  refine wp_request_of_queried hready h ?_
  split
  case h_1 | h_2 | h_3 | h_4 | h_5 | h_10 | h_11 =>
    rename_i hcode
    exact not_ending hend hcode (by decide)
  all_goals exact rfl

/-- A posting that is not invited. -/
theorem ended_postWith {writeLines : Nntp π Unit} (hready : w.conn.state = .ready)
    (h : Queried "POST" w status w₁) (hend : status.code ∈ sessionEnding) :
    wp (postWith writeLines) ended w := by
  refine wp_request_of_queried hready h ?_
  split
  case h_1 | h_2 =>
    rename_i hcode
    exact not_ending hend hcode (by decide)
  all_goals exact rfl

/-- The reply to the command of a call. -/
theorem Call.ended_run (gz : GzDecoder) (c : Call) (hready : w.conn.state = .ready)
    (hadmitted : c.Admitted w.conn) (h : Queried (c.opening w.conn.capabilities) w status w₁)
    (hend : status.code ∈ sessionEnding) : wp (c.run gz) ended w := by
  cases c with
  | fetchArticle mid => exact ended_fetchArticle hready h hend
  | fetchHeadNumber n maxHeaderBytes => exact ended_fetchHeadNumber hready hadmitted h hend
  | statArticle mid => exact ended_statArticle hready hadmitted h hend
  | ping => exact ended_ping hready h hend
  | group name => exact ended_group hready h hend
  | overviewFormat => exact ended_overviewFormat hready h hend
  | xover start stop => exact ended_xover hready h hend
  | xoverLossless start stop format =>
      exact (wp_map _ _ w).mpr (ended_xoverLosslessWithLimit hready h hend)
  | xoverLosslessBounded start stop format maxBytes =>
      obtain ⟨hpos, hbound⟩ := hadmitted
      show wp (NzbNntp.xoverLosslessBounded gz start stop format maxBytes) ended w
      rw [NzbNntp.xoverLosslessBounded, if_neg (by omega)]
      exact ended_xoverLosslessWithLimit hready h hend
  | xhdr header range => exact ended_xhdr hready h hend
  | xpat header range patterns =>
      exact (wp_map _ _ w).mpr (ended_xpatWithLimit hready hadmitted h hend)
  | xpatBounded header range patterns maxBytes =>
      obtain ⟨hpatterns, hpos, hbound⟩ := hadmitted
      show wp (NzbNntp.xpatBounded gz header range patterns maxBytes) ended w
      rw [NzbNntp.xpatBounded, if_neg (by omega)]
      exact ended_xpatWithLimit hready hpatterns h hend
  | fetchBody mid => exact ended_fetchBody hready h hend
  | fetchBodyPrefix mid maxBytes => exact ended_fetchBodyPrefix hready hadmitted h hend
  | listActive wildmat => exact ended_listActive hready h hend
  | postArticle article => exact ended_postWith hready h hend
  | postArticleBytes article => exact ended_postWith hready h hend

/-- The reply to the article is handed out as it is, and the connection is `Ready`. -/
theorem postWith_ready {writeLines : Nntp π Unit} {invitation : NntpResponse} {w₂ w₃ : World π}
    {t : Transport π} (hready : w.conn.state = .ready) (h : Queried "POST" w invitation w₁)
    (h340 : invitation.code = 340) (hlines : writeLines (w₁.setState .busy) = .ok () w₂)
    (hdot : transportWriteAll [dot, cr, lf] w₂ = .ok () w₃) (hnext : NextStatus w₃ status t) :
    wp (postWith writeLines)
      ⟨fun r w' => r = status ∧ w'.conn.state = .ready, fun _ _ => False, fun _ => False⟩ w := by
  have htransport : requireTransport (w₁.setState .busy) = .ok () (w₁.setState .busy) := by
    obtain ⟨_, t, _, _, rfl⟩ := h
    rfl
  have hread : orError readResponseLine w₃ = .ok status (w₃.setTransport t).tick :=
    orError_of_ok (readResponseLine_eq_ok_iff.mpr ⟨t, hnext, rfl⟩)
  rw [postWith, wp_bind_of_ok (requireReady_of_ready hready),
    wp_bind_of_ok (request_of_ok (ask_eq_ok_iff.mpr h))]
  simp only [h340]
  rw [wp_bind_of_ok htransport, wp_bind_of_ok hlines, wp_bind_of_ok (orError_of_ok hdot),
    wp_bind_of_ok hread]
  exact ⟨rfl, rfl⟩

theorem Call.run_ready (gz : GzDecoder) (c : Call) {writeLines : Nntp π Unit} {invitation : NntpResponse}
    {w₂ w₃ : World π} {t : Transport π} (hready : w.conn.state = .ready)
    (hwrites : c.writeLines = some writeLines) (h : Queried "POST" w invitation w₁)
    (h340 : invitation.code = 340) (hlines : writeLines (w₁.setState .busy) = .ok () w₂)
    (hdot : transportWriteAll [dot, cr, lf] w₂ = .ok () w₃) (hnext : NextStatus w₃ status t) :
    wp (c.run gz) ⟨fun _ w' => w'.conn.state = .ready, fun _ _ => False, fun _ => False⟩ w := by
  have hposted : wp (postWith writeLines)
      ⟨fun _ w' => w'.conn.state = .ready, fun _ _ => False, fun _ => False⟩ w :=
    wp_mono (postWith_ready hready h h340 hlines hdot hnext) (fun _ _ h => h.2) (fun _ _ h => h)
      (fun _ h => h)
  cases c with
  | postArticle article =>
      cases hwrites
      exact hposted
  | postArticleBytes article =>
      cases hwrites
      exact hposted
  | _ => cases hwrites

end Commands

/-! ### The replies of a pipeline -/

section Pipelines

variable {π : Type} {w w₁ w₂ : World π} {status : NntpResponse}

theorem after_ending (s : ConnectionState) (request : PipelineRequest)
    (hend : status.code ∈ sessionEnding) :
    s.after (judgeStatus request status []).result = .error := by
  simp only [sessionEnding, List.mem_cons, List.not_mem_nil, or_false] at hend
  rcases hend with h | h | h | h | h | h
  · have hjudge : (judgeStatus request status []).result =
        .error (unexpectedArticleResponse status.code status.message) := by
      simp [judgeStatus, h]
    rw [hjudge]
    exact ConnectionState.after_unexpected s _ _
  all_goals
    simp only [judgeStatus, h]
    rfl

/-- The oldest request in flight. -/
theorem receiveOne_ends {p : Pipeline} {t : Transport π} (hflight : p.inFlight ≠ [])
    (hnext : NextStatus w status t) (hend : status.code ∈ sessionEnding) :
    (receiveOne (p, w)).state.2.conn.state = .error := by
  have hread : readResponseLine w = .ok status (w.setTransport t).tick :=
    readResponseLine_eq_ok_iff.mpr ⟨t, hnext, rfl⟩
  have h220 : status.code ≠ 220 := fun h => not_ending hend h (by decide)
  have herror : wp receiveOne (always fun s => s.2.conn.state = .error) (p, w) := by
    rw [receiveOne, wp_bind, wp_get]
    dsimp only
    split
    · contradiction
    · rename_i request rest _
      simp only [modifyPipeline, wp_bind, wp_modify, wp_onSnd]
      unfold wp
      rw [readReply_refuses hread h220]
      exact after_ending _ request hend
  exact wp_always_iff.mp herror

/-- The replies that the checks go on after are taken one by one. -/
theorem wp_statReads_cons {batch : List String} {mid : String} {reply : NntpResponse}
    {t : Transport π} {Q : Post NntpError (World π) (List StatResult)}
    (hnext : NextStatus w reply t) (hchecks : Checks reply)
    (hrest : ∀ results, wp (statReads batch results) Q (w.setTransport t).tick) :
    ∀ results, wp (statReads (mid :: batch) results) Q w := by
  intro results
  have hread := orError_of_ok (readResponseLine_eq_ok_iff.mpr ⟨t, hnext, rfl⟩)
  simp only [Checks, List.mem_cons, List.not_mem_nil, or_false] at hchecks
  rw [statReads, wp_bind_of_ok hread]
  rcases hchecks with h | h
  all_goals
    simp only [h]
    exact hrest _

/-- A batch whose replies let the checks go on. -/
theorem statReads_of_hears {replies : List NntpResponse} (h : Hears w replies w₁) :
    ∀ (batch : List String), replies.length = batch.length →
      (∀ reply ∈ replies, Checks reply) → ∀ results,
      wp (statReads batch results) ⟨fun _ w' => w' = w₁, fun _ _ => False, fun _ => False⟩ w := by
  induction h with
  | nil =>
      intro batch hlength _ results
      obtain rfl : batch = [] := by simpa using hlength.symm
      exact rfl
  | cons hnext _ ih =>
      intro batch hlength hchecks
      obtain ⟨mid, batch, rfl⟩ := List.exists_cons_of_length_eq_add_one hlength.symm
      refine wp_statReads_cons hnext (hchecks _ (by simp)) (ih batch (by simpa using hlength) ?_)
      exact fun reply hreply => hchecks reply (by simp [hreply])

/-- A batch that reads a reply which ends the session. -/
theorem statReads_ends {before : List NntpResponse} (hend : status.code ∈ sessionEnding) :
    ∀ {w : World π}, Hears w (before ++ [status]) w₁ → ∀ (batch : List String),
      before.length < batch.length → (∀ reply ∈ before, Checks reply) → ∀ results,
      wp (statReads batch results) ended w := by
  induction before with
  | nil =>
      intro w h batch hlength _ results
      obtain ⟨mid, batch, rfl⟩ := List.exists_cons_of_ne_nil (List.ne_nil_of_length_pos hlength)
      obtain _ | ⟨hnext, _⟩ := h
      rw [statReads, wp_bind_of_ok (orError_of_ok (readResponseLine_eq_ok_iff.mpr ⟨_, hnext, rfl⟩))]
      split
      case h_1 | h_2 =>
        rename_i hcode
        exact not_ending hend hcode (by decide)
      all_goals exact rfl
  | cons reply before ih =>
      intro w h batch hlength hchecks
      obtain ⟨mid, batch, rfl⟩ :=
        List.exists_cons_of_ne_nil (List.ne_nil_of_length_pos (by omega : 0 < batch.length))
      obtain _ | ⟨hnext, hrest⟩ := h
      refine wp_statReads_cons hnext (hchecks _ (by simp)) (ih hrest batch ?_ ?_)
      · simpa using hlength
      · exact fun reply hreply => hchecks reply (by simp [hreply])

variable [Peer π]

/-- Once the commands of a batch are sent its replies are read. -/
theorem wp_statBatches_cons {batch : List String} {later : List (List String)}
    {results : List StatResult} {Q : Post NntpError (World π) (List StatResult)}
    (hsends : SendsBatch batch w w₁)
    (hreads : wp (statReads batch results)
      ⟨fun results' w' => wp (statBatches later results') Q (w'.setState .ready), Q.err,
        Q.dropped⟩ w₁) :
    wp (statBatches (batch :: later) results) Q w := by
  obtain ⟨w', hwrites, hflush⟩ := hsends
  rw [statBatches, wp_bind]
  refine (wp_bind_of_ok hwrites).mpr ?_
  rw [wp_bind_of_ok (orError_of_ok hflush), wp_bind]
  exact wp_mono hreads (fun _ _ h => h) (fun _ _ h => h) (fun _ h => h)

theorem statBatches_ends {batches : List (List String)} (h : BatchesRead batches w status)
    (hend : status.code ∈ sessionEnding) :
    ∀ results, wp (statBatches batches results) ended w := by
  induction h with
  | here hsends hhears hlength hchecks =>
      intro results
      apply wp_statBatches_cons hsends
      exact wp_mono (statReads_ends hend hhears _ hlength hchecks results) (fun _ _ h => h.elim)
        (fun _ _ h => h) (fun _ h => h)
  | later hsends hhears hlength hchecks _ ih =>
      intro results
      apply wp_statBatches_cons hsends
      refine wp_mono (statReads_of_hears hhears _ hlength hchecks results) ?_
        (fun _ _ h => h.elim) (fun _ h => h.elim)
      intro results' w' h
      subst h
      exact ih hend results'

/-- The batches of `execute`, up to the one whose checks end. -/
theorem execute_ends {p : StatPipeline} (h : BatchesRead (chunks statBatchSize p.pending) w status)
    (hend : status.code ∈ sessionEnding) : (execute (p, w)).state.2.conn.state = .error := by
  have herror : wp execute (always fun s => s.2.conn.state = .error) (p, w) := by
    rw [execute, wp_bind, wp_get]
    dsimp only
    rw [wp_bind, wp_modify]
    refine (wp_onSnd _ _).mpr ?_
    exact wp_mono (statBatches_ends h hend []) (fun _ _ h => h.elim) (fun _ _ h => h)
      (fun _ h => h.elim)
  exact wp_always_iff.mp herror

end Pipelines

/-! ### The session has ended -/

/-- A connection in `Error`, which is disposed of when it is released. -/
def Condemned {π : Type} (conn : NntpConnection π) : Prop :=
  conn.state = .error ∧ conn.isHealthy = false

theorem condemned_iff {π : Type} {conn : NntpConnection π} :
    Condemned conn ↔ conn.state = .error := by
  refine ⟨fun h => h.1, fun h => ⟨h, ?_⟩⟩
  simp [NntpConnection.isHealthy, h]

section Farewell

variable {π : Type}

def closed {α : Type} : Post NntpError (World π) α :=
  ⟨fun _ w' => w'.conn.state = .disconnected, fun _ _ => True, fun _ => True⟩

theorem closed_bind {α β : Type} {x : Nntp π α} {f : α → Nntp π β}
    (h : ∀ a w, wp (f a) closed w) (w : World π) : wp (x >>= f) closed w := by
  rw [wp_bind]
  exact wp_mono (wp_trivial x w) (fun a w' _ => h a w') (fun _ _ h => h) (fun _ h => h)

/-- `quit` drops the transport whatever it has read. -/
theorem closed_quit [Peer π] : ∀ w : World π, wp quit closed w := by
  have hclose : ∀ w : World π, wp (do
      Comp.modify fun w => { w with conn := { w.conn with transport := none } }
      setState .disconnected : Nntp π Unit) closed w := fun _ => rfl
  have hshut : ∀ w : World π, wp (do
      let closed ← onTransport Transport.flush
      if closed = .dropped then Comp.drop else pure ()
      Comp.modify fun w => { w with conn := { w.conn with transport := none } }
      setState .disconnected : Nntp π Unit) closed w := by
    apply closed_bind
    intro flushed
    split
    · exact closed_bind fun _ => hclose
    · exact hclose
  apply closed_bind
  intro w
  split
  · apply closed_bind
    intro sent
    cases sent with
    | error e => exact hshut
    | ok _ => exact closed_bind fun _ => hshut
  · exact hclose

end Farewell

/-- A reply that ends the session leaves the connection in `Error`, except where it is the
reply to an article that was posted; and `quit`, which is told of the end as well, closes
the connection. -/
theorem session_end_condemns_iff {π : Type} [Peer π] (gz : GzDecoder) :
    (∀ (c : Call) (w : World π) (reply : ReplyTo) (status : NntpResponse),
      w.conn.state = .ready → c.Reads w reply status → status.code ∈ sessionEnding →
        (Condemned (c.run gz w).state.conn ↔ reply = .command)) ∧
      (∀ (p : Pipeline) (w : World π) (status : NntpResponse) (t : Transport π),
        p.inFlight ≠ [] → NextStatus w status t → status.code ∈ sessionEnding →
          Condemned (receiveOne (p, w)).state.2.conn) ∧
      (∀ (p : StatPipeline) (w : World π) (status : NntpResponse),
        BatchesRead (chunks statBatchSize p.pending) w status → status.code ∈ sessionEnding →
          Condemned (execute (p, w)).state.2.conn) ∧
      ∀ w w' : World π, quit w = .ok () w' → ¬ Condemned w'.conn := by
  refine ⟨fun c w reply status hready hreads hend => ?_, fun p w status t hflight hnext hend => ?_,
    fun p w status h hend => ?_, fun w w' h hcondemned => ?_⟩
  · rw [condemned_iff]
    cases hreads with
    | command hadmitted h =>
        have hrun := c.ended_run gz hready hadmitted h hend
        simp only [iff_true]
        exact wp_always_iff.mp (wp_mono hrun (fun _ _ h => h.elim) (fun _ _ h => h)
          fun _ h => h.elim)
    | article hwrites h h340 hlines hdot hnext =>
        have hrun := c.run_ready gz hready hwrites h h340 hlines hdot hnext
        have hstate : (c.run gz w).state.conn.state = .ready :=
          wp_always_iff.mp (wp_mono hrun (fun _ _ h => h) (fun _ _ h => h.elim) fun _ h => h.elim)
        simp [hstate]
  · exact condemned_iff.mpr (receiveOne_ends hflight hnext hend)
  · exact condemned_iff.mpr (execute_ends h hend)
  · have hstate : w'.conn.state = .disconnected := wp_ok (closed_quit w) h
    simp [condemned_iff, hstate] at hcondemned

/-- A server that lets an article come, and then has had enough of the client. -/
def evictingServer : ReplyServer where
  answer lines :=
    if lines.length = 1 then .bare (Text.utf8 "340 go on\r") lf_not_mem_invitation
    else .bare (Text.utf8 "502 no more\r") (by decide)

theorem Call.reads_of_runs {π : Type} [Peer π] {c : Call} {writeLines : Nntp π Unit}
    {invitation status : NntpResponse} {w w₁ w₂ w₃ w₄ : World π}
    (hwrites : c.writeLines = some writeLines) (hask : ask "POST" w = .ok invitation w₁)
    (h340 : invitation.code = 340) (hlines : writeLines (w₁.setState .busy) = .ok () w₂)
    (hdot : transportWriteAll [dot, cr, lf] w₂ = .ok () w₃)
    (hread : readResponseLine w₃ = .ok status w₄) : c.Reads w .article status := by
  obtain ⟨t, hnext, _⟩ := readResponseLine_eq_ok_iff.mp hread
  exact .article hwrites (ask_eq_ok_iff.mp hask) h340 hlines hdot hnext

theorem Call.reads_of_asks {π : Type} [Peer π] {c : Call} {status : NntpResponse}
    {w w₁ : World π} (hadmitted : c.Admitted w.conn)
    (hask : ask (c.opening w.conn.capabilities) w = .ok status w₁) : c.Reads w .command status :=
  .command hadmitted (ask_eq_ok_iff.mp hask)

/-- The server refuses a command; it refuses the article that it has asked for. -/
theorem session_end_condemns_iff_on_eviction :
    (∃ status : NntpResponse, (Call.fetchArticle "a@b").Reads (.readyTo unavailableServer) .command
        status ∧ status.code = 502 ∧
      Condemned ((Call.fetchArticle "a@b").run rawDecoder (.readyTo unavailableServer)).state.conn) ∧
      ∃ status : NntpResponse, (Call.postArticleBytes []).Reads (.readyTo evictingServer) .article
        status ∧ status.code = 502 ∧
      ¬ Condemned ((Call.postArticleBytes []).run rawDecoder (.readyTo evictingServer)).state.conn := by
  have hrefused : (Call.fetchArticle "a@b").Reads (.readyTo unavailableServer) .command
      { code := 502, message := "Service unavailable" } := Call.reads_of_asks trivial rfl
  have hposted : (Call.postArticleBytes []).Reads (.readyTo evictingServer) .article
      { code := 502, message := "no more" } := Call.reads_of_runs rfl rfl rfl rfl rfl rfl
  have hcondemns := (session_end_condemns_iff (π := ReplyServer) rawDecoder).1
  refine ⟨⟨_, hrefused, rfl, ?_⟩, _, hposted, rfl, fun hcondemned => ?_⟩
  · exact (hcondemns _ _ _ _ rfl hrefused (by decide)).mpr rfl
  · cases (hcondemns _ _ _ _ rfl hposted (by decide)).mp hcondemned

theorem post_can_end_ready :
    ¬ ∀ (gz : GzDecoder) (c : Call) (w : World ReplyServer) (reply : ReplyTo)
        (status : NntpResponse), w.conn.state = .ready → c.Reads w reply status →
        status.code ∈ sessionEnding → (c.run gz w).state.conn.state = .error := by
  intro h
  have hreads : (Call.postArticleBytes []).Reads (.readyTo evictingServer) .article
      { code := 502, message := "no more" } :=
    Call.reads_of_runs rfl rfl rfl rfl rfl rfl
  have hstate := h rawDecoder _ _ _ _ rfl hreads (by decide)
  cases hstate

end NzbNntp
