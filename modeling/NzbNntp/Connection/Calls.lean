import NzbNntp.Connection.Posting

/-!
Runs of single-command operations on one connection. Each call either finds the
connection `Ready`, and settles its own exchange, or it fails at its state check
and touches nothing. So a connection that starts aligned stays aligned: whenever
it is `Ready`, nothing of an earlier reply can still be read.
-/

namespace NzbNntp

open Interruptible

inductive Call where
  | fetchArticle (messageId : String)
  | fetchHeadNumber (articleNumber maxHeaderBytes : Nat)
  | statArticle (messageId : String)
  | ping
  | group (name : String)
  | overviewFormat
  | xover (start stop : Nat)
  | xoverLossless (start stop : Nat) (format : OverviewFormat)
  | xoverLosslessBounded (start stop : Nat) (format : OverviewFormat) (maxResponseBytes : Nat)
  | xhdr (header : String) (range : ArticleRange)
  | xpat (header : String) (range : ArticleRange) (patterns : List String)
  | xpatBounded (header : String) (range : ArticleRange) (patterns : List String)
      (maxResponseBytes : Nat)
  | fetchBody (messageId : String)
  | fetchBodyPrefix (messageId : String) (maxBytes : Nat)
  | listActive (wildmat : Option String)
  | postArticle (article : String)
  | postArticleBytes (article : Bytes)

namespace Call

def Result : Call → Type
  | .fetchArticle _ | .fetchHeadNumber _ _ | .statArticle _ | .fetchBody _ | .postArticle _
  | .postArticleBytes _ => NntpResponse
  | .ping => Unit
  | .group _ => GroupResponse
  | .overviewFormat => OverviewFormat
  | .xover _ _ => List XoverEntry
  | .xoverLossless _ _ _ => LosslessOverviewRows
  | .xoverLosslessBounded _ _ _ _ => BoundedResponse LosslessOverviewRows
  | .xhdr _ _ | .xpat _ _ _ => List HeaderEntry
  | .xpatBounded _ _ _ _ => BoundedResponse (List HeaderEntry)
  | .fetchBodyPrefix _ _ => BodyPrefixResponse
  | .listActive _ => List ListActiveEntry

def run {π : Type} [Peer π] (gz : GzDecoder) : (c : Call) → Nntp π c.Result
  | .fetchArticle mid => NzbNntp.fetchArticle gz mid
  | .fetchHeadNumber n maxHeaderBytes => NzbNntp.fetchHeadNumber gz n maxHeaderBytes
  | .statArticle mid => NzbNntp.statArticle mid
  | .ping => NzbNntp.ping
  | .group name => NzbNntp.group name
  | .overviewFormat => NzbNntp.overviewFormat gz
  | .xover start stop => NzbNntp.xover gz start stop
  | .xoverLossless start stop format => NzbNntp.xoverLossless gz start stop format
  | .xoverLosslessBounded start stop format maxBytes =>
      NzbNntp.xoverLosslessBounded gz start stop format maxBytes
  | .xhdr header range => NzbNntp.xhdr gz header range
  | .xpat header range patterns => NzbNntp.xpat gz header range patterns
  | .xpatBounded header range patterns maxBytes =>
      NzbNntp.xpatBounded gz header range patterns maxBytes
  | .fetchBody mid => NzbNntp.fetchBody gz mid
  | .fetchBodyPrefix mid maxBytes => NzbNntp.fetchBodyPrefix mid maxBytes
  | .listActive wildmat => NzbNntp.listActive gz wildmat
  | .postArticle article => NzbNntp.postArticle article
  | .postArticleBytes article => NzbNntp.postArticleBytes article

def OneLineArgs : Call → Prop
  | .fetchArticle mid | .statArticle mid | .fetchBody mid | .fetchBodyPrefix mid _ => OneLine mid
  | .group name => OneLine name
  | .xhdr header range => OneLine header ∧ OneLine range.toCommandArg
  | .xpat header range patterns | .xpatBounded header range patterns _ =>
      OneLine header ∧ OneLine range.toCommandArg ∧ ∀ pattern ∈ patterns, OneLine pattern
  | .listActive wildmat => ∀ pattern, wildmat = some pattern → OneLine pattern
  | _ => True

/-- The call goes by the text of a reply, and fails where it does not understand it. -/
def readsReply : Call → Bool
  | .group _ | .overviewFormat => true
  | _ => false

/-- How a call on an aligned connection `w₀` ends. -/
def ending (w₀ : World ReplyServer) : (c : Call) → Post NntpError (World ReplyServer) c.Result
  | .fetchBodyPrefix _ _ => settlesOrRetires w₀
  | c => settles c.Result c.readsReply w₀

theorem wp_run {gz : GzDecoder} {w : World ReplyServer} (c : Call) (hargs : c.OneLineArgs)
    (hw : AtRest w) : wp (c.run gz) (c.ending w) w := by
  cases c with
  | fetchArticle mid => exact settles_fetchArticle hargs hw
  | fetchHeadNumber n maxHeaderBytes => exact settles_fetchHeadNumber hw
  | statArticle mid => exact settles_statArticle hargs hw
  | ping => exact settles_ping hw
  | group name => exact settles_group hargs hw
  | overviewFormat => exact settles_overviewFormat hw
  | xover start stop => exact settles_xover hw
  | xoverLossless start stop format =>
      exact (wp_map _ _ w).mpr (settles_xoverLosslessWithLimit hw)
  | xoverLosslessBounded start stop format maxBytes =>
      change wp (NzbNntp.xoverLosslessBounded gz start stop format maxBytes) (settles _ false w) w
      rw [NzbNntp.xoverLosslessBounded]
      split
      · exact settles_check hw
      · exact settles_xoverLosslessWithLimit hw
  | xhdr header range => exact settles_xhdr hargs.1 hargs.2 hw
  | xpat header range patterns =>
      exact (wp_map _ _ w).mpr (settles_xpatWithLimit hargs.1 hargs.2.1 hargs.2.2 hw)
  | xpatBounded header range patterns maxBytes =>
      change wp (NzbNntp.xpatBounded gz header range patterns maxBytes) (settles _ false w) w
      rw [NzbNntp.xpatBounded]
      split
      · exact settles_check hw
      · exact settles_xpatWithLimit hargs.1 hargs.2.1 hargs.2.2 hw
  | fetchBody mid => exact settles_fetchBody hargs hw
  | fetchBodyPrefix mid maxBytes => exact settles_fetchBodyPrefix hargs hw
  | listActive wildmat => exact settles_listActive hargs hw
  | postArticle article => exact settles_postArticle hw
  | postArticleBytes article => exact settles_postArticleBytes hw

/-! ### Calls that find the connection in another state -/

/-- A call that fails and leaves the world as it is. -/
def refuses {π : Type} (α : Type) (w : World π) : Post NntpError (World π) α :=
  ⟨fun _ _ => False, fun _ w' => w' = w, fun _ => False⟩

section Refusal

variable {π : Type} {w : World π} {α β : Type}

theorem refuses_bind {x : Nntp π α} {f : α → Nntp π β} (h : wp x (refuses α w) w) :
    wp (x >>= f) (refuses β w) w :=
  wp_seq h (fun _ _ h => h.elim) (fun _ _ h => h) (fun _ h => h)

theorem refuses_requireReady {operation : String} {f : Unit → Nntp π β}
    (hstate : w.conn.state ≠ .ready) :
    wp (requireReady operation >>= f) (refuses β w) w := by
  refine refuses_bind ?_
  simp only [requireReady, wp_bind, wp_get, if_pos hstate]
  rfl

theorem refuses_map {x : Nntp π α} {f : α → β} (h : wp x (refuses α w) w) :
    wp (f <$> x) (refuses β w) w :=
  (wp_map f x w).mpr h

theorem refuses_run [Peer π] {gz : GzDecoder} (c : Call) (hstate : w.conn.state ≠ .ready) :
    wp (c.run gz) (refuses c.Result w) w := by
  cases c with
  | fetchHeadNumber n maxHeaderBytes =>
      change wp (NzbNntp.fetchHeadNumber gz n maxHeaderBytes) (refuses NntpResponse w) w
      rw [NzbNntp.fetchHeadNumber, wp_bind, wp_get]
      dsimp only
      split
      · exact rfl
      split
      · exact rfl
      exact refuses_requireReady hstate
  | statArticle mid =>
      change wp (NzbNntp.statArticle mid) (refuses NntpResponse w) w
      rw [NzbNntp.statArticle, wp_bind, wp_get]
      dsimp only
      split
      · exact rfl
      exact refuses_requireReady hstate
  | xoverLossless start stop format => exact refuses_map (refuses_requireReady hstate)
  | xoverLosslessBounded start stop format maxBytes =>
      change wp (NzbNntp.xoverLosslessBounded gz start stop format maxBytes) _ w
      rw [NzbNntp.xoverLosslessBounded]
      split
      · exact rfl
      · exact refuses_requireReady hstate
  | xpat header range patterns => exact refuses_map (refuses_requireReady hstate)
  | xpatBounded header range patterns maxBytes =>
      change wp (NzbNntp.xpatBounded gz header range patterns maxBytes) _ w
      rw [NzbNntp.xpatBounded]
      split
      · exact rfl
      · exact refuses_requireReady hstate
  | fetchBody mid =>
      change wp (NzbNntp.fetchBody gz mid) (refuses NntpResponse w) w
      rw [NzbNntp.fetchBody, wp_bind, wp_get]
      dsimp only
      split
      · exact refuses_bind (refuses_requireReady hstate)
      · exact refuses_requireReady hstate
  | fetchBodyPrefix mid maxBytes =>
      change wp (NzbNntp.fetchBodyPrefix mid maxBytes) (refuses BodyPrefixResponse w) w
      rw [NzbNntp.fetchBodyPrefix, wp_bind, wp_get]
      dsimp only
      split
      · exact rfl
      split
      · exact rfl
      split
      · exact rfl
      exact refuses_requireReady hstate
  | _ => exact refuses_requireReady hstate

end Refusal

end Call

/-! ### Runs -/

def runCalls {π : Type} [Peer π] (gz : GzDecoder) (calls : List Call) (w : World π) : World π :=
  calls.foldl (fun w c => (c.run gz w).state) w

/-- If the connection is `Ready`, it is at rest. -/
def Aligned (w : World ReplyServer) : Prop := InState .ready w → AtRest w

theorem aligned_of_not_ready {w : World ReplyServer} {s : ConnectionState} (h : InState s w)
    (hs : s ≠ .ready) : Aligned w :=
  fun hready => absurd (h.symm.trans hready) hs

theorem Fails.aligned {reads : Bool} {w₀ w : World ReplyServer} {e : NntpError}
    (h : Fails reads w₀ e w) : Aligned w := by
  cases e with
  | articleNotFound _ | noSuchGroup _ | noArticleSelected _ | unsupportedCommand _ =>
      exact fun _ => h
  | protocol _ =>
      rcases h with h | ⟨h, -⟩
      · exact aligned_of_not_ready h (by decide)
      · exact fun _ => h
  | _ => exact aligned_of_not_ready h (by decide)

theorem Call.wp_aligned_of_ending {gz : GzDecoder} {w : World ReplyServer} (c : Call)
    (h : wp (c.run gz) (c.ending w) w) : wp (c.run gz) (always Aligned) w := by
  have hbusy : ∀ w : World ReplyServer, InState .busy w → Aligned w :=
    fun _ h => aligned_of_not_ready h (by decide)
  cases c with
  | fetchBodyPrefix mid maxBytes =>
      refine wp_mono h ?_ (fun _ _ h => h.aligned) hbusy
      intro result w' h'
      change if result.complete then AtRest w' else Retired w' at h'
      split at h'
      · exact fun _ => h'
      · exact aligned_of_not_ready h'.1 (by decide)
  | _ => exact wp_mono h (fun _ _ h _ => h) (fun _ _ h => h.aligned) hbusy

/-- A call keeps an aligned connection aligned, however it ends. -/
theorem Call.step_aligned {gz : GzDecoder} {w : World ReplyServer} (c : Call)
    (hargs : c.OneLineArgs) (hw : Aligned w) : Aligned (c.run gz w).state := by
  refine wp_always_iff.mp ?_
  by_cases hstate : w.conn.state = .ready
  · exact c.wp_aligned_of_ending (c.wp_run hargs (hw hstate))
  · refine wp_mono (c.refuses_run hstate) (fun _ _ h => h.elim) ?_ (fun _ h => h.elim)
    rintro _ _ rfl
    exact hw

theorem runCalls_aligned {gz : GzDecoder} (calls : List Call)
    (hargs : ∀ c ∈ calls, c.OneLineArgs) {w : World ReplyServer} (hw : Aligned w) :
    Aligned (runCalls gz calls w) := by
  induction calls generalizing w with
  | nil => exact hw
  | cons c calls ih =>
      exact ih (fun c' h => hargs c' (by simp [h])) (c.step_aligned (hargs c (by simp)) hw)

/-- Nothing that the server has sent can still be read. -/
def Drained {π : Type} (w : World π) : Prop :=
  ∀ t, w.conn.transport = some t → t.available = []

theorem Owes.drained {t : Transport ReplyServer} (h : Owes [] t) : t.available = [] := by
  rcases h with hended | ⟨hunread, -⟩
  · simp only [Ended] at hended
    simp [Transport.available, hended]
  · unfold Transport.available
    split <;> simp [hunread]

/-- **Reply alignment.** In a run of calls on a connection that starts `Ready`
with nothing unread, a call that finds the connection `Ready` finds nothing left
to read. It returns at rest, and it fails at rest after a refusal and in `Error`
otherwise, but for a protocol error about its arguments or the text of its reply;
it is `Busy` where it was dropped. A call that finds another state fails and
touches nothing. -/
theorem calls_keep_replies_aligned (gz : GzDecoder) (w : World ReplyServer)
    (hready : w.conn.state = .ready)
    (hunread : ∀ t, w.conn.transport = some t → t.unread = [] ∧ Idle t.peer)
    (calls : List Call) (hcalls : ∀ c ∈ calls, c.OneLineArgs)
    (c : Call) (hargs : c.OneLineArgs) :
    let before := runCalls gz calls w
    (InState .ready before → Drained before ∧ wp (c.run gz) (c.ending before) before) ∧
    (¬ InState .ready before → wp (c.run gz) (Call.refuses c.Result before) before) := by
  have hstart : Aligned w := fun _ => ⟨hready, fun t ht => .inr (hunread t ht)⟩
  have halign : Aligned (runCalls gz calls w) := runCalls_aligned calls hcalls hstart
  refine ⟨fun h => ⟨fun t ht => ((halign h).2 t ht).drained, c.wp_run hargs (halign h)⟩, ?_⟩
  exact fun h => c.refuses_run h

def rawDecoder : GzDecoder := fun raw => (raw, none)

/-- A server that sends an article of one line first, and refuses what comes after it. -/
def oneArticleServer : ReplyServer where
  answer heard :=
    if heard.length = 1 then
      { status := ⟨Text.utf8 "220 article\r", lf_not_mem_articleStatus⟩
        block := [⟨Text.utf8 "text\r", by decide⟩]
        terminator := [dot, cr, lf]
        proper := by decide
        terminates := isTerminator_dotCrLf }
    else .bare (Text.utf8 "430 no such article\r") (by decide)

/-- A block is read, and the call behind it meets the reply to its own command. -/
theorem calls_keep_replies_aligned_after_article :
    let before := runCalls rawDecoder [.fetchArticle "a@b"] (.readyTo oneArticleServer)
    InState .ready before ∧ Drained before ∧
      wp ((Call.statArticle "c@d").run rawDecoder) ((Call.statArticle "c@d").ending before) before ∧
      ((Call.fetchArticle "a@b").run rawDecoder (.readyTo oneArticleServer)).result =
        some (.ok { code := 220, message := "article", data := some (Text.utf8 "text\r\n") }) ∧
      ((Call.statArticle "c@d").run rawDecoder before).result =
        some (.error (.articleNotFound "<c@d>")) := by
  have hready : (runCalls rawDecoder [.fetchArticle "a@b"]
      (.readyTo oneArticleServer)).conn.state = .ready := by decide +kernel
  have hcalls : ∀ c ∈ [Call.fetchArticle "a@b"], c.OneLineArgs := by
    intro c hc
    rw [List.mem_singleton.mp hc]
    exact (by decide : OneLine "a@b")
  obtain ⟨hdrained, hends⟩ := (calls_keep_replies_aligned rawDecoder (.readyTo oneArticleServer) rfl
    (by rintro t ht; cases ht; exact ⟨rfl, rfl, rfl⟩) [.fetchArticle "a@b"] hcalls
    (.statArticle "c@d") (by decide : OneLine "c@d")).1 hready
  refine ⟨hready, hdrained, hends, ?_, ?_⟩
  · change (fetchArticle rawDecoder "a@b" _).result = some (.ok _)
    decide +kernel
  · change (statArticle "c@d" _).result = some (.error _)
    decide +kernel

def unavailableServer : ReplyServer where
  answer _ := .bare (Text.utf8 "502 Service unavailable\r") (by decide)

/-- Some calls that run to completion do not end in `Ready`. -/
theorem not_every_call_ends_ready :
    ¬ ∀ (gz : GzDecoder) (w : World ReplyServer) (c : Call), w.conn.state = .ready →
      (∀ t, w.conn.transport = some t → t.unread = [] ∧ Idle t.peer) → c.OneLineArgs →
      (c.run gz w).Returned → (c.run gz w).state.conn.state = .ready := by
  intro h
  have hend := h rawDecoder (.readyTo unavailableServer) (.fetchArticle "a@b") rfl
    (by rintro t ht; cases ht; exact ⟨rfl, rfl, rfl⟩) (by decide : OneLine "a@b") trivial
  exact absurd hend (by decide)

end NzbNntp
