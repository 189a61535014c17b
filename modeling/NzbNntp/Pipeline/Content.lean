import NzbNntp.Pipeline.History

/-!
The content commands. Every list of capabilities that a `connect` may end with enables
all four of them, and nothing disables one later: the branches for a server that lacks
one are never taken.
-/

namespace NzbNntp

open Interruptible

variable {π : Type}

/-- All four content commands are enabled. -/
def ContentEnabled (w : World π) : Prop := w.conn.capabilities.HasContent

instance : OfSettings (ContentEnabled : World π → Prop) where
  readUntilLf _ _ _ h := h
  flush _ _ _ h := h
  lineScratch _ _ h := h
  bodyPool _ _ h := h
  capabilities _ _ hcaps _ := hcaps
  setState _ _ h := h
  opened _ _ h := h
  closed _ h := h
  awaited _ h := h

variable [Peer π] {config : ServerConfig} {dial : Dial π} {gz : GzDecoder} {w : World π}

/-! ### What `connect` ends with -/

omit [Peer π] in
theorem returns_true {α : Type} (x : Nntp π α) : wp x (returns fun _ => True) w := by
  unfold wp
  cases x w <;> trivial

/-- Whatever the reply, the capabilities come from the list or are the defaults. -/
theorem queryCapabilities_content : wp (queryCapabilities : Nntp π Unit) (returns ContentEnabled) w := by
  refine returns_seq (returns_true _) fun _ _ _ => returns_seq (returns_true _) fun _ _ _ =>
    returns_seq (returns_true _) fun resp w₁ _ => ?_
  split
  · exact returns_seq (returns_true _) fun body w₂ _ => hasContent_assumeContentCommands body
  · exact NntpCapabilities.hasContent_defaultAssumed

theorem probeCapabilities_content : wp (probeCapabilities : Nntp π Unit) (returns ContentEnabled) w := by
  rw [probeCapabilities, wp_bind, wp_attempt]
  refine wp_mono (queryCapabilities_content (w := w)) (fun _ _ h => h) (fun _ _ _ => ?_) fun _ h => h
  exact NntpCapabilities.hasContent_defaultAssumed

theorem keeps_compressIfConfigured :
    Preserves (ContentEnabled : World π → Prop) (compressIfConfigured config) := by
  rw [compressIfConfigured]
  split
  · exact preserves_bind (preserves_attempt (preserves_negotiateCompression (admits_of_ioStable _)
      (admits_of_ioStable _) fun _ h => h)) fun _ => preserves_pure _
  · exact preserves_pure _

theorem connect_content : wp (connect config dial) (returns ContentEnabled) w := by
  refine wp_connect ?_ fun _ _ _ => trivial
  refine returns_seq (returns_true _) fun _ w₁ _ =>
    returns_seq probeCapabilities_content fun _ w₂ h₂ =>
      returns_seq (returns_of_preserves (preserves_switchToReaderMode (admits_of_ioStable _)) h₂)
        fun _ w₃ h₃ => returns_of_preserves keeps_compressIfConfigured h₃

/-! ### What no operation takes away -/

/-- A `connect` that fails has left the capabilities alone, or replaced them. -/
theorem keeps_connect : Preserves (ContentEnabled : World π → Prop) (connect config dial) := by
  intro w h
  refine wp_connect ?_ fun _ _ h => h
  rw [connectInner_eq]
  exact preserves_bind keeps_beforeCompression (fun _ => keeps_compressIfConfigured) w h

omit [Peer π] in
theorem keeps_retireUnlessComplete (result : BodyPrefixResponse) :
    Preserves (ContentEnabled : World π → Prop) (retireUnlessComplete result) := by
  rw [retireUnlessComplete]
  split
  · exact preserves_returnReady _
  · exact preserves_bind (preserves_modify fun _ h => h) fun _ =>
      preserves_bind (preserves_setState _) fun _ => preserves_pure _

theorem History.content (ops : History π) (h : ContentEnabled w) :
    ContentEnabled (History.run gz ops w) := by
  induction ops generalizing w with
  | nil => exact h
  | cons op ops ih =>
      obtain ⟨op, events⟩ := op
      have hnow : ContentEnabled (w.await events) := h
      apply ih
      exact Op.keeps op (fun _ _ _ => keeps_connect) (fun _ => hnow)
        (fun c => c.keeps_run fun _ _ _ => keeps_retireUnlessComplete) hnow

/-! ### The branches for a server without a command -/

/-- `stat_article` past its test of the capabilities. -/
def statArticleDirect (messageId : String) : Nntp π NntpResponse := do
  requireReady "STAT"
  let mid := normalizeMessageId messageId
  let resp ← request s!"STAT {mid}"
  match resp.code with
  | 223 => returnReady resp
  | 430 => failIn .ready (.articleNotFound mid)
  | 403 => failIn .error (.permissionDenied resp.message)
  | 502 => failIn .error (.serviceUnavailable resp.message)
  | 480 => failIn .error (.authRequired resp.message)
  | 481 | 482 => failIn .error (.auth s!"STAT rejected ({resp.code}): {resp.message}")
  | _ => failIn .error (.protocol s!"Unexpected STAT response {resp.code}: {resp.message}")

/-- `fetch_head_number` past its test of the capabilities. -/
def fetchHeadNumberDirect (gz : GzDecoder) (articleNumber maxHeaderBytes : Nat) :
    Nntp π NntpResponse :=
  if articleNumber = 0 ∨ maxHeaderBytes = 0 ∨ maxHeaderBytes > 64 * 1024 then
    Comp.fail (.protocol "HEAD request bound is invalid")
  else do
    requireReady "HEAD"
    let status ← request s!"HEAD {articleNumber}"
    match status.code with
    | 221 => do
        let data ← orError (readMultilineBodyMaybeDecompressBounded gz maxHeaderBytes)
        returnReady { code := status.code, message := status.message, data := some data }
    | 423 => failIn .ready (.articleNotFound s!"{articleNumber}")
    | 411 => failIn .ready (.noSuchGroup status.message)
    | 412 | 420 => failIn .ready (.noArticleSelected status.message)
    | 403 => failIn .error (.permissionDenied status.message)
    | 480 => failIn .error (.authRequired status.message)
    | 481 | 482 => failIn .error (.auth s!"HEAD rejected ({status.code}): {status.message}")
    | 502 => failIn .error (.serviceUnavailable status.message)
    | _ =>
        failIn .error (.protocol s!"Unexpected HEAD response {status.code}: {status.message}")

/-- `fetch_body_prefix` without its test of the capabilities. -/
def fetchBodyPrefixDirect (messageId : String) (maxBytes : Nat) : Nntp π BodyPrefixResponse := do
  let w ← Comp.get
  if maxBytes = 0 ∨ maxBytes > 256 * 1024 then
    Comp.fail (.protocol "BODY prefix request bound is invalid")
  else if w.conn.compressEnabled then
    Comp.fail (.unsupportedCommand "BODY prefix requires an uncompressed observation connection")
  else do
    requireReady "BODY prefix"
    let mid := normalizeMessageId messageId
    let status ← request s!"BODY {mid}"
    match status.code with
    | 222 => do
        let result ← orError (readMultilineBodyPrefix maxBytes)
        retireUnlessComplete result
    | 430 => failIn .ready (.articleNotFound mid)
    | 412 | 420 | 423 => failIn .ready (.noArticleSelected status.message)
    | 403 => failIn .error (.permissionDenied status.message)
    | 480 => failIn .error (.authRequired status.message)
    | 481 | 482 =>
        failIn .error (.auth s!"BODY prefix rejected ({status.code}): {status.message}")
    | 500 | 501 => failIn .ready (.unsupportedCommand status.message)
    | 502 => failIn .error (.serviceUnavailable status.message)
    | _ =>
        failIn .error
          (.protocol s!"Unexpected BODY prefix response {status.code}: {status.message}")

/-- The four operations that test the capabilities do what they do past the test. -/
structure Ungated (gz : GzDecoder) (w : World π) : Prop where
  fetchBody : ∀ mid, fetchBody gz mid w = fetchBodyDirect gz mid w
  statArticle : ∀ mid, statArticle mid w = statArticleDirect mid w
  fetchHeadNumber : ∀ articleNumber maxHeaderBytes,
    fetchHeadNumber gz articleNumber maxHeaderBytes w =
      fetchHeadNumberDirect gz articleNumber maxHeaderBytes w
  fetchBodyPrefix : ∀ mid maxBytes, fetchBodyPrefix mid maxBytes w = fetchBodyPrefixDirect mid maxBytes w

theorem ContentEnabled.ungated (h : ContentEnabled w) (gz : GzDecoder) : Ungated gz w := by
  constructor
  · intro mid
    show (if !w.conn.capabilities.haveBody && w.conn.capabilities.haveArticle then _ else _ :
      Nntp π NntpResponse) w = _
    rw [if_neg (by simp [h.body])]
  · intro mid
    show (if !w.conn.capabilities.haveStat then _ else _ : Nntp π NntpResponse) w = _
    rw [if_neg (by rw [h.stat]; decide)]
    rfl
  · intro articleNumber maxHeaderBytes
    show (if !w.conn.capabilities.haveHead then _ else _ : Nntp π NntpResponse) w = _
    rw [if_neg (by rw [h.head]; decide)]
    rfl
  · intro mid maxBytes
    show (if _ then _ else if _ then _ else if !w.conn.capabilities.haveBody then _ else _ :
      Nntp π BodyPrefixResponse) w = _
    rw [if_neg (show ¬ (!w.conn.capabilities.haveBody) = true by rw [h.body]; decide)]
    rfl

/-- **Every connected session has the content commands.** Whatever the configuration
and the server, a `connect` that returns leaves all four of them enabled, and so does
everything that is done with the connection after it: the branches for a server that
lacks one are never taken. -/
theorem connect_enables_content (gz : GzDecoder) (config : ServerConfig) (dial : Dial π)
    (w w' : World π) (hconnect : connect config dial w = .ok () w') :
    w'.conn.capabilities.HasContent ∧
      ∀ (ops : History π) (events : List IoEvent),
        ((History.run gz ops w').await events).conn.capabilities.HasContent ∧
          Ungated gz ((History.run gz ops w').await events) := by
  have hcontent : ContentEnabled w' := wp_ok connect_content hconnect
  refine ⟨hcontent, fun ops events => ?_⟩
  have hlater : ContentEnabled ((History.run gz ops w').await events) := ops.content hcontent
  exact ⟨hlater, hlater.ungated gz⟩

def transitServer : ReplyServer where
  answer _ :=
    { status := ⟨Text.utf8 "101 Capability list:\r", lf_not_mem_capabilityStatus⟩
      block := [⟨Text.utf8 "VERSION 2\r", by decide⟩]
      terminator := [dot, cr, lf]
      proper := by decide
      terminates := isTerminator_dotCrLf }

def dialTransit : Dial ReplyServer := { dialGzip with peer := transitServer }

theorem connect_enables_content_on_transit :
    ∃ w' : World ReplyServer, w'.conn.capabilities.reader = false ∧
      w'.conn.capabilities.HasContent ∧
      Ungated rawDecoder ((History.run rawDecoder [(.quit, [])] w').await []) := by
  have hcontent := connect_enables_content rawDecoder { ssl := false } dialTransit
    { conn := .new "news" } _ rfl
  exact ⟨_, rfl, hcontent.1, (hcontent.2 [(.quit, [])] []).2⟩

end NzbNntp
