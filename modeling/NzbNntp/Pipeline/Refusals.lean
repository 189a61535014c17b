import NzbNntp.Pipeline.Agreement
import NzbNntp.Pipeline.Stat

/-!
What the operations on an article make of a status line that refuses it. `BODY` and
`STAT` are there twice: `fetch_body` falls back to `fetch_article`, which has a table of
its own, `fetch_body_prefix` has another one for `BODY`, and the STAT pipeline another
one for `stat_article`. The tables are set side by side here, code by code.
-/

namespace NzbNntp

open Interruptible

/-! ### The tables -/

/-- What an operation makes of a refusal: the error, and the state it leaves. -/
abbrev Refusal := NntpError × ConnectionState

/-- Two refusals that a caller cannot tell apart but by their texts. -/
def Refusal.Alike (a b : Refusal) : Prop := a.1.SameVariant b.1 ∧ a.2 = b.2

def bodyRefusal (mid : String) (status : NntpResponse) : Refusal :=
  match status.code with
  | 430 => (.articleNotFound mid, .ready)
  | 412 | 420 | 423 => (.noArticleSelected status.message, .ready)
  | 480 => (.authRequired status.message, .error)
  | 481 | 482 => (.auth s!"BODY rejected ({status.code}): {status.message}", .error)
  | 502 => (.serviceUnavailable status.message, .error)
  | _ => (.protocol s!"Unexpected BODY response {status.code}: {status.message}", .error)

def prefixRefusal (mid : String) (status : NntpResponse) : Refusal :=
  match status.code with
  | 430 => (.articleNotFound mid, .ready)
  | 412 | 420 | 423 => (.noArticleSelected status.message, .ready)
  | 403 => (.permissionDenied status.message, .error)
  | 480 => (.authRequired status.message, .error)
  | 481 | 482 => (.auth s!"BODY prefix rejected ({status.code}): {status.message}", .error)
  | 500 | 501 => (.unsupportedCommand status.message, .ready)
  | 502 => (.serviceUnavailable status.message, .error)
  | _ => (.protocol s!"Unexpected BODY prefix response {status.code}: {status.message}", .error)

def articleRefusal (mid : String) (status : NntpResponse) : Refusal :=
  match status.code with
  | 430 => (.articleNotFound mid, .ready)
  | 411 => (.noSuchGroup status.message, .ready)
  | 412 | 420 | 423 => (.noArticleSelected status.message, .ready)
  | 403 => (.permissionDenied status.message, .error)
  | 480 => (.authRequired status.message, .error)
  | 481 | 482 => (.auth s!"ARTICLE rejected ({status.code}): {status.message}", .error)
  | 502 => (.serviceUnavailable status.message, .error)
  | _ => (unexpectedArticleResponse status.code status.message, .error)

def statRefusal (mid : String) (status : NntpResponse) : Refusal :=
  match status.code with
  | 430 => (.articleNotFound mid, .ready)
  | 403 => (.permissionDenied status.message, .error)
  | 502 => (.serviceUnavailable status.message, .error)
  | 480 => (.authRequired status.message, .error)
  | 481 | 482 => (.auth s!"STAT rejected ({status.code}): {status.message}", .error)
  | _ => (.protocol s!"Unexpected STAT response {status.code}: {status.message}", .error)

/-- The table of `StatPipeline::execute`, for what it does not report as missing. -/
def checkRefusal (status : NntpResponse) : Refusal :=
  match status.code with
  | 480 => (.authRequired status.message, .error)
  | 481 | 482 => (.auth s!"STAT rejected ({status.code}): {status.message}", .error)
  | 502 => (.serviceUnavailable status.message, .error)
  | _ => (.protocol s!"Unexpected STAT response {status.code}: {status.message}", .error)

section Comparison

variable {mid mid' : String} {status : NntpResponse}

/-- `BODY` has no entry for a denied permission, for a missing group and for the end of
the session. -/
theorem bodyRefusal_alike_article_iff :
    (bodyRefusal mid status).Alike (articleRefusal mid' status) ↔
      status.code ≠ 403 ∧ status.code ≠ 411 ∧
        expiredSession status.code status.message = false := by
  unfold bodyRefusal
  split
  case h_9 =>
    unfold articleRefusal
    split
    -- a denied permission, a missing group, and what is unexpected here as well
    case h_2 hcode => exact iff_of_false (by rintro ⟨-, ⟨⟩⟩) fun h => h.2.1 hcode
    case h_6 hcode => exact iff_of_false (by rintro ⟨⟨⟩, -⟩) fun h => h.1 hcode
    case h_11 h411 _ _ _ h403 _ _ _ _ =>
      rw [unexpectedArticleResponse]
      split
      · rename_i hexpired
        exact iff_of_false (by rintro ⟨⟨⟩, -⟩) fun h => by simp [hexpired] at h
      · rename_i hexpired
        exact iff_of_true ⟨rfl, rfl⟩ ⟨h403, h411, by simpa using hexpired⟩
    all_goals contradiction
  all_goals
    rename_i hcode
    simp only [articleRefusal, hcode]
    exact iff_of_true ⟨rfl, rfl⟩ ⟨by decide, by decide, rfl⟩

/-- The refusals that both tables for `BODY` are to treat alike. -/
def sharedRefusals : List Nat := [403, 430, 412, 420, 423, 480, 481, 482, 502]

theorem bodyRefusal_alike_prefix_iff (h : status.code ∈ sharedRefusals) :
    (bodyRefusal mid status).Alike (prefixRefusal mid' status) ↔ status.code ≠ 403 := by
  unfold bodyRefusal
  split
  case h_9 =>
    unfold prefixRefusal
    split
    case h_5 hcode => exact iff_of_false (by rintro ⟨⟨⟩, -⟩) fun h => h hcode
    case h_9 hcode | h_10 hcode =>
      rw [hcode] at h
      exact absurd h (by decide)
    case h_12 h403 _ _ _ _ _ _ => exact iff_of_true ⟨rfl, rfl⟩ h403
    all_goals contradiction
  all_goals
    rename_i hcode
    simp only [prefixRefusal, hcode]
    exact iff_of_true ⟨rfl, rfl⟩ (by decide)

/-- The STAT pipeline has no entry for a denied permission. -/
theorem checkRefusal_alike_stat_iff (h : status.code ≠ 430) :
    (checkRefusal status).Alike (statRefusal mid status) ↔ status.code ≠ 403 := by
  unfold checkRefusal
  split
  case h_5 =>
    unfold statRefusal
    split
    case h_2 hcode => exact iff_of_false (fun h => nomatch h.1) fun h => h hcode
    case h_7 h403 _ _ _ _ => exact iff_of_true ⟨rfl, rfl⟩ h403
    all_goals contradiction
  all_goals
    rename_i hcode
    simp only [statRefusal, hcode]
    exact iff_of_true ⟨rfl, rfl⟩ (by decide)

end Comparison

/-! ### The operations -/

section Operations

variable {π : Type} [Peer π] {gz : GzDecoder} {mid : String} {w w₁ : World π}
  {status : NntpResponse}

def refusedAs {α : Type} (w₁ : World π) (refusal : Refusal) : Post NntpError (World π) α :=
  ⟨fun _ _ => False, fun e w' => e = refusal.1 ∧ w' = w₁.setState refusal.2, fun _ => False⟩

theorem fetchBodyDirect_refuses (hready : w.conn.state = .ready)
    (h : Queried s!"BODY {normalizeMessageId mid}" w status w₁) (hcode : status.code ≠ 222) :
    wp (fetchBodyDirect gz mid) (refusedAs w₁ (bodyRefusal (normalizeMessageId mid) status)) w := by
  rw [fetchBodyDirect, wp_bind_of_ok (requireReady_of_ready hready)]
  dsimp only
  rw [wp_bind_of_ok (request_of_ok (ask_eq_ok_iff.mpr h))]
  split
  case h_1 => contradiction
  case h_10 =>
    simp only [bodyRefusal]
    exact ⟨by simp [*], by simp [*]; rfl⟩
  all_goals
    rename_i hstatus
    simp only [bodyRefusal, hstatus]
    exact ⟨rfl, rfl⟩

theorem fetchArticle_refusal (hready : w.conn.state = .ready)
    (h : Queried s!"ARTICLE {normalizeMessageId mid}" w status w₁) (hcode : status.code ≠ 220) :
    wp (fetchArticle gz mid) (refusedAs w₁ (articleRefusal (normalizeMessageId mid) status)) w := by
  rw [fetchArticle, wp_bind_of_ok (requireReady_of_ready hready)]
  dsimp only
  rw [wp_bind_of_ok (request_of_ok (ask_eq_ok_iff.mpr h))]
  split
  case h_1 => contradiction
  case h_12 =>
    simp only [articleRefusal]
    exact ⟨by simp [*], by simp [*]; rfl⟩
  all_goals
    rename_i hstatus
    simp only [articleRefusal, hstatus]
    exact ⟨rfl, rfl⟩

/-- `fetch_body`, where it falls back. -/
theorem fetchBody_falls_back (hready : w.conn.state = .ready)
    (hbody : w.conn.capabilities.haveBody = false)
    (harticle : w.conn.capabilities.haveArticle = true)
    (h : Queried s!"ARTICLE {normalizeMessageId mid}" w status w₁) (hcode : status.code ≠ 220) :
    wp (fetchBody gz mid) (refusedAs w₁ (articleRefusal (normalizeMessageId mid) status)) w := by
  rw [fetchBody, wp_bind, wp_get]
  dsimp only
  rw [hbody, harticle, if_pos (by decide)]
  exact wp_seq (fetchArticle_refusal hready h hcode) (fun _ _ h => h.elim) (fun _ _ h => h)
    (fun _ h => h)

/-- `fetch_body`, where it does not. -/
theorem fetchBody_refuses (hready : w.conn.state = .ready)
    (hbody : w.conn.capabilities.haveBody = true)
    (h : Queried s!"BODY {normalizeMessageId mid}" w status w₁) (hcode : status.code ≠ 222) :
    wp (fetchBody gz mid) (refusedAs w₁ (bodyRefusal (normalizeMessageId mid) status)) w := by
  rw [fetchBody, wp_bind, wp_get]
  dsimp only
  rw [hbody, if_neg (by simp)]
  exact fetchBodyDirect_refuses hready h hcode

theorem fetchBodyPrefix_refuses {maxBytes : Nat} (hready : w.conn.state = .ready)
    (hbody : w.conn.capabilities.haveBody = true) (hplain : w.conn.compressEnabled = false)
    (hbound : 0 < maxBytes ∧ maxBytes ≤ 256 * 1024)
    (h : Queried s!"BODY {normalizeMessageId mid}" w status w₁) (hcode : status.code ≠ 222) :
    wp (fetchBodyPrefix mid maxBytes)
      (refusedAs w₁ (prefixRefusal (normalizeMessageId mid) status)) w := by
  rw [fetchBodyPrefix, wp_bind, wp_get]
  dsimp only
  rw [if_neg (by omega), hplain, if_neg Bool.false_ne_true, hbody, if_neg (by simp),
    wp_bind_of_ok (requireReady_of_ready hready),
    wp_bind_of_ok (request_of_ok (ask_eq_ok_iff.mpr h))]
  split
  case h_1 => contradiction
  case h_13 =>
    simp only [prefixRefusal]
    exact ⟨by simp [*], by simp [*]; rfl⟩
  all_goals
    rename_i hstatus
    simp only [prefixRefusal, hstatus]
    exact ⟨rfl, rfl⟩

theorem statArticle_refuses (hready : w.conn.state = .ready)
    (hstat : w.conn.capabilities.haveStat = true)
    (h : Queried s!"STAT {normalizeMessageId mid}" w status w₁) (hcode : status.code ≠ 223) :
    wp (statArticle mid) (refusedAs w₁ (statRefusal (normalizeMessageId mid) status)) w := by
  rw [statArticle, wp_bind, wp_get]
  dsimp only
  rw [hstat, if_neg (by simp), wp_bind_of_ok (requireReady_of_ready hready),
    wp_bind_of_ok (request_of_ok (ask_eq_ok_iff.mpr h))]
  split
  case h_1 => contradiction
  case h_8 =>
    simp only [statRefusal]
    exact ⟨by simp [*], by simp [*]; rfl⟩
  all_goals
    rename_i hstatus
    simp only [statRefusal, hstatus]
    exact ⟨rfl, rfl⟩

/-- `execute` with one message-id, which is reported as missing or not reported. -/
theorem execute_refuses (h : Queried s!"STAT {normalizeMessageId mid}" w status w₁)
    (hcode : status.code ≠ 223) :
    wp execute
      ⟨fun results s => status.code = 430 ∧ results = [⟨mid, false⟩] ∧
          s.2 = w₁.setState .ready,
        fun e s => status.code ≠ 430 ∧ e = (checkRefusal status).1 ∧
          s.2 = w₁.setState (checkRefusal status).2,
        fun _ => False⟩ (⟨[mid]⟩, w) := by
  have hask : ask s!"STAT {normalizeMessageId mid}" (w.setState .busy) =
      .ok status (w₁.setState .busy) := by
    rw [ask_setState, ask_eq_ok_iff.mpr h]
    rfl
  obtain ⟨_, w₂, hsend, hread⟩ := Comp.bind_eq_ok_iff.mp hask
  obtain ⟨_, w₃, hwrite, hflush⟩ := Comp.bind_eq_ok_iff.mp hsend
  have hsends : statSends [mid] (w.setState .busy) = .ok () w₃ := by
    rw [statSends, Comp.bind_of_ok (orError_of_ok hwrite)]
    rfl
  have hbatch : wp (statReads [mid] [])
      ⟨fun results w' => status.code = 430 ∧ results = [⟨mid, false⟩] ∧ w' = w₁.setState .busy,
        fun e w' => status.code ≠ 430 ∧ e = (checkRefusal status).1 ∧
          w' = w₁.setState (checkRefusal status).2,
        fun _ => False⟩ w₂ := by
    rw [statReads, wp_bind_of_ok (orError_of_ok hread)]
    split
    case h_1 => contradiction
    case h_2 h430 => exact ⟨h430, rfl, rfl⟩
    case h_7 h430 _ _ _ _ =>
      have htable : checkRefusal status =
          (.protocol s!"Unexpected STAT response {status.code}: {status.message}", .error) := by
        simp [checkRefusal, *]
      rw [htable]
      exact ⟨h430, rfl, rfl⟩
    all_goals
      rename_i hstatus
      simp only [checkRefusal, hstatus]
      exact ⟨by decide, rfl, rfl⟩
  have hbusy : setState .busy w = .ok () (w.setState .busy) := rfl
  show wp ((statBatches [[mid]] []).onSnd) _ (_, w)
  rw [wp_onSnd, statBatches, wp_bind_of_ok hbusy, wp_bind_of_ok hsends,
    wp_bind_of_ok (orError_of_ok hflush)]
  refine wp_seq hbatch ?_ (fun _ _ h => h) (fun _ h => h)
  rintro _ _ ⟨h430, rfl, rfl⟩
  exact ⟨h430, rfl, rfl⟩

end Operations

/-! ### The copies side by side -/

section Alike

variable {π : Type} {α β : Type}

/-- Both calls fail, and a caller cannot tell which of them it has made. -/
def FailAlike (o : Outcome NntpError (World π) α) (o' : Outcome NntpError (World π) β) : Prop :=
  ∃ e w e' w', o = .err e w ∧ o' = .err e' w' ∧
    Refusal.Alike (e, w.conn.state) (e', w'.conn.state)

/-- The check of one message-id reports it as missing where `stat_article` does not find
it, or both fail alike. -/
def CheckAlike (mid : String) (o : Outcome NntpError (StatPipeline × World π) (List StatResult))
    (o' : Outcome NntpError (World π) NntpResponse) : Prop :=
  (∃ s w', o = .ok [⟨mid, false⟩] s ∧
      o' = .err (.articleNotFound (normalizeMessageId mid)) w' ∧
      s.2.conn.state = w'.conn.state) ∨
    ∃ e s e' w', o = .err e s ∧ o' = .err e' w' ∧
      Refusal.Alike (e, s.2.conn.state) (e', w'.conn.state)

theorem failAlike_iff {x : Nntp π α} {y : Nntp π β} {w w' w₁ w₁' : World π} {r r' : Refusal}
    (h : wp x (refusedAs w₁ r) w) (h' : wp y (refusedAs w₁' r') w') :
    FailAlike (x w) (y w') ↔ r.Alike r' := by
  obtain ⟨e, v, hrun, rfl, rfl⟩ := exists_err_of_wp h
  obtain ⟨e', v', hrun', rfl, rfl⟩ := exists_err_of_wp h'
  rw [hrun, hrun']
  constructor
  · rintro ⟨_, _, _, _, h, h', halike⟩
    cases h
    cases h'
    exact halike
  · exact fun halike => ⟨_, _, _, _, rfl, rfl, halike⟩

variable [Peer π]

theorem checkAlike_iff {mid : String} {status : NntpResponse} {check stat w₁ w₁' : World π}
    (h : Queried s!"STAT {normalizeMessageId mid}" check status w₁)
    (h' : wp (statArticle mid) (refusedAs w₁' (statRefusal (normalizeMessageId mid) status)) stat)
    (hcode : status.code ≠ 223) :
    CheckAlike mid (execute (⟨[mid]⟩, check)) (statArticle mid stat) ↔ status.code ≠ 403 := by
  have hexecute := execute_refuses h hcode
  obtain ⟨e', v', hrun', rfl, rfl⟩ := exists_err_of_wp h'
  rw [hrun']
  unfold wp at hexecute
  cases hrun : execute (⟨[mid]⟩, check) with
  | ok results s =>
      rw [hrun] at hexecute
      obtain ⟨h430, rfl, hs⟩ := hexecute
      have htable : statRefusal (normalizeMessageId mid) status =
          (.articleNotFound (normalizeMessageId mid), .ready) := by
        simp [statRefusal, h430]
      rw [htable]
      exact iff_of_true (.inl ⟨s, _, rfl, rfl, by rw [hs]; rfl⟩) (by rw [h430]; decide)
  | err e s =>
      rw [hrun] at hexecute
      obtain ⟨h430, rfl, hs⟩ := hexecute
      rw [← checkRefusal_alike_stat_iff h430]
      constructor
      · rintro (⟨_, _, h, -⟩ | ⟨_, _, _, _, h, h', halike⟩)
        · cases h
        · cases h
          cases h'
          rw [hs] at halike
          exact halike
      · intro halike
        refine .inr ⟨_, s, _, _, rfl, rfl, ?_⟩
        rw [hs]
        exact halike
  | dropped s =>
      rw [hrun] at hexecute
      exact hexecute.elim

def HasReply (cmd : String) (status : NntpResponse) (w : World π) : Prop :=
  w.conn.state = .ready ∧ ∃ w₁, Queried cmd w status w₁

theorem fetchBody_alike_iff (gz : GzDecoder) {mid : String} {status : NntpResponse}
    {body article : World π} (hbody : HasReply s!"BODY {normalizeMessageId mid}" status body)
    (hbody' : body.conn.capabilities.haveBody = true)
    (harticle : HasReply s!"ARTICLE {normalizeMessageId mid}" status article)
    (harticle' : article.conn.capabilities.haveBody = false ∧
      article.conn.capabilities.haveArticle = true)
    (h220 : status.code ≠ 220) (h222 : status.code ≠ 222) :
    FailAlike (fetchBody gz mid body) (fetchBody gz mid article) ↔
      status.code ≠ 403 ∧ status.code ≠ 411 ∧
        expiredSession status.code status.message = false := by
  obtain ⟨hready, w₁, h⟩ := hbody
  obtain ⟨hready', w₁', h'⟩ := harticle
  exact (failAlike_iff (fetchBody_refuses hready hbody' h h222)
    (fetchBody_falls_back hready' harticle'.1 harticle'.2 h' h220)).trans
      bodyRefusal_alike_article_iff

/-- **The copies of BODY and STAT classify refusals alike**, but for these: a denied
permission, which only `fetch_article`, `fetch_body_prefix` and `stat_article` know, and a
missing group and the end of the session, which only `fetch_article` knows. -/
theorem refusals_alike_iff (gz : GzDecoder) (mid : String) (maxBytes : Nat)
    (status : NntpResponse) {body article bodyPrefix stat check : World π}
    (hbody : HasReply s!"BODY {normalizeMessageId mid}" status body)
    (hbody' : body.conn.capabilities.haveBody = true)
    (harticle : HasReply s!"ARTICLE {normalizeMessageId mid}" status article)
    (harticle' : article.conn.capabilities.haveBody = false ∧
      article.conn.capabilities.haveArticle = true)
    (hbegin : HasReply s!"BODY {normalizeMessageId mid}" status bodyPrefix)
    (hbegin' : bodyPrefix.conn.capabilities.haveBody = true ∧
      bodyPrefix.conn.compressEnabled = false)
    (hbound : 0 < maxBytes ∧ maxBytes ≤ 256 * 1024)
    (hstat : HasReply s!"STAT {normalizeMessageId mid}" status stat)
    (hstat' : stat.conn.capabilities.haveStat = true)
    (hcheck : HasReply s!"STAT {normalizeMessageId mid}" status check) :
    (status.code ≠ 220 → status.code ≠ 222 →
        (FailAlike (fetchBody gz mid body) (fetchBody gz mid article) ↔
          status.code ≠ 403 ∧ status.code ≠ 411 ∧
            expiredSession status.code status.message = false)) ∧
      (status.code ∈ sharedRefusals →
        (FailAlike (fetchBody gz mid body) (fetchBodyPrefix mid maxBytes bodyPrefix) ↔
          status.code ≠ 403)) ∧
      (status.code ≠ 223 →
        (CheckAlike mid (execute (⟨[mid]⟩, check)) (statArticle mid stat) ↔
          status.code ≠ 403)) := by
  obtain ⟨hready₁, w₁, h₁⟩ := id hbody
  obtain ⟨hready₃, w₃, h₃⟩ := hbegin
  obtain ⟨hready₄, w₄, h₄⟩ := hstat
  obtain ⟨-, w₅, h₅⟩ := hcheck
  refine ⟨fun h220 h222 => ?_, fun hcode => ?_, fun h223 => ?_⟩
  · exact fetchBody_alike_iff gz hbody hbody' harticle harticle' h220 h222
  · have h222 : status.code ≠ 222 := by
      intro h222
      rw [h222] at hcode
      exact absurd hcode (by decide)
    exact (failAlike_iff (fetchBody_refuses hready₁ hbody' h₁ h222)
      (fetchBodyPrefix_refuses hready₃ hbegin'.1 hbegin'.2 hbound h₃ h222)).trans
        (bodyRefusal_alike_prefix_iff hcode)
  · exact checkAlike_iff h₅ (statArticle_refuses hready₄ hstat' h₄ h223) h223

end Alike

theorem refusals_alike_iff_on_missing :
    FailAlike (fetchBody rawDecoder "<a@b>" (.readyTo emptyServer))
        (fetchBody rawDecoder "<a@b>" (.withoutBody emptyServer)) ∧
      FailAlike (fetchBody rawDecoder "<a@b>" (.readyTo emptyServer))
        (fetchBodyPrefix "<a@b>" 1024 (.readyTo emptyServer)) ∧
      CheckAlike "<a@b>" (execute (⟨["<a@b>"]⟩, .readyTo emptyServer))
        (statArticle "<a@b>" (.readyTo emptyServer)) := by
  let status : NntpResponse := { code := 430, message := "no" }
  have hbody : let mid := "<a@b>"
      HasReply s!"BODY {normalizeMessageId mid}" status (.readyTo emptyServer) :=
    ⟨rfl, _, ask_eq_ok_iff.mp rfl⟩
  have harticle : let mid := "<a@b>"
      HasReply s!"ARTICLE {normalizeMessageId mid}" status
      (.withoutBody emptyServer) := ⟨rfl, _, ask_eq_ok_iff.mp rfl⟩
  have hstat : let mid := "<a@b>"
      HasReply s!"STAT {normalizeMessageId mid}" status (.readyTo emptyServer) :=
    ⟨rfl, _, ask_eq_ok_iff.mp rfl⟩
  obtain ⟨hfallback, hbegin, hcheck⟩ := refusals_alike_iff rawDecoder "<a@b>" 1024 status hbody rfl
    harticle ⟨rfl, rfl⟩ hbody ⟨rfl, rfl⟩ (by decide) hstat rfl hstat
  exact ⟨(hfallback (by decide) (by decide)).mpr ⟨by decide, by decide, rfl⟩,
    (hbegin (by decide)).mpr (by decide), (hcheck (by decide)).mpr (by decide)⟩

def denyingServer : ReplyServer where
  answer _ := .bare (Text.utf8 "403 denied\r") (by decide)

/-- A denied permission is a protocol error to one who issues `BODY`, and a denied
permission to one who falls back to `ARTICLE`. -/
theorem refusals_can_differ :
    ¬ ∀ (gz : GzDecoder) (mid : String) (status : NntpResponse) (body article : World ReplyServer),
      HasReply s!"BODY {normalizeMessageId mid}" status body →
      body.conn.capabilities.haveBody = true →
      HasReply s!"ARTICLE {normalizeMessageId mid}" status article →
      article.conn.capabilities.haveBody = false → article.conn.capabilities.haveArticle = true →
      status.code ≠ 220 → status.code ≠ 222 →
        FailAlike (fetchBody gz mid body) (fetchBody gz mid article) := by
  intro h
  have hbody : let mid := "<a@b>"
      HasReply s!"BODY {normalizeMessageId mid}"
      { code := 403, message := "denied" } (.readyTo denyingServer) := ⟨rfl, _, ask_eq_ok_iff.mp rfl⟩
  have harticle : let mid := "<a@b>"
      HasReply s!"ARTICLE {normalizeMessageId mid}"
      { code := 403, message := "denied" } (.withoutBody denyingServer) :=
    ⟨rfl, _, ask_eq_ok_iff.mp rfl⟩
  have halike := h rawDecoder "<a@b>" _ _ _ hbody rfl harticle rfl rfl (by decide) (by decide)
  exact ((fetchBody_alike_iff rawDecoder hbody rfl harticle ⟨rfl, rfl⟩ (by decide)
    (by decide)).mp halike).1 rfl

end NzbNntp
