import NzbNntp.Connection.Blocks

/-!
With which errors an operation fails. The errors of the transport pass through every
operation; the others are those that the operation itself makes of a reply.
-/

namespace NzbNntp

open Interruptible

/-- The errors of a lost transport and of its operations are of this kind. -/
structure Transmitted (E : NntpError → Prop) : Prop where
  connection : ∀ text, E (.connection text)
  io : ∀ error, E (.io error)

theorem parseResponseLine_error {line : String} {e : NntpError}
    (h : parseResponseLine line = .error e) : ∃ text, e = .protocol text := by
  simp only [parseResponseLine] at h
  split at h
  · exact ⟨_, (Except.error.inj h).symm⟩
  split at h
  · exact ⟨_, (Except.error.inj h).symm⟩
  · cases h

section Errors

variable {π : Type} {E : NntpError → Prop} (hE : Transmitted E)

include hE

theorem raises_onTransport {α : Type} (io : Transport π → IoEvent → α × Transport π) :
    Raises E (onTransport io) := by
  intro w
  cases ht : w.conn.transport with
  | none => exact (wp_onTransport_none ht).mpr (hE.connection _)
  | some t => exact (wp_onTransport ht).mpr trivial

theorem raises_settle {timedOut : NntpError} (h : E timedOut) (e : IoEnd) :
    Raises E (settle timedOut e : Nntp π Unit) := by
  cases e with
  | done => exact raises_pure ()
  | failed error => exact raises_fail (hE.io error)
  | elapsed => exact raises_fail h
  | dropped => exact raises_drop

theorem raises_readBodyLine {timedOut : NntpError} (h : E timedOut) :
    Raises E (readBodyLine timedOut : Nntp π Bytes) := by
  apply raises_bind (raises_modify _) fun _ => ?_
  apply raises_bind (raises_onTransport hE _) fun _ => ?_
  apply raises_bind (raises_modify _) fun _ => ?_
  exact raises_bind (raises_settle hE h _) fun _ => raises_pure _

/-- By induction on the lines of the block. -/
theorem raises_multilineLoop {maxBytes : Option Nat}
    (hlarge : maxBytes.isSome = true → ∀ text, E (.responseTooLarge text)) (fuel : Nat)
    (out : Bytes) : Raises E (multilineLoop maxBytes fuel out : Nntp π Bytes) := by
  induction fuel generalizing out with
  | zero => exact raises_fail (hE.connection _)
  | succ fuel ih =>
      apply raises_bind (raises_readBodyLine hE (hE.io _)) fun line => ?_
      split
      · exact raises_fail (hE.connection _)
      split
      · exact raises_pure out
      split
      · rename_i hexceeds
        cases maxBytes with
        | none => cases hexceeds
        | some maximum => exact raises_fail (hlarge rfl _)
      · exact ih _

theorem raises_readMultilineBody : Raises E (readMultilineBody : Nntp π Bytes) := fun _ =>
  raises_multilineLoop hE (by simp) _ _ _

/-- A block that cannot be decompressed is passed on as it is. -/
theorem raises_readMultilineBodyMaybeDecompress (gz : GzDecoder) :
    Raises E (readMultilineBodyMaybeDecompress gz : Nntp π Bytes) := by
  apply raises_bind (raises_readMultilineBody hE) fun raw => ?_
  apply raises_bind raises_get fun w => ?_
  split
  · split
    · exact raises_pure _
    · exact raises_pure raw
  · exact raises_pure raw

theorem raises_readMultilineBodyMaybeDecompressBounded (hprotocol : ∀ text, E (.protocol text))
    (hlarge : ∀ text, E (.responseTooLarge text)) (gz : GzDecoder) (maxBytes : Nat) :
    Raises E (readMultilineBodyMaybeDecompressBounded gz maxBytes : Nntp π Bytes) := by
  have hread : Raises E (readMultilineBodyBounded maxBytes : Nntp π Bytes) := fun _ =>
    raises_multilineLoop hE (fun _ => hlarge) _ _ _
  apply raises_bind hread fun raw => ?_
  apply raises_bind raises_get fun w => ?_
  split
  · split
    · exact raises_fail (hprotocol _)
    · split
      · exact raises_fail (hlarge _)
      · exact raises_pure _
  · exact raises_pure raw

theorem raises_prefixLoop (htimeout : ∀ text, E (.timeout text))
    (hlarge : ∀ text, E (.responseTooLarge text)) (maxBytes fuel : Nat) (data : Bytes) :
    Raises E (prefixLoop maxBytes fuel data : Nntp π BodyPrefixResponse) := by
  induction fuel generalizing data with
  | zero => exact raises_fail (hE.connection _)
  | succ fuel ih =>
      apply raises_bind (raises_readBodyLine hE (htimeout _)) fun line => ?_
      split
      · exact raises_fail (hE.connection _)
      split
      · exact raises_pure _
      split
      · exact raises_fail (hlarge _)
      dsimp only
      split
      · exact raises_pure _
      · exact ih _

theorem raises_readResponseLine (hprotocol : ∀ text, E (.protocol text)) :
    Raises E (readResponseLine : Nntp π NntpResponse) := by
  have hparse : ∀ line e, parseResponseLine line = .error e → E e := by
    intro line e he
    obtain ⟨text, rfl⟩ := parseResponseLine_error he
    exact hprotocol text
  apply raises_bind (raises_onTransport hE _) fun r => ?_
  apply raises_bind (raises_settle hE (hE.io _) _) fun _ => ?_
  split
  · exact raises_fail (hE.io _)
  rename_i line _
  split
  · exact raises_fail (hE.connection _)
  · have hline := hparse line
    -- what the line says does not matter here, and must not be computed
    generalize parseResponseLine line = parsed at hline ⊢
    exact raises_ofExcept hline

variable [Peer π]

theorem raises_transportWriteAll (data : Bytes) :
    Raises E (transportWriteAll data : Nntp π Unit) := by
  apply raises_bind (raises_onTransport hE _) fun _ => ?_
  exact raises_bind raises_get fun _ => raises_settle hE (hE.io _) _

theorem raises_sendCommand (cmd : String) : Raises E (sendCommand cmd : Nntp π Unit) := by
  apply raises_bind (raises_transportWriteAll hE _) fun _ => ?_
  apply raises_bind (raises_onTransport hE _) fun _ => ?_
  exact raises_bind raises_get fun _ => raises_settle hE (hE.io _) _

theorem raises_ask (hprotocol : ∀ text, E (.protocol text)) (cmd : String) :
    Raises E (ask cmd : Nntp π NntpResponse) :=
  raises_bind (raises_sendCommand hE cmd) fun _ => raises_readResponseLine hE hprotocol

theorem raises_request (hprotocol : ∀ text, E (.protocol text)) (cmd : String) :
    Raises E (request cmd : Nntp π NntpResponse) := by
  apply raises_bind (raises_modify _) fun _ => ?_
  apply raises_bind (raises_inspectErr (raises_sendCommand hE cmd) _) fun _ => ?_
  exact raises_inspectErr (raises_readResponseLine hE hprotocol) _

end Errors

/-! ### Refusals -/

/-- The server has not what it was asked for, or does not know the command: the errors that
say nothing against the session. -/
def NntpError.isRefusal : NntpError → Bool
  | .articleNotFound _ | .noSuchGroup _ | .noArticleSelected _ | .unsupportedCommand _ => true
  | _ => false

def NotRefusal (e : NntpError) : Prop := e.isRefusal = false

theorem notRefusal_transmitted : Transmitted NotRefusal where
  connection _ := rfl
  io _ := rfl

theorem notRefusal_unexpected (code : Nat) (message : String) :
    NotRefusal (unexpectedArticleResponse code message) := by
  rw [unexpectedArticleResponse]
  split
  · rfl
  · rfl

/-! ### A rejected login -/

/-- The error is not that of a rejected login. -/
def NotAuth (e : NntpError) : Prop := ∀ text, e ≠ .auth text

theorem notAuth_transmitted : Transmitted NotAuth where
  connection _ _ h := by cases h
  io _ _ h := by cases h

theorem notAuth_unexpected (code : Nat) (message : String) :
    NotAuth (unexpectedArticleResponse code message) := by
  intro text h
  rw [unexpectedArticleResponse] at h
  split at h
  · cases h
  · cases h

section Rejected

variable {π : Type} [Peer π] {w w' : World π} {mid text : String} {gz : GzDecoder}

/-- The end of an exchange whose reply is no rejection. -/
theorem wp_request_notAuth {cmd : String}
    (h : ∀ status w₁, Queried cmd w status w₁ → status.code ≠ 481 ∧ status.code ≠ 482) :
    wp (request cmd) ⟨fun status _ => status.code ≠ 481 ∧ status.code ≠ 482,
      fun e _ => NotAuth e, fun _ => True⟩ w := by
  have hraises : wp (ask cmd) ⟨fun _ _ => True, fun e _ => NotAuth e, fun _ => True⟩ w :=
    raises_ask notAuth_transmitted (fun _ _ h => by cases h) cmd w
  unfold wp at hraises ⊢
  cases hask : ask cmd w with
  | ok status w₁ =>
      rw [request_of_ok hask]
      exact h status w₁ (ask_eq_ok_iff.mp hask)
  | err e w₁ =>
      rw [hask] at hraises
      rw [request_of_err hask]
      exact hraises
  | dropped w₁ =>
      rw [request_of_dropped hask]
      trivial

/-- `fetch_article` fails so after a reply with the code `481` or `482` only. -/
theorem fetchArticle_auth (h : fetchArticle gz mid w = .err (.auth text) w') :
    ∃ status w₁, Queried s!"ARTICLE {normalizeMessageId mid}" w status w₁ ∧
      (status.code = 481 ∨ status.code = 482) := by
  by_contra hnone
  push Not at hnone
  have hother : ∀ status w₁, Queried s!"ARTICLE {normalizeMessageId mid}" w status w₁ →
      status.code ≠ 481 ∧ status.code ≠ 482 := hnone
  have hraises : wp (fetchArticle gz mid)
      ⟨fun _ _ => True, fun e _ => NotAuth e, fun _ => True⟩ w := by
    by_cases hready : w.conn.state = .ready
    · rw [fetchArticle, wp_bind_of_ok (requireReady_of_ready hready)]
      refine wp_seq (wp_request_notAuth hother) ?_ (fun _ _ h => h) (fun _ h => h)
      rintro status w₁ ⟨h481, h482⟩
      split
      case h_1 =>
        refine raises_bind ?_ (fun _ => raises_bind (raises_modify _) fun _ => raises_pure _) w₁
        exact raises_inspectErr (raises_readMultilineBodyMaybeDecompress notAuth_transmitted gz) _
      case h_12 => exact notAuth_unexpected _ _
      all_goals
        rename_i hcode
        first
        | contradiction
        | exact fun text h => by cases h
    · simp only [fetchArticle, requireReady, wp_bind, wp_get, hready, ne_eq, not_false_eq_true,
        if_true, wp_fail]
      intro text h
      cases h
  exact wp_err hraises h text rfl

end Rejected

end NzbNntp
