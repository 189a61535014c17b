import NzbNntp.Connection.Readers
import NzbNntp.Server

/-!
How long a server is left alone after an error. `penalize_for` is given the error as
text and looks for four words in it. Three variants carry such a word in their caption;
of the others the text tells, which comes from a server, a resolver or the configuration,
and the texts that the crate gives to its own time-outs say "timed out".
-/

namespace NzbNntp

open Delimited

/-! ### The words -/

def penaltyWords : List String := ["auth", "Auth", "timeout", "Timeout"]

def Mentions (text : String) : Prop := ∃ word ∈ penaltyWords, Text.contains text word = true

instance : DecidablePred Mentions := fun text =>
  inferInstanceAs (Decidable (∃ word ∈ penaltyWords, Text.contains text word = true))

/-- The duration that `penalize_for` picks for the reason. -/
def penaltyFor (reason : String) : Nat := if Mentions reason then PENALTY_AUTH else PENALTY_UNKNOWN

theorem mentions_iff {text : String} :
    Mentions text ↔ (Text.contains text "auth" ∨ Text.contains text "Auth") ∨
      (Text.contains text "timeout" ∨ Text.contains text "Timeout") := by
  simp [Mentions, penaltyWords, or_assoc]

theorem penaltyFor_of_mentions {text : String} (h : Mentions text) :
    penaltyFor text = PENALTY_AUTH := if_pos h

theorem penaltyFor_of_not_mentions {text : String} (h : ¬ Mentions text) :
    penaltyFor text = PENALTY_UNKNOWN := if_neg h

/-- The two long penalties are equally long. -/
theorem penalizeFor_eq (server : ServerState) (reason : String) (now : Nat) :
    server.penalizeFor reason now = server.penalize reason (penaltyFor reason) now := by
  unfold ServerState.penalizeFor
  dsimp only
  split
  · rename_i hauth
    rw [Bool.or_eq_true] at hauth
    rw [penaltyFor_of_mentions (mentions_iff.mpr (.inl hauth))]
  split
  · rename_i htimeout
    rw [Bool.or_eq_true] at htimeout
    rw [penaltyFor_of_mentions (mentions_iff.mpr (.inr htimeout))]
  · rename_i hauth htimeout
    rw [Bool.or_eq_true] at hauth htimeout
    rw [penaltyFor_of_not_mentions fun h => not_or.mpr ⟨hauth, htimeout⟩ (mentions_iff.mp h)]

theorem penaltyFor_eq_auth_iff {text : String} :
    penaltyFor text = PENALTY_AUTH ↔ Mentions text := by
  refine ⟨fun h => ?_, penaltyFor_of_mentions⟩
  by_contra hno
  rw [penaltyFor_of_not_mentions hno] at h
  exact absurd h (by decide)

theorem penaltyFor_eq_unknown_iff {text : String} :
    penaltyFor text = PENALTY_UNKNOWN ↔ ¬ Mentions text := by
  refine ⟨fun h hword => ?_, penaltyFor_of_not_mentions⟩
  rw [penaltyFor_of_mentions hword] at h
  exact absurd h (by decide)

theorem penaltyFor_eq_iff {a b : String} :
    penaltyFor a = penaltyFor b ↔ (Mentions a ↔ Mentions b) := by
  by_cases hb : Mentions b
  · rw [penaltyFor_of_mentions hb, penaltyFor_eq_auth_iff, iff_true_right hb]
  · rw [penaltyFor_of_not_mentions hb, penaltyFor_eq_unknown_iff, iff_false_right hb]

/-- A word is found on one side of a space. -/
theorem mentions_spaced {text a b : String} (h : text.toList = a.toList ++ ' ' :: b.toList) :
    Mentions text ↔ Mentions a ∨ Mentions b := by
  have hword : ∀ word ∈ penaltyWords, (Text.contains text word = true ↔
      Text.contains a word = true ∨ Text.contains b word = true) := by
    intro word hword
    have hfree : ' ' ∉ word.toList := by
      revert word
      simp [penaltyWords]
    simp only [Text.contains, decide_eq_true_eq]
    rw [h, infix_append_cons_iff hfree]
  constructor
  · rintro ⟨word, hmem, hfound⟩
    exact ((hword word hmem).mp hfound).imp (fun h => ⟨word, hmem, h⟩) fun h => ⟨word, hmem, h⟩
  · rintro (⟨word, hmem, hfound⟩ | ⟨word, hmem, hfound⟩)
    · exact ⟨word, hmem, (hword word hmem).mpr (.inl hfound)⟩
    · exact ⟨word, hmem, (hword word hmem).mpr (.inr hfound)⟩

/-- All of the words have a `u`. -/
theorem not_mentions_of_not_mem {text : String} (h : 'u' ∉ text.toList) : ¬ Mentions text := by
  rintro ⟨word, hmem, hfound⟩
  have hword : 'u' ∈ word.toList := by
    revert word
    simp [penaltyWords]
  exact h ((of_decide_eq_true hfound).subset hword)

/-! ### The text of an error -/

namespace NntpError

def withText (text : String) : NntpError → NntpError
  | .connection _ => .connection text
  | .tls _ => .tls text
  | .auth _ => .auth text
  | .authRequired _ => .authRequired text
  | .permissionDenied _ => .permissionDenied text
  | .serviceUnavailable _ => .serviceUnavailable text
  | .articleNotFound _ => .articleNotFound text
  | .noSuchGroup _ => .noSuchGroup text
  | .noArticleSelected _ => .noArticleSelected text
  | .protocol _ => .protocol text
  | .unsupportedCommand _ => .unsupportedCommand text
  | .responseTooLarge _ => .responseTooLarge text
  | .io error => .io { error with text }
  | .noConnectionsAvailable _ => .noConnectionsAvailable text
  | .timeout _ => .timeout text
  | .allServersExhausted _ => .allServersExhausted text
  | .shutdown => .shutdown

def penalty : NntpError → Nat
  | .auth _ | .authRequired _ => PENALTY_AUTH
  | .timeout _ | .io ⟨.timedOut, _⟩ => PENALTY_TIMEOUT
  | _ => PENALTY_UNKNOWN

/-- What stands before the text of an error, up to a space. -/
def caption : NntpError → String
  | .connection _ => "Connection error:"
  | .tls _ => "TLS error:"
  | .auth _ => "Authentication failed:"
  | .authRequired _ => "Authentication required:"
  | .permissionDenied _ => "Permission denied:"
  | .serviceUnavailable _ => "Service unavailable:"
  | .articleNotFound _ => "Article not found:"
  | .noSuchGroup _ => "No such group:"
  | .noArticleSelected _ => "No article selected:"
  | .protocol _ => "Protocol error:"
  | .unsupportedCommand _ => "Unsupported command:"
  | .responseTooLarge _ => "Response too large:"
  | .io _ => "I/O error:"
  | .noConnectionsAvailable _ => "No connections available for server"
  | .timeout _ => "Timeout:"
  | .allServersExhausted _ => "All servers exhausted for article"
  | .shutdown => "Downloader shut down"

def captioned : NntpError → Bool
  | .auth _ | .authRequired _ | .timeout _ => true
  | _ => false

/-- The error has a caption that tells, or no text to tell by. -/
def steady : NntpError → Bool
  | .shutdown => true
  | e => e.captioned

def ioTimedOut : NntpError → Bool
  | .io ⟨.timedOut, _⟩ => true
  | _ => false

section Display

variable (e : NntpError) (text : String)

theorem mentions_caption : Mentions e.caption ↔ e.captioned = true := by
  cases e <;> (dsimp only [caption, captioned]; decide)

theorem display_withText (h : e ≠ .shutdown) :
    (e.withText text).display = e.caption ++ " " ++ text := by
  cases e <;> first | rfl | exact absurd rfl h

theorem mentions_display_of_text (h : e ≠ .shutdown) :
    Mentions (e.withText text).display ↔ e.captioned = true ∨ Mentions text := by
  have hdisplay : (e.withText text).display.toList = e.caption.toList ++ ' ' :: text.toList := by
    rw [display_withText e text h]
    simp
  rw [mentions_spaced hdisplay, mentions_caption]

theorem steady_eq (h : e ≠ .shutdown) : e.steady = e.captioned := by
  cases e <;> first | rfl | exact absurd rfl h

/-- Of a steady error the text says nothing. -/
theorem mentions_display_of_steady (h : e.steady = true) :
    Mentions (e.withText text).display ↔ e.captioned = true := by
  by_cases hshut : e = .shutdown
  · subst hshut
    have hdisplay : ¬ Mentions "Downloader shut down" := by decide
    exact iff_of_false hdisplay (by simp [captioned])
  · rw [steady_eq e hshut] at h
    rw [mentions_display_of_text e text hshut]
    exact iff_of_true (.inl h) h

/-- Of the others it says everything. -/
theorem mentions_display_of_not_steady (h : e.steady = false) :
    Mentions (e.withText text).display ↔ Mentions text := by
  have hshut : e ≠ .shutdown := by
    rintro rfl
    cases h
  rw [steady_eq e hshut] at h
  rw [mentions_display_of_text e text hshut, h]
  simp

theorem penalty_eq_auth_iff :
    e.penalty = PENALTY_AUTH ↔ e.captioned = true ∨ e.ioTimedOut = true := by
  cases e with
  | io error =>
      obtain ⟨kind, errorText⟩ := error
      cases kind <;> (dsimp only [penalty, captioned, ioTimedOut]; decide)
  | _ => dsimp only [penalty, captioned, ioTimedOut]; decide

theorem penalty_cases : e.penalty = PENALTY_AUTH ∨ e.penalty = PENALTY_UNKNOWN := by
  unfold penalty
  split
  · exact .inl rfl
  · exact .inl rfl
  · exact .inl rfl
  · exact .inl rfl
  · exact .inr rfl

theorem not_captioned_of_not_steady (h : e.steady = false) : e.captioned = false := by
  cases e <;> first | rfl | cases h

theorem not_ioTimedOut_of_steady (h : e.steady = true) : e.ioTimedOut = false := by
  cases e <;> first | rfl | cases h

/-- The penalty of a displayed error is that of its class, if it is steady or its text
mentions what its class says. -/
theorem penaltyFor_display_eq_iff :
    penaltyFor (e.withText text).display = e.penalty ↔
      e.steady = true ∨ (Mentions text ↔ e.ioTimedOut = true) := by
  have hclass : penaltyFor (e.withText text).display = e.penalty ↔
      (Mentions (e.withText text).display ↔ e.captioned = true ∨ e.ioTimedOut = true) := by
    rw [← penalty_eq_auth_iff]
    rcases e.penalty_cases with h | h
    · rw [h, penaltyFor_eq_auth_iff, iff_true_right rfl]
    · have hne : PENALTY_UNKNOWN ≠ PENALTY_AUTH := by decide
      rw [h, penaltyFor_eq_unknown_iff]
      exact (iff_false_right hne).symm
  rw [hclass]
  cases hsteady : e.steady with
  | true => simp [mentions_display_of_steady e text hsteady, not_ioTimedOut_of_steady e hsteady]
  | false =>
      simp [mentions_display_of_not_steady e text hsteady, not_captioned_of_not_steady e hsteady]

theorem penaltyFor_display_same_iff (text' : String) :
    penaltyFor (e.withText text).display = penaltyFor (e.withText text').display ↔
      e.steady = true ∨ (Mentions text ↔ Mentions text') := by
  rw [penaltyFor_eq_iff]
  cases hsteady : e.steady with
  | true =>
      simp [mentions_display_of_steady e text hsteady, mentions_display_of_steady e text' hsteady]
  | false =>
      simp [mentions_display_of_not_steady e text hsteady,
        mentions_display_of_not_steady e text' hsteady]

end Display

end NntpError

/-! ### The time-outs of the crate -/

theorem not_mentions_number {n : Nat} {after : String} (hafter : 'u' ∉ after.toList) :
    ¬ Mentions (toString n ++ after) := by
  apply not_mentions_of_not_mem
  rw [String.toList_append, List.mem_append, not_or]
  refine ⟨fun hdigit => ?_, hafter⟩
  rw [Nat.toString_eq_repr, Nat.toList_repr] at hdigit
  exact absurd (Nat.isDigit_of_mem_toDigits (by omega) (by omega) hdigit) (by decide)

theorem not_mentions_write (limit : Nat) : ¬ Mentions s!"write timed out after {limit}s" := by
  have htext : (s!"write timed out after {limit}s").toList =
      "write timed out after".toList ++ ' ' :: (toString limit ++ "s").toList := by simp
  rw [mentions_spaced htext, not_or]
  exact ⟨by decide, not_mentions_number (by decide)⟩

theorem not_mentions_multiline (received : Nat) :
    ¬ Mentions (s!"read_multiline_body timed out after {readBodyLineTimeout}s " ++
      s!"(received {received} bytes so far)") := by
  have htext : (s!"read_multiline_body timed out after {readBodyLineTimeout}s " ++
      s!"(received {received} bytes so far)").toList =
        s!"read_multiline_body timed out after {readBodyLineTimeout}s (received".toList ++
          ' ' :: (toString received ++ " bytes so far)").toList := by simp
  rw [mentions_spaced htext, not_or]
  exact ⟨by decide, not_mentions_number (by decide)⟩

/-- The errors of the writes and reads that run out of time: of a write, of the line of a
reply, of a block. -/
inductive TimedOut : NntpError → Prop
  | write (limit : Nat) : TimedOut (writeTimedOut limit)
  | line : TimedOut (.io ⟨.timedOut, s!"read_response_line timed out after {readLineTimeout}s"⟩)
  | block (received : Nat) : TimedOut (multilineTimedOut received)

/-- None of the texts has one of the words: they say "timed out", not "timeout". -/
theorem TimedOut.exists_text {e : NntpError} (h : TimedOut e) :
    ∃ text, e = .io ⟨.timedOut, text⟩ ∧ ¬ Mentions text := by
  cases h with
  | write limit => exact ⟨_, rfl, not_mentions_write limit⟩
  | line => exact ⟨_, rfl, by decide⟩
  | block received => exact ⟨_, rfl, not_mentions_multiline received⟩

theorem TimedOut.penaltyFor_display {e : NntpError} (h : TimedOut e) :
    penaltyFor e.display = PENALTY_UNKNOWN := by
  obtain ⟨text, rfl, hno⟩ := h.exists_text
  apply penaltyFor_of_not_mentions
  intro hword
  exact hno ((NntpError.mentions_display_of_not_steady (.io ⟨.timedOut, text⟩) text rfl).mp hword)

/-- **The back-off goes by the text.** An error that is put to `penalize_for` as it is
displayed imposes the same penalty with either of two texts, and the one of its class,
exactly if it is an authentication error, a `Timeout` or a `Shutdown`, or if both texts
mention one of the four words where it is an I/O error that timed out, and none where it
is another. The time-outs of the reads and writes mention none, and have the penalty of
unknown errors. -/
theorem penalty_goes_by_text (server : ServerState) (now : Nat) :
    (∀ (e : NntpError) (text text' : String),
      ((server.penalizeFor (e.withText text).display now).penaltyUntil =
            (server.penalizeFor (e.withText text').display now).penaltyUntil ∧
          (server.penalizeFor (e.withText text).display now).penaltyUntil =
            some (now + e.penalty) ↔
        e.steady = true ∨
          (Mentions text ↔ e.ioTimedOut = true) ∧ (Mentions text' ↔ e.ioTimedOut = true)) ∧
      ((server.penalizeFor (e.withText text).display now).penaltyUntil =
            (server.penalizeFor (e.withText text').display now).penaltyUntil ↔
        e.steady = true ∨ (Mentions text ↔ Mentions text'))) ∧
    ∀ e, TimedOut e →
      (server.penalizeFor e.display now).penaltyUntil = some (now + PENALTY_UNKNOWN) := by
  have huntil : ∀ reason, (server.penalizeFor reason now).penaltyUntil =
      some (now + penaltyFor reason) := by
    intro reason
    rw [penalizeFor_eq]
    rfl
  simp only [huntil, Option.some.injEq, Nat.add_left_cancel_iff]
  refine ⟨fun e text text' => ⟨?_, e.penaltyFor_display_same_iff text text'⟩,
    fun e he => he.penaltyFor_display⟩
  rw [e.penaltyFor_display_same_iff text text', e.penaltyFor_display_eq_iff text]
  cases e.steady with
  | true => simp
  | false =>
      simp only [Bool.false_eq_true, false_or]
      constructor
      · rintro ⟨hsame, htext⟩
        exact ⟨htext, hsame.symm.trans htext⟩
      · rintro ⟨htext, htext'⟩
        exact ⟨htext.trans htext'.symm, htext⟩

theorem penalty_goes_by_text_on_write :
    ((ServerState.new {} 0).penalizeFor (writeTimedOut 60).display 0).penaltyUntil = some 180 :=
  (penalty_goes_by_text (ServerState.new {} 0) 0).2 _ (.write 60)

/-- A host name decides on the penalty, and a read that timed out has the short one. -/
theorem penalty_steered_by_host :
    let until_ (e : NntpError) := ((ServerState.new {} 0).penalizeFor e.display 0).penaltyUntil
    until_ (.connection "TCP connect to auth.example.com failed") = some 600 ∧
      until_ (.connection "TCP connect to news.example.com failed") = some 180 ∧
      until_ (.io ⟨.timedOut, "read_response_line timed out after 60s"⟩) = some 180 ∧
      NntpError.penalty (.io ⟨.timedOut, "read_response_line timed out after 60s"⟩) = 600 := by
  intro until_
  refine ⟨?_, ?_, ?_, rfl⟩
  · decide +kernel
  · decide +kernel
  · decide +kernel

end NzbNntp
