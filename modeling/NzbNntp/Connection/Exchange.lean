import NzbNntp.Connection.Alignment
import NzbNntp.Connection.Errors

/-!
One exchange of a single-command operation: the command line, its status line,
and what a handler may do with the state after it. A handler that returns or
fails in `Ready` owes a proof that nothing of the reply is left; one that fails
in `Error` owes none.
-/

namespace NzbNntp

open Interruptible

/-! ### Command lines -/

def OneLine (s : String) : Prop := '\n' ∉ s.toList

instance (s : String) : Decidable (OneLine s) := inferInstanceAs (Decidable ('\n' ∉ s.toList))

theorem oneLine_append {s t : String} : OneLine (s ++ t) ↔ OneLine s ∧ OneLine t := by
  simp [OneLine]

theorem oneLine_nat (n : Nat) : OneLine (toString n) := by
  intro h
  rw [Nat.toString_eq_repr, Nat.toList_repr] at h
  have hdigit := Nat.isDigit_of_mem_toDigits (by decide) (by decide) h
  revert hdigit
  decide

theorem oneLine_normalizeMessageId {mid : String} (h : OneLine mid) :
    OneLine (normalizeMessageId mid) := by
  unfold normalizeMessageId
  split
  · exact h
  · exact oneLine_append.mpr ⟨oneLine_append.mpr ⟨by decide, h⟩, by decide⟩

theorem oneLine_intercalate {words : List String} (h : ∀ word ∈ words, OneLine word) :
    OneLine (" ".intercalate words) := by
  induction words with
  | nil => exact List.not_mem_nil
  | cons word words ih =>
      cases words with
      | nil =>
          rw [String.intercalate_singleton]
          exact h word (by simp)
      | cons next words =>
          rw [String.intercalate_cons_cons, oneLine_append, oneLine_append]
          exact ⟨⟨h word (by simp), by decide⟩, ih fun w hw => h w (by simp [hw])⟩

theorem oneLine_listActiveCommand {wildmat : Option String}
    (h : ∀ pattern, wildmat = some pattern → OneLine pattern) :
    OneLine (listActiveCommand wildmat) := by
  cases wildmat with
  | none => decide
  | some pattern => exact oneLine_append.mpr ⟨by decide, h pattern rfl⟩

/-! ### What a command expects -/

/-- The server sends a block after the code `block`, and waits for no article. -/
structure Expects (line : Bytes) (block : Option Nat) : Prop where
  code : blockCode line = block
  noArticle : ∀ code, invitesArticle line code = false

theorem commandLine_verb (verb tail : String) :
    commandLine (verb ++ " " ++ tail) = Text.utf8 verb ++ 32 :: commandLine tail := by
  simp only [commandLine, Text.utf8_append, List.append_assoc]
  rfl

theorem commandLine_bare (verb : String) :
    commandLine verb = Text.utf8 verb ++ cr :: [lf] := by
  rw [commandLine_eq, List.append_assoc]
  rfl

/-- The commands other than `LIST` and `POST` are known by their first word. -/
theorem expects_of_firstWord {line : Bytes} {verb : String} {block : Option Nat}
    (hword : firstWord line = Text.utf8 verb)
    (hblock : blockTable.lookup (Text.utf8 verb) = block)
    (hlist : Text.utf8 verb ≠ Text.utf8 "LIST") (hpost : Text.utf8 verb ≠ Text.utf8 "POST") :
    Expects line block := by
  refine ⟨?_, fun code => by simp [invitesArticle, hword, hpost]⟩
  have hne : line ≠ listExtensions := by
    rintro rfl
    exact hlist (hword.symm.trans (by decide))
  rw [blockCode, if_neg hne, hword, hblock]

theorem expects_verb {cmd : String} {block : Option Nat} (verb tail : String)
    (hcmd : cmd = verb ++ " " ++ tail) (hword : (Text.utf8 verb).all isWordByte = true)
    (hblock : blockTable.lookup (Text.utf8 verb) = block)
    (hlist : Text.utf8 verb ≠ Text.utf8 "LIST") (hpost : Text.utf8 verb ≠ Text.utf8 "POST") :
    Expects (commandLine cmd) block := by
  refine expects_of_firstWord ?_ hblock hlist hpost
  rw [hcmd, commandLine_verb, firstWord_append hword (by decide)]

/-- The `LIST` commands whose keyword does not begin as `EXTENSIONS` does. -/
theorem expects_list {cmd : String} (tail : String) (hcmd : cmd = "LIST" ++ " " ++ tail)
    (htail : (commandLine tail).head? ≠ some 69) : Expects (commandLine cmd) (some 215) := by
  have hline : commandLine cmd = Text.utf8 "LIST" ++ 32 :: commandLine tail := by
    rw [hcmd, commandLine_verb]
  have hword : firstWord (commandLine cmd) = Text.utf8 "LIST" := by
    rw [hline, firstWord_append (by decide) (by decide)]
  have hne : commandLine cmd ≠ listExtensions := by
    intro h
    have hrest := congrArg (List.drop 5) (hline.symm.trans h)
    rw [List.drop_append, List.drop_eq_nil_of_le (by decide), List.nil_append] at hrest
    exact htail (congrArg List.head? hrest)
  refine ⟨?_, fun code => ?_⟩
  · rw [blockCode, if_neg hne, hword]
    decide
  · simp [invitesArticle, hword, show Text.utf8 "LIST" ≠ Text.utf8 "POST" by decide]

theorem expects_article (mid : String) : Expects (commandLine s!"ARTICLE {mid}") (some 220) :=
  expects_verb "ARTICLE" mid rfl (by decide) (by decide) (by decide) (by decide)

theorem expects_head (n : Nat) : Expects (commandLine s!"HEAD {n}") (some 221) :=
  expects_verb "HEAD" (toString n) rfl (by decide) (by decide) (by decide) (by decide)

theorem expects_body (mid : String) : Expects (commandLine s!"BODY {mid}") (some 222) :=
  expects_verb "BODY" mid rfl (by decide) (by decide) (by decide) (by decide)

theorem expects_stat (mid : String) : Expects (commandLine s!"STAT {mid}") none :=
  expects_verb "STAT" mid rfl (by decide) (by decide) (by decide) (by decide)

theorem expects_group (name : String) : Expects (commandLine s!"GROUP {name}") none :=
  expects_verb "GROUP" name rfl (by decide) (by decide) (by decide) (by decide)

theorem expects_xover (start stop : Nat) :
    Expects (commandLine s!"XOVER {start}-{stop}") (some 224) :=
  expects_verb "XOVER" s!"{start}-{stop}" (by simp [String.append_assoc]) (by decide) (by decide)
    (by decide) (by decide)

theorem expects_xhdr (header arg : String) :
    Expects (commandLine s!"XHDR {header} {arg}") (some 221) :=
  expects_verb "XHDR" s!"{header} {arg}" (by simp [String.append_assoc]) (by decide) (by decide)
    (by decide) (by decide)

theorem expects_xpat (header arg patterns : String) :
    Expects (commandLine s!"XPAT {header} {arg} {patterns}") (some 221) :=
  expects_verb "XPAT" s!"{header} {arg} {patterns}" (by simp [String.append_assoc]) (by decide)
    (by decide) (by decide) (by decide)

theorem expects_date : Expects (commandLine "DATE") none :=
  expects_of_firstWord
    (by rw [commandLine_bare "DATE", firstWord_append (by decide) (by decide)])
    (by decide) (by decide) (by decide)

theorem expects_overviewFmt : Expects (commandLine "LIST OVERVIEW.FMT") (some 215) :=
  expects_list "OVERVIEW.FMT" (by decide) (by decide)

theorem expects_listActive (wildmat : Option String) :
    Expects (commandLine (listActiveCommand wildmat)) (some 215) := by
  cases wildmat with
  | none => exact expects_list "ACTIVE" (by decide) (by decide)
  | some pattern =>
      refine expects_list ("ACTIVE" ++ " " ++ pattern) ?_ ?_
      · rw [← String.append_assoc]
        rfl
      · rw [commandLine_verb, List.head?_append,
          show (Text.utf8 "ACTIVE").head? = some 65 by decide]
        simp

/-! ### Sending the command and reading the status line -/

section Exchange

variable {w : World ReplyServer}

/-- After the status line of the reply to `cmd`, on a connection claimed by the
operation. -/
def Answered (cmd : String) (code : Nat) : World ReplyServer → Prop :=
  At .busy (AfterStatus (commandLine cmd) code)

/-- The connection is `Ready`, and its transport owes nothing. -/
def AtRest (w : World ReplyServer) : Prop :=
  InState .ready w ∧ ∀ t, w.conn.transport = some t → Owes [] t

/-- A request on an aligned connection: its own status line, or `Error`. -/
theorem wp_request {cmd : String} (hcmd : OneLine cmd) (hw : AtRest w) :
    wp (request cmd)
      ⟨fun status => Answered cmd status.code, fun e w => NotRefusal e ∧ InState .error w,
        InState .busy⟩ w := by
  suffices h : wp (request cmd)
      ⟨fun status => Answered cmd status.code, fun _ => InState .error, InState .busy⟩ w by
    have hraises := raises_request notRefusal_transmitted (fun _ => rfl) cmd w
    exact wp_mono (wp_and hraises h) (fun _ _ h => h.2) (fun _ _ h => h) (fun _ h => h.2)
  rw [request, setState, wp_bind, wp_modify]
  have hsend : wp (orError (sendCommand cmd))
      ⟨fun _ => At .busy (Answering (commandLine cmd)), fun _ => InState .error,
        InState .busy⟩ (w.setState .busy) := by
    cases ht : w.conn.transport with
    | none =>
        have ht' : (w.setState .busy).conn.transport = none := ht
        simp only [orError, wp_inspectErr, sendCommand, sendCommandNoFlush, wp_bind,
          wp_onTransport_none ht']
        rfl
    | some t =>
        exact wp_orError (wp_sendCommand (owes_endStable []) (answering_endStable _)
          (fun t h => h.deliver_command hcmd) ⟨rfl, t, ht, hw.2 t ht⟩)
  refine wp_seq hsend ?_ (fun _ _ h => h) (fun _ h => h)
  intro _ w' hw'
  refine wp_mono (wp_orError (wp_readResponseLine (answering_endStable _) ?_ hw'))
    (fun _ _ h => h) (fun _ _ h => h) (fun _ h => h)
  intro t bytes t' line status hanswering hawait htext _ hparse
  exact hanswering.readStatus hawait htext hparse

/-- After a code that announces no block nothing is owed. -/
theorem AfterStatus.quiet {line : Bytes} {block : Option Nat} {code : Nat}
    {t : Transport ReplyServer} (h : AfterStatus line code t) (hexp : Expects line block)
    (hcode : block ≠ some code) : Owes [] t := by
  rcases h with hended | ⟨hunread, hline, hposting⟩
  · exact .inl hended
  · have hno : announcesBlock line (some code) = false := by
      simp [announcesBlock, hexp.code, Ne.symm hcode]
    rw [hno, if_neg Bool.false_ne_true] at hunread
    exact .inr ⟨hunread, hline, hposting.trans (hexp.noArticle _)⟩

theorem AfterStatus.block {line : Bytes} {code : Nat} {t : Transport ReplyServer}
    (h : AfterStatus line code t) (hexp : Expects line (some code)) : OwesBlock [] t := by
  rcases h with hended | ⟨hunread, hline, hposting⟩
  · exact ⟨⟨⟨[], by simp⟩, [], [dot, lf], by simp, by decide⟩, .inl hended⟩
  · have hyes : announcesBlock line (some code) = true := by
      simp [announcesBlock, hexp.code]
    rw [hyes, if_pos rfl] at hunread
    obtain ⟨r, hr⟩ := hunread
    exact ⟨r, .inr ⟨by rw [hr, List.append_nil], hline, hposting.trans (hexp.noArticle _)⟩⟩

theorem Answered.quiet {cmd : String} {block : Option Nat} {code : Nat}
    (h : Answered cmd code w) (hexp : Expects (commandLine cmd) block)
    (hcode : block ≠ some code) : At .busy (Owes []) w :=
  h.mono fun _ ht => ht.quiet hexp hcode

/-! ### How an operation may end -/

/-- How an operation that was begun in `w₀` may fail. After a refusal the connection is at rest.
After a protocol error it is so where nothing has been sent, or where the operation `reads` the
text of a reply and does not understand it. After any other it is in `Error`. -/
def Fails (reads : Bool) (w₀ : World ReplyServer) : NntpError → World ReplyServer → Prop
  | .articleNotFound _, w | .noSuchGroup _, w | .noArticleSelected _, w
  | .unsupportedCommand _, w => AtRest w
  | .protocol _, w => InState .error w ∨ (AtRest w ∧ (w = w₀ ∨ reads = true))
  | _, w => InState .error w

/-- An operation that returns leaves the connection at rest, one that fails leaves it as
`Fails` says, and one that is dropped leaves it `Busy`. -/
def settles (α : Type) (reads : Bool) (w₀ : World ReplyServer) :
    Post NntpError (World ReplyServer) α :=
  ⟨fun _ => AtRest, Fails reads w₀, InState .busy⟩

variable {α : Type} {reads : Bool} {w₀ : World ReplyServer}

theorem At.atRest {s : ConnectionState} (hw : At s (Owes []) w) :
    AtRest (w.setState .ready) := by
  obtain ⟨-, t, ht, howes⟩ := hw
  refine ⟨rfl, fun t' ht' => ?_⟩
  obtain rfl : t = t' := Option.some.inj (ht.symm.trans ht')
  exact howes

theorem fails_of_error {e : NntpError} (he : NotRefusal e) (hw : InState .error w) :
    Fails reads w₀ e w := by
  cases e with
  | articleNotFound _ | noSuchGroup _ | noArticleSelected _ | unsupportedCommand _ => cases he
  | protocol _ => exact .inl hw
  | _ => exact hw

theorem fails_of_refusal {e : NntpError} (he : e.isRefusal = true) (hw : AtRest w) :
    Fails reads w₀ e w := by
  cases e with
  | articleNotFound _ | noSuchGroup _ | noArticleSelected _ | unsupportedCommand _ => exact hw
  | _ => cases he

/-- A check of the arguments fails before anything is sent. -/
theorem settles_check {text : String} (hw : AtRest w) :
    wp (Comp.fail (.protocol text)) (settles α reads w) w :=
  .inr ⟨hw, .inl rfl⟩

theorem settles_refuse {e : NntpError} (he : e.isRefusal = true) (hw : AtRest w) :
    wp (Comp.fail e) (settles α reads w₀) w :=
  fails_of_refusal he hw

theorem settles_failIn_error {e : NntpError} (he : NotRefusal e) :
    wp (failIn .error e) (settles α reads w₀) w :=
  fails_of_error he rfl

theorem settles_failIn_ready {e : NntpError} {s : ConnectionState} (he : e.isRefusal = true)
    (hw : At s (Owes []) w) : wp (failIn .ready e) (settles α reads w₀) w :=
  fails_of_refusal he hw.atRest

theorem settles_returnReady {a : α} {s : ConnectionState} (hw : At s (Owes []) w) :
    wp (returnReady a) (settles α reads w₀) w :=
  hw.atRest

/-- A reply that has been read, and is not understood. -/
theorem settles_ofExcept {r : Except NntpError α} (hw : AtRest w)
    (hr : ∀ e, r = .error e → ∃ text, e = .protocol text) :
    wp (Comp.ofExcept r) (settles α true w₀) w := by
  cases r with
  | ok a => exact hw
  | error e =>
      obtain ⟨text, rfl⟩ := hr e rfl
      exact .inr ⟨hw, .inr rfl⟩

theorem settles_request {cmd : String} {k : NntpResponse → Nntp ReplyServer α}
    (hcmd : OneLine cmd) (hw : AtRest w)
    (hk : ∀ status w', Answered cmd status.code w' → wp (k status) (settles α reads w₀) w') :
    wp (request cmd >>= k) (settles α reads w₀) w :=
  wp_seq (wp_request hcmd hw) hk (fun _ _ h => fails_of_error h.1 h.2) (fun _ h => h)

theorem settles_command {operation cmd : String} {k : NntpResponse → Nntp ReplyServer α}
    (hcmd : OneLine cmd) (hw : AtRest w)
    (hk : ∀ status w', Answered cmd status.code w' → wp (k status) (settles α reads w₀) w') :
    wp (do requireReady operation; let status ← request cmd; k status) (settles α reads w₀) w := by
  rw [wp_bind]
  exact wp_requireReady hw.1 (settles_request hcmd hw hk)

/-- A handler that reads the block of its reply. -/
theorem settles_block {cmd : String} {code : Nat} {reader : Nntp ReplyServer Bytes}
    {k : Bytes → Nntp ReplyServer α} (h : Answered cmd code w)
    (hexp : Expects (commandLine cmd) (some code)) (hraises : Raises NotRefusal reader)
    (hreader : ∀ {w}, At .busy (OwesBlock []) w → wp reader (ioPost .busy fun _ => Owes []) w)
    (hk : ∀ data w', At .busy (Owes []) w' → wp (k data) (settles α reads w₀) w') :
    wp (orError reader >>= k) (settles α reads w₀) w := by
  have hread := wp_orError (hreader (h.mono fun _ ht => ht.block hexp))
  have herror : Raises NotRefusal (orError reader) := raises_inspectErr hraises _
  exact wp_seq (wp_and (herror w) hread) (fun data w' h => hk data w' h.2)
    (fun _ _ h => fails_of_error h.1 h.2) (fun _ h => h.2)

end Exchange

end NzbNntp
