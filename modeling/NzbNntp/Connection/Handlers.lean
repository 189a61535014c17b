import NzbNntp.Connection.Exchange

/-!
Every handler settles its exchange: one proof a handler, along the status codes
it tells apart. After a code that announces a block it reads the block; it ends
in `Ready` only after one that announces none, or after the whole block.
-/

namespace NzbNntp

open Interruptible

section Handlers

variable {w : World ReplyServer}

/-! ### The errors of the readers -/

theorem raises_body (gz : GzDecoder) :
    Raises NotRefusal (readMultilineBodyMaybeDecompress gz : Nntp ReplyServer Bytes) :=
  raises_readMultilineBodyMaybeDecompress notRefusal_transmitted gz

theorem raises_bodyBounded (gz : GzDecoder) (maxBytes : Nat) : Raises NotRefusal
    (readMultilineBodyMaybeDecompressBounded gz maxBytes : Nntp ReplyServer Bytes) :=
  raises_readMultilineBodyMaybeDecompressBounded notRefusal_transmitted (fun _ => rfl)
    (fun _ => rfl) gz maxBytes

theorem raises_readBlockWithLimit (gz : GzDecoder) (limit : Option Nat) :
    Raises NotRefusal (readBlockWithLimit gz limit : Nntp ReplyServer Bytes) := by
  cases limit with
  | some maximum => exact raises_bodyBounded gz maximum
  | none => exact raises_body gz

/-! ### The errors of the parsers -/

def Garbled {α : Type} (r : NntpResult α) : Prop := ∀ e, r = .error e → ∃ text, e = .protocol text

theorem garbled_ok {α : Type} (a : α) : Garbled (.ok a) := fun _ h => by cases h

theorem garbled_protocol {α : Type} (text : String) : Garbled (.error (.protocol text) : NntpResult α) :=
  fun _ h => ⟨text, (Except.error.inj h).symm⟩

theorem garbled_bind {α β : Type} {r : NntpResult α} {f : α → NntpResult β} (hr : Garbled r)
    (hf : ∀ a, Garbled (f a)) : Garbled (r >>= f) := by
  cases r with
  | ok a => exact hf a
  | error e => exact fun _ h => hr _ (congrArg Except.error (Except.error.inj h))

theorem garbled_ite {α : Type} {c : Prop} [Decidable c] {r r' : NntpResult α} (hr : Garbled r)
    (hr' : Garbled r') : Garbled (if c then r else r') := by
  split
  · exact hr
  · exact hr'

theorem garbled_parseGroup (name message : String) : Garbled (parseGroup name message) := by
  unfold parseGroup
  split
  · exact garbled_ok _
  · exact garbled_protocol _

theorem garbled_checkDescriptor (index : Nat) (field : Bytes) :
    Garbled (Overview.checkDescriptor index field) := by
  refine garbled_ite (garbled_bind (garbled_protocol _) fun _ => ?_) ?_
  all_goals
    split
    · exact garbled_ite (garbled_protocol _) (garbled_ok _)
    · exact garbled_ok _

theorem garbled_checkDescriptors (index : Nat) (fields : List Bytes) :
    Garbled (Overview.checkDescriptors index fields) := by
  induction fields generalizing index with
  | nil => exact garbled_ok ()
  | cons field fields ih => exact garbled_bind (garbled_checkDescriptor _ _) fun _ => ih _

theorem garbled_parseOverviewFormat (data : Bytes) :
    Garbled (Overview.parseOverviewFormat data) := by
  have hfields : Garbled (do
      Overview.checkDescriptors 0 (Overview.wireLines data)
      return ({ fields := Overview.wireLines data } : OverviewFormat)) :=
    garbled_bind (garbled_checkDescriptors _ _) fun _ => garbled_ok _
  refine garbled_ite (garbled_bind (garbled_protocol _) fun _ => ?_) ?_
  all_goals exact garbled_ite (garbled_bind (garbled_protocol _) fun _ => hfields) hfields

/-! ### The handlers -/

variable {gz : GzDecoder}

theorem settles_fetchArticle {mid : String} (hmid : OneLine mid) (hw : AtRest w) :
    wp (fetchArticle gz mid) (settles _ false w) w := by
  have hexp := expects_article (normalizeMessageId mid)
  refine settles_command
    (oneLine_append.mpr ⟨by decide, oneLine_normalizeMessageId hmid⟩) hw ?_
  intro status w' h
  split
  case h_1 hcode =>
    rw [hcode] at h
    exact settles_block h hexp (raises_body gz) wp_readMultilineBodyMaybeDecompress_owes
      fun _ _ hw' => settles_returnReady hw'
  case h_12 => exact settles_failIn_error (notRefusal_unexpected _ _)
  all_goals first
    | exact settles_failIn_error rfl
    | exact settles_failIn_ready rfl (h.quiet hexp (by simp [*]))

theorem settles_fetchHeadNumber {n maxHeaderBytes : Nat} (hw : AtRest w) :
    wp (fetchHeadNumber gz n maxHeaderBytes) (settles _ false w) w := by
  have hexp := expects_head n
  rw [fetchHeadNumber, wp_bind, wp_get]
  dsimp only
  split
  · exact settles_check hw
  split
  · exact settles_check hw
  refine settles_command (oneLine_append.mpr ⟨by decide, oneLine_nat n⟩) hw ?_
  intro status w' h
  split
  case h_1 hcode =>
    rw [hcode] at h
    exact settles_block h hexp (raises_bodyBounded gz _) wp_readMultilineBodyMaybeDecompressBounded_owes
      fun _ _ hw' => settles_returnReady hw'
  all_goals first
    | exact settles_failIn_error rfl
    | exact settles_failIn_ready rfl (h.quiet hexp (by simp [*]))

theorem settles_statArticle {mid : String} (hmid : OneLine mid) (hw : AtRest w) :
    wp (statArticle mid) (settles _ false w) w := by
  have hexp := expects_stat (normalizeMessageId mid)
  rw [statArticle, wp_bind, wp_get]
  dsimp only
  split
  · exact settles_refuse rfl hw
  refine settles_command
    (oneLine_append.mpr ⟨by decide, oneLine_normalizeMessageId hmid⟩) hw ?_
  intro status w' h
  have hquiet := h.quiet hexp (by simp)
  split
  case h_1 => exact settles_returnReady hquiet
  case h_2 => exact settles_failIn_ready rfl hquiet
  all_goals exact settles_failIn_error rfl

theorem settles_ping (hw : AtRest w) : wp ping (settles _ false w) w := by
  refine settles_command (by decide) hw ?_
  intro status w' h
  split
  case h_7 => exact settles_returnReady (h.quiet expects_date (by simp))
  all_goals exact settles_failIn_error rfl

theorem settles_group {name : String} (hname : OneLine name) (hw : AtRest w) :
    wp (group name) (settles _ true w) w := by
  refine settles_command (oneLine_append.mpr ⟨by decide, hname⟩) hw ?_
  intro status w' h
  have hrest : AtRest (w'.setState .ready) := (h.quiet (expects_group name) (by simp)).atRest
  rw [setState, wp_bind, wp_modify]
  dsimp only
  split
  case h_1 => exact settles_ofExcept hrest (garbled_parseGroup _ _)
  case h_2 => exact settles_refuse rfl hrest
  all_goals exact settles_failIn_error rfl

theorem settles_overviewFormat (hw : AtRest w) : wp (overviewFormat gz) (settles _ true w) w := by
  refine settles_command (by decide) hw ?_
  intro status w' h
  split
  case h_1 hcode =>
    rw [hcode] at h
    refine settles_block h expects_overviewFmt (raises_body gz) wp_readMultilineBodyMaybeDecompress_owes ?_
    intro data w'' hw''
    exact settles_ofExcept hw''.atRest (garbled_parseOverviewFormat _)
  all_goals exact settles_failIn_error rfl

theorem wp_readBlockWithLimit_owes {limit : Option Nat} (hw : At .busy (OwesBlock []) w) :
    wp (readBlockWithLimit gz limit) (ioPost .busy fun _ => Owes []) w := by
  cases limit with
  | some maximum => exact wp_readMultilineBodyMaybeDecompressBounded_owes hw
  | none => exact wp_readMultilineBodyMaybeDecompress_owes hw

theorem oneLine_range (verb : String) (hverb : OneLine verb) (start stop : Nat) :
    OneLine (verb ++ toString start ++ "-" ++ toString stop) := by
  simp only [oneLine_append]
  exact ⟨⟨⟨hverb, oneLine_nat start⟩, by decide⟩, oneLine_nat stop⟩

theorem settles_xoverLosslessWithLimit {start stop : Nat} {format : OverviewFormat}
    {limit : Option Nat} (hw : AtRest w) :
    wp (xoverLosslessWithLimit gz start stop format limit) (settles _ false w) w := by
  have hexp := expects_xover start stop
  refine settles_command (oneLine_range "XOVER " (by decide) start stop) hw ?_
  intro status w' h
  split
  case h_1 hcode =>
    rw [hcode] at h
    exact settles_block h hexp (raises_readBlockWithLimit gz _) wp_readBlockWithLimit_owes fun _ _ hw' => settles_returnReady hw'
  all_goals first
    | exact settles_failIn_error rfl
    | exact settles_failIn_ready rfl (h.quiet hexp (by simp [*]))
    | exact settles_returnReady (h.quiet hexp (by simp [*]))

theorem settles_xover {start stop : Nat} (hw : AtRest w) :
    wp (xover gz start stop) (settles _ false w) w := by
  have hexp := expects_xover start stop
  refine settles_command (oneLine_range "XOVER " (by decide) start stop) hw ?_
  intro status w' h
  split
  case h_1 hcode =>
    rw [hcode] at h
    exact settles_block h hexp (raises_body gz) wp_readMultilineBodyMaybeDecompress_owes
      fun _ _ hw' => settles_returnReady hw'
  all_goals first
    | exact settles_failIn_error rfl
    | exact settles_failIn_ready rfl (h.quiet hexp (by simp [*]))
    | exact settles_returnReady (h.quiet hexp (by simp [*]))

theorem settles_xhdr {header : String} {range : ArticleRange} (hheader : OneLine header)
    (hrange : OneLine range.toCommandArg) (hw : AtRest w) :
    wp (xhdr gz header range) (settles _ false w) w := by
  have hexp := expects_xhdr header range.toCommandArg
  have hcmd : OneLine s!"XHDR {header} {range.toCommandArg}" := by
    simp only [oneLine_append]
    exact ⟨⟨⟨by decide, hheader⟩, by decide⟩, hrange⟩
  refine settles_command hcmd hw ?_
  intro status w' h
  split
  case h_1 hcode =>
    rw [hcode] at h
    exact settles_block h hexp (raises_body gz) wp_readMultilineBodyMaybeDecompress_owes
      fun _ _ hw' => settles_returnReady hw'
  all_goals first
    | exact settles_failIn_error rfl
    | exact settles_failIn_ready rfl (h.quiet hexp (by simp [*]))
    | exact settles_returnReady (h.quiet hexp (by simp [*]))

theorem settles_xpatWithLimit {header : String} {range : ArticleRange} {patterns : List String}
    {limit : Option Nat} (hheader : OneLine header) (hrange : OneLine range.toCommandArg)
    (hpatterns : ∀ pattern ∈ patterns, OneLine pattern) (hw : AtRest w) :
    wp (xpatWithLimit gz header range patterns limit) (settles _ false w) w := by
  let patternStr := " ".intercalate patterns
  have hexp := expects_xpat header range.toCommandArg patternStr
  have hcmd : OneLine s!"XPAT {header} {range.toCommandArg} {patternStr}" := by
    simp only [oneLine_append]
    exact ⟨⟨⟨⟨⟨by decide, hheader⟩, by decide⟩, hrange⟩, by decide⟩,
      oneLine_intercalate hpatterns⟩
  rw [xpatWithLimit, wp_bind]
  refine wp_requireReady hw.1 ?_
  dsimp only
  split
  · exact settles_check hw
  refine settles_request hcmd hw ?_
  intro status w' h
  split
  case h_1 hcode =>
    rw [hcode] at h
    exact settles_block h hexp (raises_readBlockWithLimit gz _) wp_readBlockWithLimit_owes fun _ _ hw' => settles_returnReady hw'
  all_goals first
    | exact settles_failIn_error rfl
    | exact settles_failIn_ready rfl (h.quiet hexp (by simp [*]))
    | exact settles_returnReady (h.quiet hexp (by simp [*]))

theorem settles_fetchBody {mid : String} (hmid : OneLine mid) (hw : AtRest w) :
    wp (fetchBody gz mid) (settles _ false w) w := by
  have hexp := expects_body (normalizeMessageId mid)
  rw [fetchBody, wp_bind, wp_get]
  dsimp only
  split
  · exact wp_seq (settles_fetchArticle hmid hw) (fun _ _ h => h) (fun _ _ h => h) (fun _ h => h)
  refine settles_command
    (oneLine_append.mpr ⟨by decide, oneLine_normalizeMessageId hmid⟩) hw ?_
  intro status w' h
  split
  case h_1 hcode =>
    rw [hcode] at h
    exact settles_block h hexp (raises_body gz) wp_readMultilineBodyMaybeDecompress_owes
      fun _ _ hw' => settles_returnReady hw'
  all_goals first
    | exact settles_failIn_error rfl
    | exact settles_failIn_ready rfl (h.quiet hexp (by simp [*]))

theorem settles_listActive {wildmat : Option String}
    (hwildmat : ∀ pattern, wildmat = some pattern → OneLine pattern) (hw : AtRest w) :
    wp (listActive gz wildmat) (settles _ false w) w := by
  have hexp := expects_listActive wildmat
  refine settles_command (oneLine_listActiveCommand hwildmat) hw ?_
  intro status w' h
  split
  case h_1 hcode =>
    rw [hcode] at h
    exact settles_block h hexp (raises_body gz) wp_readMultilineBodyMaybeDecompress_owes
      fun _ _ hw' => settles_returnReady hw'
  all_goals exact settles_failIn_error rfl

def Retired (w : World ReplyServer) : Prop := InState .disconnected w ∧ w.conn.transport = none

/-- The ending of `fetch_body_prefix`, which retires the connection when it
returns with an unfinished prefix. -/
def settlesOrRetires (w₀ : World ReplyServer) :
    Post NntpError (World ReplyServer) BodyPrefixResponse :=
  ⟨fun result w => if result.complete then AtRest w else Retired w, Fails false w₀,
    InState .busy⟩

theorem raises_readMultilineBodyPrefix (maxBytes : Nat) : Raises NotRefusal
    (readMultilineBodyPrefix maxBytes : Nntp ReplyServer BodyPrefixResponse) := fun _ =>
  raises_prefixLoop notRefusal_transmitted (fun _ => rfl) (fun _ => rfl) _ _ _ _

theorem wp_readMultilineBodyPrefix_owes {maxBytes : Nat} (hw : At .busy (OwesBlock []) w) :
    wp (readMultilineBodyPrefix maxBytes)
      (ioPost .busy fun result t => result.complete = true → Owes [] t) w :=
  wp_prefixLoop_owes w.lineFuel [] hw

theorem wp_retireUnlessComplete {result : BodyPrefixResponse} {w₀ : World ReplyServer}
    (hw : At .busy (fun t => result.complete = true → Owes [] t) w) :
    wp (retireUnlessComplete result) (settlesOrRetires w₀) w := by
  rw [retireUnlessComplete]
  split
  · rename_i hcomplete
    have hrest : AtRest (w.setState .ready) := (hw.mono fun _ ht => ht hcomplete).atRest
    simpa [returnReady, setState, settlesOrRetires, hcomplete] using hrest
  · rename_i hcomplete
    simp only [setState, wp_bind, wp_modify, wp_pure, settlesOrRetires, if_neg hcomplete]
    exact ⟨rfl, rfl⟩

theorem settles_fetchBodyPrefix {mid : String} {maxBytes : Nat} (hmid : OneLine mid)
    (hw : AtRest w) : wp (fetchBodyPrefix mid maxBytes) (settlesOrRetires w) w := by
  have hexp := expects_body (normalizeMessageId mid)
  rw [fetchBodyPrefix, wp_bind, wp_get]
  dsimp only
  split
  · exact .inr ⟨hw, .inl rfl⟩
  split
  · exact hw
  split
  · exact hw
  rw [wp_bind]
  refine wp_requireReady hw.1 ?_
  refine wp_seq
    (wp_request (oneLine_append.mpr ⟨by decide, oneLine_normalizeMessageId hmid⟩) hw) ?_
    (fun _ _ h => fails_of_error h.1 h.2) (fun _ h => h)
  intro status w' (h : Answered _ status.code w')
  have hready : ∀ {e : NntpError}, e.isRefusal = true → some 222 ≠ some status.code →
      wp (failIn .ready e) (settlesOrRetires w) w' := fun he hcode =>
    fails_of_refusal he (h.quiet hexp hcode).atRest
  have herror : ∀ {e : NntpError}, NotRefusal e → wp (failIn .error e) (settlesOrRetires w) w' :=
    fun he => fails_of_error he rfl
  split
  case h_1 hcode =>
    rw [hcode] at h
    have hblock : At .busy (OwesBlock []) w' := h.mono fun _ ht => ht.block hexp
    have hread := wp_orError (@wp_readMultilineBodyPrefix_owes _ maxBytes hblock)
    have hraises : Raises NotRefusal (orError (readMultilineBodyPrefix maxBytes)) :=
      raises_inspectErr (raises_readMultilineBodyPrefix maxBytes) _
    refine wp_seq (wp_and (hraises w') hread) ?_ (fun _ _ h => fails_of_error h.1 h.2)
      (fun _ h => h.2)
    exact fun _ _ hw' => wp_retireUnlessComplete hw'.2
  all_goals first
    | exact herror rfl
    | exact hready rfl (by simp [*])

end Handlers

end NzbNntp
