import NzbNntp.Connection.Lines
import NzbNntp.Pipeline.Fifo
import NzbNntp.Pipeline.Stat

/-!
What the pipelines put on the wire: the lines of the commands that they send, in
order, or the beginning of these lines where a write is cut short.
-/

namespace NzbNntp

open Interruptible Chunks

section Lines

variable {π : Type} [Peer π] {w : World π} {base : Option Bytes} {sent : Bytes}

/-- What a computation on a pipeline and its connection adds to the wire. -/
def speaksIn {ρ α : Type} (base : Option Bytes) (sent line : Bytes) :
    Post NntpError (ρ × World π) α where
  ok _ s := OnWire base (sent ++ line) s.2
  err _ s := PartOnWire base sent line s.2
  dropped s := PartOnWire base sent line s.2

theorem requestLines_cons (req : PipelineRequest) (requests : List PipelineRequest) :
    requestLines (req :: requests) = req.line ++ requestLines requests := rfl

/-- The loop of `flush_sends`, by induction on the requests that it sends. -/
theorem speaks_flushLoop (fuel : Nat) {p : Pipeline} (hfuel : p.pending.length = fuel)
    (h : OnWire base sent w) :
    wp (flushLoop fuel) (speaksIn base sent (requestLines (p.pending.take p.sends))) (p, w) := by
  induction fuel generalizing p w sent with
  | zero =>
      have hsends : p.sends = 0 := by simp [Pipeline.sends, hfuel]
      rw [wp, flushLoop_idle hsends, hsends]
      show OnWire base (sent ++ []) w
      rwa [List.append_nil]
  | succ fuel ih =>
      by_cases hsends : p.sends = 0
      · rw [wp, flushLoop_idle hsends, hsends]
        show OnWire base (sent ++ []) w
        rwa [List.append_nil]
      · obtain ⟨hroom, req, rest, hpending⟩ := Pipeline.exists_pending hsends
        have hlen : rest.length = fuel := by
          rw [hpending, List.length_cons] at hfuel
          omega
        have hsplit : requestLines (p.pending.take p.sends) =
            req.line ++ requestLines (rest.take (p.sendFirst req rest).sends) := by
          rw [hpending, sends_sendFirst hroom hpending, List.take_succ_cons, requestLines_cons]
        rw [wp_flushLoop_succ hroom hpending, hsplit]
        refine wp_mono (speaks_sendCommandNoFlush h) (fun _ w' h' => ?_) (fun _ _ h' => ?_)
          (fun _ h' => ?_)
        · refine wp_mono (ih (p := p.sendFirst req rest) hlen h') (fun _ s h'' => ?_)
            (fun _ s h'' => ?_) (fun s h'' => ?_)
          · show OnWire base (sent ++ (req.line ++ _)) s.2
            rw [← List.append_assoc]
            exact h''
          · exact PartOnWire.right h''
          · exact PartOnWire.right h''
        · exact PartOnWire.left h' _
        · exact PartOnWire.left h' _

theorem speaks_flushSends {p : Pipeline} (h : OnWire base sent w) :
    wp flushSends (speaksIn base sent (requestLines (p.pending.take p.sends))) (p, w) := by
  rw [flushSends, wp_bind, wp_get]
  refine wp_seq (speaks_flushLoop _ rfl h) (fun n s h' => ?_) (fun _ _ h => h) (fun _ h => h)
  split
  · rw [wp_onSnd]
    have hflush : Preserves (OnWire base (sent ++ requestLines (p.pending.take p.sends)))
        (orError flush : Nntp π _) := preserves_orErrorIn preserves_flush
    exact wp_mono (hflush s.2 h') (fun _ _ h => h) (fun _ _ h => ⟨_, List.prefix_refl _, h⟩)
      (fun _ h => ⟨_, List.prefix_refl _, h⟩)
  · exact h'

def statCommandLines (ids : List String) : Bytes :=
  commandLines (ids.map fun mid => s!"STAT {normalizeMessageId mid}")

theorem speaks_statSends (ids : List String) (h : OnWire base sent w) :
    wp (statSends ids) (speaks base sent (statCommandLines ids)) w := by
  induction ids generalizing w sent with
  | nil => exact speaks_of_preserves (preserves_pure _) h
  | cons mid rest ih =>
      exact speaks_bind (speaks_orError (speaks_sendCommandNoFlush h)) fun _ _ h' => ih h'

omit [Peer π] in
theorem preserves_statReads {P : World π → Prop} [OfTransport P] (ids : List String)
    (results : List StatResult) : Preserves P (statReads ids results : Nntp π _) := by
  induction ids generalizing results with
  | nil => exact preserves_pure _
  | cons mid rest ih =>
      refine preserves_bind (preserves_orErrorIn preserves_readResponseLine) fun resp => ?_
      split
      case h_1 | h_2 => exact ih _
      all_goals exact preserves_failIn _ _

theorem preserves_statBatches {P : World π → Prop} [OfTransport P]
    (hadmits : ∀ cmd, Admits P (commandLine cmd)) (batches : List (List String))
    (results : List StatResult) : Preserves P (statBatches batches results : Nntp π _) := by
  have hsends : ∀ ids, Preserves P (statSends ids : Nntp π _) := by
    intro ids
    induction ids with
    | nil => exact preserves_pure _
    | cons mid rest ih =>
        exact preserves_bind
          (preserves_orErrorIn (preserves_sendCommandNoFlush_of (hadmits _))) fun _ => ih
  induction batches generalizing results with
  | nil => exact preserves_pure _
  | cons batch later ih =>
      exact preserves_bind (preserves_setState _) fun _ =>
        preserves_bind (hsends batch) fun _ =>
          preserves_bind (preserves_orErrorIn preserves_flush) fun _ =>
            preserves_bind (preserves_statReads batch results) fun _ =>
              preserves_bind (preserves_setState _) fun _ => ih _

theorem preserves_execute {P : World π → Prop} [OfTransport P]
    (hadmits : ∀ cmd, Admits P (commandLine cmd)) :
    Preserves (fun s => P s.2) (execute : Comp NntpError (StatPipeline × World π) _) :=
  preserves_bind preserves_get fun _ => preserves_bind (preserves_modify fun _ h => h) fun _ =>
    preserves_onSnd (preserves_statBatches hadmits _ _)

theorem speaks_statBatches (batches : List (List String)) (results : List StatResult)
    (h : OnWire base sent w) :
    wp (statBatches batches results) (speaks base sent (statCommandLines batches.flatten)) w := by
  induction batches generalizing w sent results with
  | nil => exact speaks_of_preserves (preserves_pure _) h
  | cons batch later ih =>
      have hsplit : statCommandLines (batch :: later).flatten =
          statCommandLines batch ++ statCommandLines later.flatten := by
        simp [statCommandLines, commandLines]
      rw [statBatches, hsplit]
      exact then_speaks (preserves_setState _) h fun _ _ h₁ =>
        speaks_bind (speaks_statSends batch h₁) fun _ _ h₂ =>
          then_speaks (preserves_orErrorIn preserves_flush) h₂ fun _ _ h₃ =>
            then_speaks (preserves_statReads batch results) h₃ fun _ _ h₄ =>
              then_speaks (preserves_setState _) h₄ fun _ _ h₅ => ih _ h₅

/-- `execute` adds the `STAT` lines of all ids queued. -/
theorem speaks_execute {p : StatPipeline} (h : OnWire base sent w) :
    wp execute (speaksIn base sent (statCommandLines p.pending)) (p, w) := by
  simp only [execute, wp_bind, wp_get, wp_modify, wp_onSnd]
  have hbatches := speaks_statBatches (chunks statBatchSize p.pending) [] h
  rw [flatten_chunks (by decide)] at hbatches
  exact hbatches

theorem PipelineRequest.oneLine_iff {req : PipelineRequest} :
    OneLine s!"ARTICLE {req.mid}" ↔ OneLine req.messageId := by
  refine (oneLine_prefixed (by decide)).trans ?_
  unfold PipelineRequest.mid
  split
  · exact Iff.rfl
  · show OneLine ("<" ++ req.messageId ++ ">") ↔ _
    rw [oneLine_append, and_iff_left (by decide), oneLine_prefixed (by decide)]

/-- The login is of one line for each of its commands exactly if the credentials it
sends are. -/
theorem oneLine_loginCommands_iff {config : ServerConfig} {username : String}
    (husername : config.username = some username) :
    (∀ cmd ∈ loginCommands config, OneLine cmd) ↔
      OneLine username ∧ ∀ password, config.password = some password → OneLine password := by
  rw [loginCommands, husername, passwordCommands]
  simp only [List.forall_mem_cons]
  refine and_congr (oneLine_prefixed (by decide)) ?_
  cases config.password with
  | none => simp
  | some password =>
      have hpass : OneLine (passCommand password) ↔ OneLine password := oneLine_prefixed (by decide)
      simpa using hpass

/-- **One call, one command line, if the arguments are of one line.** Whatever the
server does and however it ends, a call adds to the wire the line of its command, or
a part of it if it does not return `Ok`; so do a login, a `flush_sends` and an
`execute` with the lines of theirs, in order. An argument is written as it is given:
a line has one LF, its last byte, with a CR before it, exactly if the argument has
no LF in it. -/
theorem calls_write_command_lines (gz : GzDecoder) (w : World π) :
    (∀ (c : Call) (cmd : String), c.command w.conn.capabilities = some cmd →
      wp (c.run gz) (speaks w.wire [] (commandLine cmd)) w ∧
        (IsCommandLine (commandLine cmd) ↔ c.OneLineArgs)) ∧
    (∀ (config : ServerConfig) (username : String), config.username = some username →
      wp (authenticate config)
        ⟨fun _ w' => ∃ said, said <+: loginCommands config ∧ OnWire w.wire (commandLines said) w',
          fun _ => PartOnWire w.wire [] (commandLines (loginCommands config)),
          PartOnWire w.wire [] (commandLines (loginCommands config))⟩ w ∧
        ((∀ cmd ∈ loginCommands config, IsCommandLine (commandLine cmd)) ↔
          OneLine username ∧ ∀ password, config.password = some password → OneLine password)) ∧
    (∀ p : Pipeline,
      wp flushSends (speaksIn w.wire [] (requestLines (p.pending.take p.sends))) (p, w) ∧
        ∀ req : PipelineRequest, IsCommandLine req.line ↔ OneLine req.messageId) ∧
    ∀ p : StatPipeline, wp execute (speaksIn w.wire [] (statCommandLines p.pending)) (p, w) ∧
      ∀ mid, IsCommandLine (commandLine s!"STAT {normalizeMessageId mid}") ↔ OneLine mid := by
  have h := onWire_nil w
  refine ⟨fun c cmd hcmd => ?_, fun config username husername => ?_, fun p => ?_, fun p => ?_⟩
  · exact ⟨c.speaks_run hcmd h, isCommandLine_iff.trans (c.oneLine_command_iff hcmd)⟩
  · refine ⟨speaks_authenticate h, ?_⟩
    simp only [isCommandLine_iff]
    exact oneLine_loginCommands_iff husername
  · exact ⟨speaks_flushSends h, fun req => isCommandLine_iff.trans req.oneLine_iff⟩
  · refine ⟨speaks_execute h, fun mid => isCommandLine_iff.trans ?_⟩
    exact (oneLine_prefixed (by decide)).trans oneLine_normalizeMessageId_iff

end Lines

theorem calls_write_command_lines_on_group :
    wp ((Call.group "misc.test").run rawDecoder)
        (speaks (World.readyTo emptyServer).wire [] (commandLine "GROUP misc.test"))
        (.readyTo emptyServer) ∧
      (IsCommandLine (commandLine "GROUP misc.test") ↔ OneLine "misc.test") :=
  (calls_write_command_lines rawDecoder (.readyTo emptyServer)).1 (.group "misc.test") _ rfl

/-- An argument with an LF is not refused: it puts a second command line on the wire. -/
theorem group_can_write_two_lines :
    ¬ ∀ (c : Call) (cmd : String) (w : World ReplyServer),
      c.command w.conn.capabilities = some cmd →
      (c.run rawDecoder w).state.wire = w.wire ∨ IsCommandLine (commandLine cmd) := by
  intro h
  rcases h (.group "a\r\nPOST") _ (.readyTo emptyServer) rfl with hwire | hline
  · exact absurd hwire (by decide +kernel)
  · exact absurd (isCommandLine_iff.mp hline) (by decide)

end NzbNntp
