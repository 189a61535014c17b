import NzbNntp.Connection.Status
import NzbNntp.Pipeline.Basic

/-!
Rules for the calls of a pipeline. A condition on the connection stays in force
throughout a call if no read touches it, the `ARTICLE` commands may be written, and
it admits the state `Error`, the only one that a pipeline sets.
-/

namespace NzbNntp

open Interruptible

variable {π : Type} {P : World π → Prop}

theorem preserves_refuseIn {α : Type} {s : ConnectionState} (hstate : ∀ w, P w → P (w.setState s))
    (e : NntpError) : Preserves P (refuseIn s e : Nntp π (NntpResult α)) :=
  preserves_bind (preserves_modify hstate) fun _ => preserves_pure _

variable [ReadStable P]

/-- What the read of the status line establishes, the rest of a reply keeps. -/
theorem wp_readReply_always (herror : ∀ w, P w → P (w.setState .error)) {w : World π}
    (hstatus : wp readResponseLine (always P) w) (request : PipelineRequest) :
    wp (readReply request) (always P) w := by
  have hread : wp (orError readResponseLine) (always P) w := by
    rw [orError, wp_inspectErr]
    exact wp_mono hstatus (fun _ _ h => h) (fun _ _ h => herror _ h) (fun _ h => h)
  refine wp_seq hread (fun status w' h => ?_) (fun _ _ h => h) (fun _ h => h)
  revert w'
  change Preserves P _
  split
  case h_1 =>
    refine preserves_bind (preserves_attempt preserves_readMultilineBody) fun data => ?_
    split
    · exact preserves_pure _
    · exact preserves_refuseIn herror _
  case h_2 | h_3 | h_4 | h_5 | h_6 => exact preserves_pure _
  all_goals exact preserves_refuseIn herror _

theorem preserves_readReply (herror : ∀ w, P w → P (w.setState .error))
    (request : PipelineRequest) : Preserves P (readReply request : Nntp π _) :=
  fun w hw => wp_readReply_always herror (preserves_readResponseLine w hw) request

/-- The same for the oldest request in flight. -/
theorem wp_receiveOne_always (herror : ∀ w, P w → P (w.setState .error))
    {s : Pipeline × World π} (hne : s.1.inFlight ≠ [])
    (hstatus : wp readResponseLine (always P) s.2) :
    wp receiveOne (always fun s => P s.2) s := by
  rw [receiveOne, wp_bind, wp_get]
  dsimp only
  split
  · contradiction
  · simp only [modifyPipeline, wp_bind, wp_modify, wp_onSnd]
    exact wp_readReply_always herror hstatus _

theorem preserves_receiveOne (herror : ∀ w, P w → P (w.setState .error)) :
    Preserves (fun s => P s.2) (receiveOne : Piped π _) := by
  refine preserves_bind preserves_get fun s => ?_
  split
  · exact preserves_pure _
  · exact preserves_bind (preserves_modify fun _ h => h) fun _ =>
      preserves_bind (preserves_onSnd (preserves_readReply herror _)) fun _ => preserves_pure _

variable [Peer π]

omit [ReadStable P] in
theorem preserves_flushLoop (herror : ∀ w, P w → P (w.setState .error))
    (hadmits : ∀ cmd, Admits P (commandLine cmd)) (fuel : Nat) :
    Preserves (fun s => P s.2) (flushLoop fuel : Piped π _) := by
  induction fuel with
  | zero => exact preserves_pure _
  | succ fuel ih =>
      refine preserves_bind preserves_get fun s => ?_
      split
      · split
        · exact preserves_pure _
        · exact preserves_bind (preserves_modify fun _ h => h) fun _ =>
            preserves_bind
              (preserves_onSnd
                (preserves_orError (preserves_sendCommandNoFlush_of (hadmits _)) herror))
              fun _ => preserves_bind (preserves_modify fun _ h => h) fun _ =>
                preserves_bind ih fun _ => preserves_pure _
      · exact preserves_pure _

theorem preserves_flushSends (herror : ∀ w, P w → P (w.setState .error))
    (hadmits : ∀ cmd, Admits P (commandLine cmd)) :
    Preserves (fun s => P s.2) (flushSends : Piped π _) := by
  refine preserves_bind preserves_get fun s =>
    preserves_bind (preserves_flushLoop herror hadmits _) fun sent => ?_
  split
  · exact preserves_onSnd (preserves_orError preserves_flush herror)
  · exact preserves_pure _

omit [ReadStable P] in
/-- One round: after the flush, `P` is there already or comes with the next reply. -/
theorem wp_round_always {fuel : Nat} {results : List PipelineResult} {s : Pipeline × World π}
    (hrest : ∀ results, Preserves (fun s => P s.2) (processLoop fuel results : Piped π _))
    (hflush : wp flushSends
      ⟨fun _ s₁ => (s₁.1.inFlight = [] → P s₁.2) ∧ wp receiveOne (always fun s => P s.2) s₁,
        fun _ s₁ => P s₁.2, fun s₁ => P s₁.2⟩ s) :
    wp (processLoop (fuel + 1) results) (always fun s => P s.2) s := by
  rw [processLoop]
  refine wp_seq hflush ?_ (fun _ _ h => h) (fun _ h => h)
  rintro _ s₁ ⟨hidle, hreceive⟩
  rw [wp_bind, wp_get]
  dsimp only
  split
  · rename_i hempty
    exact hidle (List.isEmpty_iff.mp hempty)
  · refine wp_seq hreceive (fun result s₂ h => ?_) (fun _ _ h => h) (fun _ h => h)
    split
    · exact hrest _ s₂ h
    · split
      · exact h
      · exact hrest _ s₂ h

theorem preserves_processLoop (herror : ∀ w, P w → P (w.setState .error))
    (hadmits : ∀ cmd, Admits P (commandLine cmd)) (fuel : Nat) (results : List PipelineResult) :
    Preserves (fun s => P s.2) (processLoop fuel results : Piped π _) := by
  induction fuel generalizing results with
  | zero => exact preserves_pure _
  | succ fuel ih =>
      intro s hs
      exact wp_round_always ih (wp_mono (preserves_flushSends herror hadmits s hs)
        (fun _ s₁ h => ⟨fun _ => h, preserves_receiveOne herror s₁ h⟩) (fun _ _ h => h)
        (fun _ h => h))

end NzbNntp
