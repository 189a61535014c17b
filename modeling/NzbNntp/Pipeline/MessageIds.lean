import NzbNntp.Pipeline.Agreement
import NzbNntp.Pipeline.Lines

/-!
How a message-id is written. The rule that puts it in angle brackets stands in the
source three times: `normalize_message_id`, and a copy in each of the pipelines. The
copy of `flush_sends` looks at the first character only, so an id that opens a bracket
and does not close it goes out as it is, where the others bracket it once more.
-/

namespace NzbNntp

open Interruptible

def statMid (mid : String) : String :=
  if mid.toList.head? = some '<' ∧ mid.toList.getLast? = some '>' then mid else s!"<{mid}>"

inductive Encoder where
  | connection
  | pipeline
  | statPipeline

def Encoder.token : Encoder → String → String
  | .connection, mid => normalizeMessageId mid
  | .pipeline, mid => PipelineRequest.mid { messageId := mid, tag := 0 }
  | .statPipeline, mid => statMid mid

/-- The copies write the id alike, in brackets, and leave what they have written. -/
structure EncodersAgree (mid : String) : Prop where
  same : ∀ p q : Encoder, p.token mid = q.token mid
  bracketed : ∀ p : Encoder, Bracketed (p.token mid)
  again : ∀ p : Encoder, p.token (p.token mid) = p.token mid

/-- The id opens a bracket, and does not end in a closing one. -/
def Unclosed (mid : String) : Prop :=
  mid.toList.head? = some '<' ∧ mid.toList.getLast? ≠ some '>'

instance : DecidablePred Unclosed := fun mid =>
  inferInstanceAs (Decidable (mid.toList.head? = some '<' ∧ mid.toList.getLast? ≠ some '>'))

section Tokens

variable {mid : String}

theorem bracketed_wrapped : Bracketed s!"<{mid}>" := by
  have htext : (s!"<{mid}>").toList = '<' :: (mid.toList ++ ['>']) := by simp
  constructor
  · rw [htext, List.head?_cons]
  · rw [htext, ← List.cons_append, List.getLast?_concat]

theorem bracketed_normalizeMessageId : Bracketed (normalizeMessageId mid) := by
  unfold normalizeMessageId
  split
  · rename_i h
    exact h
  · exact bracketed_wrapped

theorem pipelineToken_of_not_unclosed (h : ¬ Unclosed mid) :
    Encoder.pipeline.token mid = normalizeMessageId mid := by
  show (if mid.toList.head? = some '<' then mid else s!"<{mid}>") = _
  unfold normalizeMessageId
  by_cases hopen : mid.toList.head? = some '<'
  · have hclosed : mid.toList.getLast? = some '>' := by
      by_contra hlast
      exact h ⟨hopen, hlast⟩
    rw [if_pos hopen, if_pos ⟨hopen, hclosed⟩]
  · rw [if_neg hopen, if_neg fun hboth => hopen hboth.1]

theorem pipelineToken_of_unclosed (h : Unclosed mid) : Encoder.pipeline.token mid = mid :=
  if_pos h.1

theorem Bracketed.not_unclosed (h : Bracketed mid) : ¬ Unclosed mid := fun hopen => hopen.2 h.2

theorem token_of_not_unclosed (h : ¬ Unclosed mid) (p : Encoder) :
    p.token mid = normalizeMessageId mid := by
  cases p with
  | connection => rfl
  | pipeline => exact pipelineToken_of_not_unclosed h
  | statPipeline => rfl

theorem encodersAgree_iff : EncodersAgree mid ↔ ¬ Unclosed mid := by
  constructor
  · intro hagree hopen
    have hbracketed := hagree.bracketed .pipeline
    rw [pipelineToken_of_unclosed hopen] at hbracketed
    exact hbracketed.not_unclosed hopen
  · intro hclosed
    have hbracketed : Bracketed (normalizeMessageId mid) := bracketed_normalizeMessageId
    refine ⟨fun p q => ?_, fun p => ?_, fun p => ?_⟩
    · rw [token_of_not_unclosed hclosed p, token_of_not_unclosed hclosed q]
    · rw [token_of_not_unclosed hclosed p]
      exact hbracketed
    · rw [token_of_not_unclosed hclosed p, token_of_not_unclosed hbracketed.not_unclosed p]
      exact normalizeMessageId_of_bracketed hbracketed

end Tokens

/-- **The copies agree on every id but an unclosed one.** A call, a `flush_sends` and an
`execute` add to the wire the message-ids that they ask for, each as its own copy of the
rule writes it, or a part of these lines. The copies write an id alike, in brackets, and
leave it as it is once it is written, exactly if it is not one that opens a bracket and
does not close it. -/
theorem message_ids_agree {π : Type} [Peer π] (gz : GzDecoder) (w : World π) :
    (∀ mid, EncodersAgree mid ↔ ¬ Unclosed mid) ∧
    (∀ mid, ∀ c ∈ [Call.fetchArticle mid, .fetchBody mid, .statArticle mid],
      ∃ verb ∈ ["ARTICLE", "BODY", "STAT"], wp (c.run gz)
        (speaks w.wire [] (commandLine s!"{verb} {Encoder.connection.token mid}")) w) ∧
    (∀ p : Pipeline, wp flushSends (speaksIn w.wire [] (commandLines
      ((p.pending.take p.sends).map fun req =>
        s!"ARTICLE {Encoder.pipeline.token req.messageId}"))) (p, w)) ∧
    ∀ p : StatPipeline, wp execute (speaksIn w.wire [] (commandLines
      (p.pending.map fun mid => s!"STAT {Encoder.statPipeline.token mid}"))) (p, w) := by
  have h := onWire_nil w
  refine ⟨fun mid => encodersAgree_iff, fun mid => ?_, fun p => ?_, fun p => speaks_execute h⟩
  · simp only [List.forall_mem_cons]
    refine ⟨⟨"ARTICLE", by simp, Call.speaks_run _ rfl h⟩, ?_,
      ⟨"STAT", by simp, Call.speaks_run _ rfl h⟩, by simp⟩
    have hbody : wp ((Call.fetchBody mid).run gz)
        (speaks w.wire [] (commandLine (fetchBodyCommand w.conn.capabilities mid))) w :=
      Call.speaks_run _ rfl h
    rw [fetchBodyCommand] at hbody
    split at hbody
    · exact ⟨"ARTICLE", by simp, hbody⟩
    · exact ⟨"BODY", by simp, hbody⟩
  · have hlines : requestLines (p.pending.take p.sends) = commandLines
        ((p.pending.take p.sends).map fun req =>
          s!"ARTICLE {Encoder.pipeline.token req.messageId}") := by
      rw [commandLines, List.map_map]
      rfl
    rw [← hlines]
    exact speaks_flushSends h

/-- An id that is closed and not opened is bracketed once more, by all. -/
theorem message_ids_agree_on_half_closed : EncodersAgree "é@test>" :=
  ((message_ids_agree rawDecoder (.readyTo emptyServer)).1 "é@test>").mpr (by decide)

/-- The pipeline asks for another article. -/
theorem unclosed_id_differs :
    Encoder.pipeline.token "<abc@test" = "<abc@test" ∧
      Encoder.connection.token "<abc@test" = "<<abc@test>" ∧
      Encoder.statPipeline.token "<abc@test" = "<<abc@test>" ∧ ¬ EncodersAgree "<abc@test" := by
  refine ⟨by decide, by decide, by decide, fun hagree => ?_⟩
  exact absurd (encodersAgree_iff.mp hagree) (by decide)

end NzbNntp
