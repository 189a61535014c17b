import NzbNntp.Connection.Quiet
import NzbNntp.Pipeline.Basic

/-!
What the replies alone decide. `judge` reads one reply from a byte stream, and
`replay` goes through the requests and their replies in order, up to the first
fatal outcome. There are no queues and no depth in it: it is what a pipeline of
any depth has to compute.
-/

namespace NzbNntp

open Delimited

instance : DecidablePred HasTerminator := fun stream =>
  inferInstanceAs (Decidable (∃ l ∈ pieces lf stream, isTerminator l = true))

/-- The outcome of a request, and what its reply leaves of the stream. -/
structure Verdict where
  result : NntpResult NntpResponse
  left : Bytes

/-- The verdict on a request whose reply begins with `status` and goes on with
`stream`. -/
def judgeStatus (request : PipelineRequest) (status : NntpResponse) (stream : Bytes) : Verdict :=
  match status.code with
  | 220 =>
      if HasTerminator stream then
        { result := .ok { status with data := some (blockBody stream) }
          left := afterBlock stream }
      else
        { result := .error (.connection "Server closed connection during multi-line read")
          left := [] }
  | 430 => { result := .error (.articleNotFound request.messageId), left := stream }
  | 411 => { result := .error (.noSuchGroup status.message), left := stream }
  | 412 | 420 | 423 => { result := .error (.noArticleSelected status.message), left := stream }
  | 403 => { result := .error (.permissionDenied status.message), left := stream }
  | 480 => { result := .error (.authRequired status.message), left := stream }
  | 481 | 482 =>
      { result := .error (.auth s!"ARTICLE rejected ({status.code}): {status.message}")
        left := stream }
  | 502 => { result := .error (.serviceUnavailable status.message), left := stream }
  | _ =>
      { result := .error (unexpectedArticleResponse status.code status.message), left := stream }

/-- The verdict on a request by the stream with its reply; an error where there
is no status line on it. -/
def judge (request : PipelineRequest) (stream : Bytes) : Except NntpError Verdict :=
  (statusOf (firstLine stream)).map fun status =>
    judgeStatus request status (stream.drop (firstLine stream).length)

def retires : NntpResult NntpResponse → Bool
  | .ok _ | .error (.articleNotFound _) | .error (.noSuchGroup _)
  | .error (.noArticleSelected _) => false
  | _ => true

def PipelineRequest.line (request : PipelineRequest) : Bytes :=
  commandLine s!"ARTICLE {request.mid}"

structure Turn where
  request : PipelineRequest
  reply : Reply

def Turn.bytes (a : Turn) : Bytes := a.reply.bytesFor a.request.line

def Turn.arrived (a : Turn) (cut : Option Nat) : Bytes :=
  match cut with
  | none => a.bytes
  | some n => a.bytes.take n

/-- What `process_all` gives: its value, the state it leaves, the bytes it has
consumed. -/
structure Replayed where
  value : NntpResult (List PipelineResult)
  state : ConnectionState
  consumed : Bytes

def Replayed.before (r : Replayed) (result : PipelineResult) (bytes : Bytes) : Replayed where
  value := r.value.map (result :: ·)
  state := r.state
  consumed := bytes ++ r.consumed

def ConnectionState.after (s : ConnectionState) (result : NntpResult NntpResponse) :
    ConnectionState :=
  if retires result then .error else s

theorem ConnectionState.after_unexpected (s : ConnectionState) (code : Nat) (message : String) :
    s.after (.error (unexpectedArticleResponse code message)) = .error := by
  unfold unexpectedArticleResponse
  split <;> rfl

/-- The requests judged in order, each by what arrives of its own reply. -/
def replay (s : ConnectionState) (cut : Option Nat) : List Turn → Replayed
  | [] => { value := .ok [], state := s, consumed := [] }
  | a :: rest =>
      match judge a.request (a.arrived cut) with
      | .error e => { value := .error e, state := .error, consumed := firstLine (a.arrived cut) }
      | .ok verdict =>
          if isFatal verdict.result then
            { value := .ok ({ request := a.request, result := verdict.result } ::
                rest.map fun b => aborted b.request)
              state := s.after verdict.result
              consumed := a.arrived cut }
          else
            (replay (s.after verdict.result) (cut.map (· - a.bytes.length)) rest).before
              { request := a.request, result := verdict.result } (a.arrived cut)

section Replay

variable {s : ConnectionState} {cut : Option Nat} {a : Turn} {rest : List Turn} {verdict : Verdict}

theorem replay_unreadable {e : NntpError} (h : judge a.request (a.arrived cut) = .error e) :
    replay s cut (a :: rest) =
      { value := .error e, state := .error, consumed := firstLine (a.arrived cut) } := by
  rw [replay, h]

theorem replay_fatal (h : judge a.request (a.arrived cut) = .ok verdict)
    (hfatal : isFatal verdict.result = true) :
    replay s cut (a :: rest) =
      { value := .ok ({ request := a.request, result := verdict.result } ::
          rest.map fun b => aborted b.request)
        state := s.after verdict.result
        consumed := a.arrived cut } := by
  rw [replay, h]
  exact if_pos hfatal

theorem replay_next (h : judge a.request (a.arrived cut) = .ok verdict)
    (hgoes : ¬ isFatal verdict.result = true) :
    replay s cut (a :: rest) =
      (replay (s.after verdict.result) (cut.map (· - a.bytes.length)) rest).before
        { request := a.request, result := verdict.result } (a.arrived cut) := by
  rw [replay, h]
  exact if_neg hgoes

end Replay

/-- Every request has one entry, in order. -/
theorem replay_requests {s : ConnectionState} {cut : Option Nat} {turns : List Turn}
    {results : List PipelineResult} (h : (replay s cut turns).value = .ok results) :
    results.map (·.request) = turns.map (·.request) := by
  induction turns generalizing s cut results with
  | nil =>
      cases h
      rfl
  | cons a rest ih =>
      rw [replay] at h
      split at h
      · cases h
      · split at h
        · cases h
          simp [aborted, Function.comp_def]
        · rename_i verdict _ _
          rw [Replayed.before] at h
          cases hlater : (replay (s.after verdict.result) (cut.map (· - a.bytes.length)) rest).value with
          | error e =>
              rw [hlater] at h
              cases h
          | ok later =>
              rw [hlater] at h
              cases h
              simp [ih hlater]

/-! ### One reply on a longer stream -/

/-- A block is read up to its terminator, whatever follows. -/
theorem block_of_reply (r : Reply) (rest : Bytes) :
    HasTerminator (r.blockBytes ++ rest) ∧
      blockBody (r.blockBytes ++ rest) = (r.block.map fun l => unstuff l.full).flatten ∧
      afterBlock (r.blockBytes ++ rest) = rest := by
  obtain ⟨status, block, terminator, hproper, hterm⟩ := r
  obtain ⟨l, rfl⟩ := exists_piece_of_isTerminator hterm
  simp only [Reply.blockBytes]
  induction block with
  | nil =>
      exact ⟨hasTerminator_full.mpr (.inl hterm), blockBody_of_terminator hterm,
        afterBlock_of_terminator hterm⟩
  | cons p block ih =>
      obtain ⟨hhas, hbody, hafter⟩ := ih fun q hq => hproper q (by simp [hq])
      have hline : isTerminator p.full = false := hproper p (by simp)
      simp only [List.map_cons, List.flatten_cons, List.append_assoc] at hhas hbody hafter ⊢
      refine ⟨hasTerminator_full.mpr (.inr hhas), ?_, ?_⟩
      · rw [blockBody_of_line hline, hbody]
      · rw [afterBlock_of_line hline, hafter]

theorem not_hasTerminator_take_full {l : WireLine} {n : Nat} (hn : n < l.full.length) :
    ¬ HasTerminator (l.full.take n) := by
  refine not_hasTerminator_of_lf_not_mem fun hmem => ?_
  simp only [Piece.full, List.length_append, List.length_singleton] at hn
  rw [Piece.full, List.take_append_of_le_length (by omega)] at hmem
  exact l.free (List.mem_of_mem_take hmem)

/-- A block that is cut short has no terminator. -/
theorem not_hasTerminator_take (r : Reply) {n : Nat} (hn : n < r.blockBytes.length) :
    ¬ HasTerminator (r.blockBytes.take n) := by
  obtain ⟨status, block, terminator, hproper, hterm⟩ := r
  obtain ⟨l, rfl⟩ := exists_piece_of_isTerminator hterm
  simp only [Reply.blockBytes] at hn ⊢
  induction block generalizing n with
  | nil => exact not_hasTerminator_take_full (by simpa using hn)
  | cons p block ih =>
      simp only [List.map_cons, List.flatten_cons, List.append_assoc] at hn ⊢
      by_cases hp : p.full.length ≤ n
      · rw [List.take_append, List.take_of_length_le hp, hasTerminator_full,
          hproper p (by simp)]
        rintro (h | h)
        · cases h
        · refine ih (fun q hq => hproper q (by simp [hq])) ?_ h
          rw [List.length_append] at hn
          omega
      · rw [List.take_append_of_le_length (by omega)]
        exact not_hasTerminator_take_full (by omega)

theorem announcesBlock_article (request : PipelineRequest) (code : Nat) :
    announcesBlock request.line (some code) = decide (code = 220) := by
  have hcode : blockCode request.line = some 220 := (expects_article request.mid).code
  simp [announcesBlock, hcode]

/-- What the wire carries after the status line of a reply. -/
theorem Turn.bytes_of_status {a : Turn} {status : NntpResponse}
    (h : statusOf a.reply.status.full = .ok status) :
    a.bytes = a.reply.status.full ++ if status.code = 220 then a.reply.blockBytes else [] := by
  rw [Turn.bytes, bytesFor_eq, statusCode_of_statusOf h, announcesBlock_article]
  simp

theorem Turn.bytes_split (a : Turn) :
    ∃ tail, a.bytes = a.reply.status.full ++ tail := ⟨_, bytesFor_eq _ _⟩

theorem judgeStatus_of_ne {request : PipelineRequest} {status : NntpResponse}
    (hcode : status.code ≠ 220) (stream : Bytes) :
    judgeStatus request status stream =
      { judgeStatus request status [] with left := stream } := by
  unfold judgeStatus
  split
  · contradiction
  all_goals simp_all

/-- A whole reply is judged by itself and leaves what follows it. -/
theorem judge_append (a : Turn) (more : Bytes) :
    judge a.request (a.bytes ++ more) =
      (judge a.request a.bytes).map fun verdict => { verdict with left := more } := by
  obtain ⟨tail, htail⟩ := a.bytes_split
  have hfirst : firstLine a.bytes = a.reply.status.full := by rw [htail, firstLine_full]
  have hfirst' : firstLine (a.bytes ++ more) = a.reply.status.full := by
    rw [htail, List.append_assoc, firstLine_full]
  rw [judge, judge, hfirst, hfirst']
  cases hstatus : statusOf a.reply.status.full with
  | error e => rfl
  | ok status =>
      rw [a.bytes_of_status hstatus]
      simp only [Except.map, List.append_assoc, List.drop_left, Except.ok.injEq]
      by_cases hcode : status.code = 220
      · obtain ⟨hhas, hbody, hafter⟩ := block_of_reply a.reply more
        obtain ⟨hhas', hbody', -⟩ := block_of_reply a.reply []
        rw [List.append_nil] at hhas' hbody'
        simp only [hcode, if_true, judgeStatus, hhas, hhas', hbody, hbody', hafter]
      · rw [if_neg hcode, List.nil_append, judgeStatus_of_ne hcode more]

/-- A reply that is cut short leaves nothing. -/
theorem judge_take (a : Turn) {n : Nat} (hn : n < a.bytes.length) {verdict : Verdict}
    (h : judge a.request (a.bytes.take n) = .ok verdict) : verdict.left = [] := by
  obtain ⟨tail, htail⟩ := a.bytes_split
  rw [judge] at h
  cases hstatus : statusOf (firstLine (a.bytes.take n)) with
  | error e =>
      rw [hstatus] at h
      cases h
  | ok status =>
      rw [hstatus] at h
      cases h
      by_cases hline : a.reply.status.full.length ≤ n
      · have htake : a.bytes.take n =
            a.reply.status.full ++ tail.take (n - a.reply.status.full.length) := by
          rw [htail, List.take_append, List.take_of_length_le hline]
        have hfirst : firstLine (a.bytes.take n) = a.reply.status.full := by
          rw [htake, firstLine_full]
        rw [hfirst] at hstatus ⊢
        have hbytes := a.bytes_of_status hstatus
        by_cases hcode : status.code = 220
        · rw [if_pos hcode] at hbytes
          obtain rfl : tail = a.reply.blockBytes := List.append_cancel_left (htail.symm.trans hbytes)
          rw [htail, List.length_append] at hn
          have hnone := not_hasTerminator_take a.reply
            (n := n - a.reply.status.full.length) (by omega)
          rw [htake, List.drop_left]
          simp [judgeStatus, hcode, hnone]
        · rw [hbytes, if_neg hcode, List.append_nil] at hn
          omega
      · have hfree : lf ∉ a.bytes.take n := by
          have hlen : a.reply.status.full.length = a.reply.status.text.length + 1 := by
            simp [Piece.full]
          rw [htail, Piece.full, List.append_assoc, List.take_append_of_le_length (by omega)]
          exact fun hmem => a.reply.status.free (List.mem_of_mem_take hmem)
        rw [firstLine_of_not_mem hfree, List.drop_length]
        by_cases hcode : status.code = 220
        · have hnone : ¬ HasTerminator [] := not_hasTerminator_of_lf_not_mem (by simp)
          simp [judgeStatus, hcode, hnone]
        · change (judgeStatus a.request status []).left = []
          rw [judgeStatus_of_ne hcode]

end NzbNntp
