import NzbNntp.Pipeline.Accounting
import NzbNntp.Pipeline.Verdict

/-!
The depth of a pipeline does not show. Whatever part of the commands has been
sent, the oldest reply is on the stream whole, or as far as it arrives at all;
so every round judges the same reply as `replay` does, and a pipeline of any
depth computes `replay`.
-/

namespace NzbNntp

open Interruptible Delimited

/-! ### Reading one reply -/

section Reads

variable {π : Type} {s : ConnectionState} {t : Transport π} {w : World π}

/-- The stream brings the whole reply, or it ends. -/
def Brings (request : PipelineRequest) (t : Transport π) : Prop :=
  t.cut.isSome = true ∨
    ∃ a more, a.request = request ∧ t.available = Turn.bytes a ++ more

theorem Brings.line {request : PipelineRequest} (h : Brings request t) :
    t.cut.isSome = true ∨ lf ∈ t.available := by
  refine h.imp_right ?_
  rintro ⟨a, more, -, havail⟩
  obtain ⟨tail, htail⟩ := a.bytes_split
  rw [havail, htail]
  simp [Piece.full]

theorem Brings.block {request : PipelineRequest} {status : NntpResponse} (h : Brings request t)
    (hstatus : statusOf (firstLine t.available) = .ok status) (hcode : status.code = 220) :
    t.cut.isSome = true ∨ HasTerminator (t.available.drop (firstLine t.available).length) := by
  refine h.imp_right ?_
  rintro ⟨a, more, -, havail⟩
  obtain ⟨tail, htail⟩ := a.bytes_split
  have hfirst : firstLine t.available = a.reply.status.full := by
    rw [havail, htail, List.append_assoc, firstLine_full]
  rw [hfirst] at hstatus ⊢
  rw [havail, a.bytes_of_status hstatus, if_pos hcode, List.append_assoc, List.drop_left]
  exact (block_of_reply a.reply more).1

/-- `receive_one` judges the stream. -/
theorem wp_readReply_judge {request : PipelineRequest} (hquiet : Quiet w) (hs : w.conn.state = s)
    (ht : w.conn.transport = some t) (hbrings : Brings request t) :
    wp (readReply request)
      ⟨fun result w' => ∃ left, judge request t.available = .ok ⟨result, left⟩ ∧
          HasTaken (s.after result) t (t.available.length - left.length) w',
        fun e w' => judge request t.available = .error e ∧
          HasTaken .error t (firstLine t.available).length w',
        fun _ => False⟩ w := by
  rw [readReply]
  refine wp_seq (wp_statusLine_first hquiet hs ht hbrings.line) ?_ ?_ (fun _ h => h)
  · rintro status w₁ ⟨hline, htaken⟩
    have hle := (firstLine_isPrefix t.available).length_le
    have hjudge : judge request t.available =
        .ok (judgeStatus request status
          (t.available.drop (firstLine t.available).length)) := by
      rw [judge, hline]
      rfl
    have hbare : ∀ result w', judgeStatus request status
          (t.available.drop (firstLine t.available).length) =
          ⟨result, t.available.drop (firstLine t.available).length⟩ →
        HasTaken (s.after result) t (firstLine t.available).length w' →
        ∃ left, judge request t.available = .ok ⟨result, left⟩ ∧
          HasTaken (s.after result) t (t.available.length - left.length) w' := by
      intro result w' hresult hw'
      refine ⟨_, by rw [hjudge, hresult], ?_⟩
      rwa [List.length_drop, Nat.sub_sub_self hle]
    split
    -- `220`: what is taken besides the status line is the block, or all there is of it.
    case h_1 hcode =>
      rw [wp_bind, wp_attempt]
      refine wp_mono (wp_readMultilineBody_block hle htaken (hbrings.block hline hcode)) ?_ ?_
        (fun _ h => h)
      · rintro b w' ⟨hterm, rfl, hw'⟩
        refine ⟨_, ?_, hw'⟩
        rw [hjudge]
        simp [judgeStatus, hcode, hterm]
      · rintro e w' ⟨hterm, rfl, hw'⟩
        refine ⟨[], ?_, hw'.setState .error⟩
        rw [hjudge]
        simp [judgeStatus, hcode, hterm]
    case h_12 =>
      refine hbare _ _ (by simp [judgeStatus, *]) ?_
      rw [ConnectionState.after_unexpected]
      exact htaken.setState .error
    case h_7 | h_8 | h_9 | h_10 | h_11 =>
      exact hbare _ _ (by simp [judgeStatus, *]) (htaken.setState .error)
    all_goals exact hbare _ _ (by simp [judgeStatus, *]) htaken
  · rintro e w₁ ⟨hline, htaken⟩
    refine ⟨?_, htaken⟩
    rw [judge, hline]
    rfl

theorem Turn.bytes_pos (a : Turn) : 0 < a.bytes.length := by
  obtain ⟨tail, htail⟩ := a.bytes_split
  rw [htail, Piece.full, List.length_append, List.length_append, List.length_singleton]
  omega

theorem Turn.arrived_eq (a : Turn) (cut : Option Nat) : a.arrived cut = arrives a.bytes cut := rfl

/-- Reading the reply of a turn: what arrives of it is judged and taken. -/
theorem wp_readReply_turn {a : Turn} {later : Bytes} (hquiet : Quiet w) (hs : w.conn.state = s)
    (ht : w.conn.transport = some t) (hstream : Ended t ∨ t.unread = a.bytes ++ later) :
    wp (readReply a.request)
      ⟨fun result w' => ∃ left, judge a.request (a.arrived t.cut) = .ok ⟨result, left⟩ ∧
          HasTaken (s.after result) t (a.arrived t.cut).length w',
        fun e w' => judge a.request (a.arrived t.cut) = .error e ∧
          HasTaken .error t (firstLine (a.arrived t.cut)).length w',
        fun _ => False⟩ w := by
  simp only [Turn.arrived_eq]
  rcases stream_cases a.bytes_pos hstream with
    ⟨-, harrived, more, havail⟩ | ⟨n, hcut, hn, harrived, havail⟩
  · have hbrings : Brings a.request t := .inr ⟨a, more, rfl, havail⟩
    refine wp_mono (wp_readReply_judge hquiet hs ht hbrings) ?_ ?_ (fun _ h => h)
    · rintro result w' ⟨left, hjudge, htaken⟩
      rw [havail, judge_append] at hjudge
      cases hwhole : judge a.request a.bytes with
      | error e => rw [hwhole] at hjudge; cases hjudge
      | ok verdict =>
          rw [hwhole] at hjudge
          cases hjudge
          rw [havail, List.length_append, Nat.add_sub_cancel] at htaken
          rw [harrived]
          exact ⟨verdict.left, hwhole, htaken⟩
    · rintro e w' ⟨hjudge, htaken⟩
      rw [havail, judge_append] at hjudge
      cases hwhole : judge a.request a.bytes with
      | error e' =>
          rw [hwhole] at hjudge
          cases hjudge
          obtain ⟨tail, htail⟩ := a.bytes_split
          rw [havail, htail, List.append_assoc, firstLine_full] at htaken
          rw [harrived, htail, firstLine_full, ← htail]
          exact ⟨hwhole, htaken⟩
      | ok verdict => rw [hwhole] at hjudge; cases hjudge
  · have hbrings : Brings a.request t := .inl (by rw [hcut]; rfl)
    rw [harrived, ← havail]
    refine wp_mono (wp_readReply_judge hquiet hs ht hbrings) ?_ (fun _ _ h => h) (fun _ h => h)
    rintro result w' ⟨left, hjudge, htaken⟩
    have hleft : left = [] := by
      rw [havail] at hjudge
      exact judge_take a hn hjudge
    rw [hleft] at htaken
    exact ⟨left, hjudge, htaken⟩

/-- Where the status line cannot be read, it is all that has been taken. -/
theorem take_firstLine {a : Turn} {later : Bytes} (h : Ended t ∨ t.unread = a.bytes ++ later) :
    (t.take (firstLine (a.arrived t.cut)).length).taken =
      t.taken ++ firstLine (a.arrived t.cut) := by
  have harrived : t.unread.take (a.arrived t.cut).length = a.arrived t.cut :=
    List.append_cancel_left (take_arrives a.bytes_pos h).2.1
  have hline : firstLine (a.arrived t.cut) <+: t.unread :=
    (firstLine_isPrefix _).trans ⟨_, by rw [← harrived]; exact List.take_append_drop _ _⟩
  rw [Transport.take, ← List.prefix_iff_eq_take.mp hline]

end Reads

/-! ### Rounds -/

section Rounds

variable {π : Type} [Peer π]

def Answers : π → List Turn → Prop
  | _, [] => True
  | peer, a :: rest =>
      (Peer.hearAll peer a.request.line).2 = a.bytes ∧
        Answers (Peer.hearAll peer a.request.line).1 rest

/-- `turns` are the requests without an outcome: the replies to those in flight
are on the stream, the others are still to be asked for. -/
structure Piping (s : ConnectionState) (cut : Option Nat) (taken : Bytes) (turns : List Turn)
    (σ : Pipeline × World π) : Prop where
  quiet : Quiet σ.2
  state : σ.2.conn.state = s
  requests : σ.1.requests = turns.map (·.request)
  transport : ∃ t, σ.2.conn.transport = some t ∧ t.cut = cut ∧ t.taken = taken ∧
    (Ended t ∨ t.unread = ((turns.take σ.1.inFlight.length).map Turn.bytes).flatten) ∧
    Answers t.peer (turns.drop σ.1.inFlight.length)

/-- The same, with a server that goes on to answer `later`, and a relation `W`
between the bytes written and the requests in flight. -/
structure Feeding (W : Bytes → List PipelineRequest → Prop) (s : ConnectionState)
    (cut : Option Nat) (taken : Bytes) (turns later : List Turn) (σ : Pipeline × World π) : Prop where
  quiet : Quiet σ.2
  state : σ.2.conn.state = s
  requests : σ.1.requests = turns.map (·.request)
  transport : ∃ t, σ.2.conn.transport = some t ∧ t.cut = cut ∧ t.taken = taken ∧
    W t.wire σ.1.inFlight ∧
    (Ended t ∨ t.unread = ((turns.take σ.1.inFlight.length).map Turn.bytes).flatten) ∧
    Answers t.peer (turns.drop σ.1.inFlight.length ++ later)

def Extends (W : Bytes → List PipelineRequest → Prop) : Prop :=
  ∀ wire flight req, W wire flight → W (wire ++ PipelineRequest.line req) (flight ++ [req])

variable {W : Bytes → List PipelineRequest → Prop} {s : ConnectionState} {cut : Option Nat}
  {taken : Bytes} {turns later : List Turn}

theorem piping_iff {σ : Pipeline × World π} :
    Piping s cut taken turns σ ↔ Feeding (fun _ _ => True) s cut taken turns [] σ := by
  constructor
  · rintro ⟨hquiet, hs, hrequests, t, ht, hcut, htaken, hunread, hanswers⟩
    exact ⟨hquiet, hs, hrequests, t, ht, hcut, htaken, trivial, hunread, by rwa [List.append_nil]⟩
  · rintro ⟨hquiet, hs, hrequests, t, ht, hcut, htaken, -, hunread, hanswers⟩
    exact ⟨hquiet, hs, hrequests, t, ht, hcut, htaken, hunread, by rwa [List.append_nil] at hanswers⟩

/-- The next request to be sent is that of the turn after those in flight. -/
theorem Feeding.drop_eq {σ : Pipeline × World π} {req : PipelineRequest}
    {rest : List PipelineRequest} (h : Feeding W s cut taken turns later σ)
    (hpending : σ.1.pending = req :: rest) :
    ∃ a, a.request = req ∧
      turns.drop σ.1.inFlight.length = a :: turns.drop (σ.1.inFlight.length + 1) := by
  have hdrop := congrArg (List.drop σ.1.inFlight.length) h.requests
  rw [Pipeline.requests, List.drop_left, hpending, ← List.map_drop] at hdrop
  cases hturns : turns.drop σ.1.inFlight.length with
  | nil => rw [hturns] at hdrop; cases hdrop
  | cons a later =>
      rw [hturns] at hdrop
      have hlater := congrArg List.tail hturns
      rw [List.tail_drop] at hlater
      exact ⟨a, (List.cons.inj hdrop).1.symm, by rw [hlater]; rfl⟩

theorem wp_sendCommandNoFlush_feeding {p : Pipeline} {w : World π} {req : PipelineRequest}
    {rest : List PipelineRequest} (hW : Extends W) (h : Feeding W s cut taken turns later (p, w))
    (hpending : p.pending = req :: rest) :
    wp (sendCommandNoFlush s!"ARTICLE {req.mid}")
      ⟨fun _ w' => Feeding W s cut taken turns later (p.sendFirst req rest, w'), fun _ _ => False,
        fun _ => False⟩ w := by
  obtain ⟨a, rfl, hdrop⟩ := h.drop_eq hpending
  obtain ⟨hquiet, hs, hrequests, t, ht, hcut, htaken, hwire, hunread, hanswers⟩ := h
  rw [hdrop] at hanswers
  have htake : turns.take (p.inFlight.length + 1) = turns.take p.inFlight.length ++ [a] := by
    rw [List.take_add, hdrop]
    rfl
  refine wp_mono (wp_sendCommandNoFlush_quiet hquiet ht) ?_ (fun _ _ h => h) (fun _ h => h)
  rintro _ w' ⟨hquiet', hs', ht'⟩
  refine ⟨hquiet', hs'.trans hs, by rw [requests_sendFirst hpending, hrequests],
    t.deliver a.request.line, ht', (t.deliver_cut _).trans hcut, (t.deliver_taken _).trans htaken,
    hW _ _ _ hwire, ?_, ?_⟩
  · refine hunread.imp (fun h => h) fun hunread => ?_
    change t.unread ++ (Peer.hearAll t.peer a.request.line).2 = _
    rw [hunread, hanswers.1]
    simp only [Pipeline.sendFirst, List.length_append, List.length_singleton, htake]
    simp
  · simp only [Pipeline.sendFirst, List.length_append, List.length_singleton]
    exact hanswers.2

theorem wp_flushLoop_feeding (fuel : Nat) {p : Pipeline} {w : World π} (hW : Extends W)
    (h : Feeding W s cut taken turns later (p, w)) :
    wp (flushLoop fuel)
      ⟨fun _ σ => Feeding W s cut taken turns later σ, fun _ _ => False, fun _ => False⟩ (p, w) := by
  induction fuel generalizing p w with
  | zero => exact h
  | succ fuel ih =>
      by_cases hsends : p.sends = 0
      · rw [wp, flushLoop_idle hsends]
        exact h
      · cases hpending : p.pending with
        | nil => simp [Pipeline.sends, hpending] at hsends
        | cons req rest =>
            have hroom : p.inFlight.length < p.depth := by
              rw [Pipeline.sends] at hsends
              omega
            rw [wp_flushLoop_succ hroom hpending]
            exact wp_mono (wp_sendCommandNoFlush_feeding hW h hpending) (fun _ _ h => ih h)
              (fun _ _ h => h.elim) (fun _ h => h)

theorem wp_flushSends_feeding {σ : Pipeline × World π} (hW : Extends W)
    (h : Feeding W s cut taken turns later σ) :
    wp flushSends
      ⟨fun _ σ' => Feeding W s cut taken turns later σ', fun _ _ => False, fun _ => False⟩ σ := by
  rw [flushSends, wp_bind, wp_get]
  refine wp_seq (wp_flushLoop_feeding _ hW h) ?_ (fun _ _ h => h) (fun _ h => h)
  intro n σ' h'
  split
  · obtain ⟨hquiet, hs, hrequests, t, ht, hrest⟩ := h'
    rw [wp_onSnd]
    refine wp_mono (wp_orError_quiet (wp_flush_quiet hquiet ht)) ?_ (fun _ _ h => h) (fun _ h => h)
    rintro _ w' ⟨hquiet', hs', ht'⟩
    exact ⟨hquiet', hs'.trans hs, hrequests, t, ht', hrest⟩
  · exact h'

theorem wp_flushSends_piping {σ : Pipeline × World π} (h : Piping s cut taken turns σ) :
    wp flushSends
      ⟨fun _ σ' => Piping s cut taken turns σ', fun _ _ => False, fun _ => False⟩ σ :=
  wp_mono (wp_flushSends_feeding (fun _ _ _ h => h) (piping_iff.mp h))
    (fun _ _ h => piping_iff.mpr h) (fun _ _ h => h) (fun _ h => h)

/-- Whether the rounds end as `replay` says, when `results` were there before. -/
def replays (r : Replayed) (taken : Bytes) (results : List PipelineResult) :
    Post NntpError (Pipeline × World π) (List PipelineResult) :=
  let leaves (σ : Pipeline × World π) : Prop :=
    σ.2.conn.state = r.state ∧ ∃ t, σ.2.conn.transport = some t ∧ t.taken = taken ++ r.consumed
  { ok rs σ := (∃ new, rs = results ++ new ∧ r.value = .ok new) ∧ leaves σ
    err e σ := r.value = .error e ∧ leaves σ
    dropped _ := False }

/-- The oldest request in flight is judged by its own reply, and the others stay. -/
theorem wp_receiveOne_feeding {W' : Bytes → List PipelineRequest → Prop}
    {σ : Pipeline × World π} {a : Turn} {rest : List Turn}
    (hW : ∀ wire flight, W wire (a.request :: flight) → W' wire flight)
    (h : Feeding W s cut taken (a :: rest) later σ) (hne : σ.1.inFlight ≠ []) :
    wp receiveOne
      ⟨fun r σ' => ∃ result left, r = some { request := a.request, result } ∧
          judge a.request (a.arrived cut) = .ok ⟨result, left⟩ ∧ σ'.1.depth = σ.1.depth ∧
          σ'.1.inFlight = σ.1.inFlight.tail ∧
          Feeding W' (s.after result) (cut.map (· - a.bytes.length)) (taken ++ a.arrived cut) rest
            later σ',
        fun e σ' => judge a.request (a.arrived cut) = .error e ∧ σ'.2.conn.state = .error ∧
          ∃ t, σ'.2.conn.transport = some t ∧ t.taken = taken ++ firstLine (a.arrived cut) ∧
            W t.wire σ.1.inFlight,
        fun _ => False⟩ σ := by
  obtain ⟨⟨depth, inFlight, pending⟩, w⟩ := σ
  obtain ⟨hquiet, hs, hrequests, t, ht, rfl, rfl, hwire, hunread, hanswers⟩ := h
  cases inFlight with
  | nil => exact absurd rfl hne
  | cons request flight =>
      obtain ⟨rfl, hrest⟩ := List.cons.inj hrequests
      simp only [List.length_cons, List.take_succ_cons, List.map_cons, List.flatten_cons,
        List.drop_succ_cons] at hunread hanswers
      obtain ⟨hcut, htaken, hleft⟩ := take_arrives (Turn.bytes_pos _) hunread
      simp only [receiveOne, wp_bind, wp_get, modifyPipeline, wp_modify, wp_onSnd]
      refine wp_mono (wp_readReply_turn hquiet hs ht hunread) ?_ ?_ (fun _ h => h)
      · rintro result w' ⟨left, hjudge, hquiet', hs', ht'⟩
        exact ⟨result, left, rfl, hjudge, rfl, rfl, hquiet', hs', hrest, _, ht', hcut, htaken,
          hW _ _ hwire, hleft, hanswers⟩
      · rintro e w' ⟨hjudge, -, hs', ht'⟩
        exact ⟨hjudge, hs', _, ht', take_firstLine hunread, hwire⟩

theorem wp_receiveOne_turn {σ : Pipeline × World π} {a : Turn} {rest : List Turn}
    (h : Piping s cut taken (a :: rest) σ) (hne : σ.1.inFlight ≠ []) :
    wp receiveOne
      ⟨fun r σ' => ∃ result left, r = some { request := a.request, result } ∧
          judge a.request (a.arrived cut) = .ok ⟨result, left⟩ ∧ σ'.1.depth = σ.1.depth ∧
          Piping (s.after result) (cut.map (· - a.bytes.length)) (taken ++ a.arrived cut) rest σ',
        fun e σ' => judge a.request (a.arrived cut) = .error e ∧ σ'.2.conn.state = .error ∧
          ∃ t, σ'.2.conn.transport = some t ∧ t.taken = taken ++ firstLine (a.arrived cut),
        fun _ => False⟩ σ := by
  refine wp_mono (wp_receiveOne_feeding (fun _ _ h => h) (piping_iff.mp h) hne) ?_ ?_ (fun _ h => h)
  · rintro r σ' ⟨result, left, hr, hjudge, hdepth, -, h'⟩
    exact ⟨result, left, hr, hjudge, hdepth, piping_iff.mpr h'⟩
  · rintro e σ' ⟨hjudge, hs', t, ht, htaken, -⟩
    exact ⟨hjudge, hs', t, ht, htaken⟩

/-- A pipeline with room that has nothing in flight after a flush has nothing
left to do. -/
theorem Pipeline.requests_afterSends_sends {p : Pipeline} (hdepth : 0 < p.depth)
    (h : (p.afterSends p.sends).inFlight = []) : (p.afterSends p.sends).requests = [] := by
  obtain ⟨hflight, htake⟩ := List.append_eq_nil_iff.mp h
  have hpending : p.pending = [] := by
    cases hp : p.pending with
    | nil => rfl
    | cons req rest =>
        have hsends : p.sends ≠ 0 := by
          simp only [Pipeline.sends, hflight, hp, List.length_nil, List.length_cons]
          omega
        rw [hp, List.take_eq_nil_iff] at htake
        simp [hsends] at htake
  rw [Pipeline.afterSends_requests, Pipeline.requests, hflight, hpending]
  rfl

/-- The rounds compute `replay`. Each round begins with a flush, after which a
request is in flight if there is one at all, and judges the first turn; the
induction is on the fuel. -/
theorem wp_processLoop_replays (fuel : Nat) {σ : Pipeline × World π}
    (results : List PipelineResult) (hfuel : turns.length < fuel) (hdepth : 0 < σ.1.depth)
    (h : Piping s cut taken turns σ) :
    wp (processLoop fuel results) (replays (replay s cut turns) taken results) σ := by
  induction fuel generalizing σ s cut taken turns results with
  | zero => exact absurd hfuel (Nat.not_lt_zero _)
  | succ fuel ih =>
      rw [processLoop]
      refine wp_seq (wp_and (wp_flushSends σ.1 σ.2) (wp_flushSends_piping h)) ?_
        (fun _ _ h => h.2.elim) (fun _ h => h.2.elim)
      rintro _ σ₁ ⟨⟨hp₁, -, -⟩, h₁⟩
      have hdepth₁ : 0 < σ₁.1.depth := by rw [hp₁]; exact hdepth
      rw [wp_bind, wp_get]
      dsimp only
      split
      · rename_i hempty
        have hnone : σ₁.1.requests = [] := by
          rw [hp₁] at hempty ⊢
          exact Pipeline.requests_afterSends_sends hdepth (by simpa using hempty)
        obtain rfl : turns = [] := by
          rw [h₁.requests, List.map_eq_nil_iff] at hnone
          exact hnone
        obtain ⟨t, ht, -, htaken, -⟩ := h₁.transport
        exact ⟨⟨[], by simp, rfl⟩, h₁.state, t, ht, by rw [htaken]; exact (List.append_nil _).symm⟩
      · rename_i hnonempty
        have hne : σ₁.1.inFlight ≠ [] := by simpa using hnonempty
        obtain ⟨a, rest, rfl⟩ : ∃ a rest, turns = a :: rest := by
          refine List.exists_cons_of_ne_nil fun hnil => hne ?_
          have hrequests := h₁.requests
          rw [hnil] at hrequests
          exact (List.append_eq_nil_iff.mp hrequests).1
        refine wp_seq (wp_receiveOne_turn h₁ hne) ?_ ?_ (fun _ h => h)
        · rintro _ σ₂ ⟨result, left, rfl, hjudge, hdepth₂, h₂⟩
          dsimp only
          split
          -- `replay` stops at the same outcome, and both abort the requests that are left.
          · rename_i hfatal
            rw [replay_fatal hjudge hfatal]
            simp only [wp_bind, wp_get, modifyPipeline, wp_modify, wp_pure]
            obtain ⟨t, ht, -, htaken, -⟩ := h₂.transport
            refine ⟨⟨_, List.append_assoc .., ?_⟩, h₂.state, t, ht, htaken⟩
            rw [h₂.requests]
            simp
          · rename_i hgoes
            rw [replay_next hjudge hgoes]
            refine wp_mono (ih (results ++ [_]) (Nat.lt_of_succ_lt_succ hfuel)
              (by rw [hdepth₂]; exact hdepth₁) h₂) ?_ ?_ (fun _ h => h)
            · rintro rs σ' ⟨⟨new, rfl, hnew⟩, hs', t, ht, htaken⟩
              refine ⟨⟨_ :: new, List.append_assoc .., ?_⟩, hs', t, ht, ?_⟩
              · rw [Replayed.before, hnew]
                rfl
              · rw [htaken, List.append_assoc]
                rfl
            · rintro e σ' ⟨hvalue, hs', t, ht, htaken⟩
              refine ⟨?_, hs', t, ht, ?_⟩
              · rw [Replayed.before, hvalue]
                rfl
              · rw [htaken, List.append_assoc]
                rfl
        · rintro e σ₂ ⟨hjudge, hs₂, t, ht, htaken⟩
          rw [replay_unreadable hjudge]
          exact ⟨rfl, hs₂, t, ht, htaken⟩

end Rounds

/-! ### Depth -/

def Pipeline.submitted (depth : UInt8) (requests : List PipelineRequest) : Pipeline :=
  requests.foldl (fun p req => p.submit req.messageId req.tag) (.new depth)

theorem Pipeline.foldl_submit (requests : List PipelineRequest) (p : Pipeline) :
    requests.foldl (fun p req => p.submit req.messageId req.tag) p =
      { p with pending := p.pending ++ requests } := by
  induction requests generalizing p with
  | nil => simp
  | cons req requests ih =>
      rw [List.foldl_cons, ih]
      simp [Pipeline.submit]

section Depth

variable {π : Type} [Peer π]

def runAtDepth (depth : UInt8) (turns : List Turn) (w : World π) :
    Outcome NntpError (Pipeline × World π) (List PipelineResult) :=
  processAll (.submitted depth (turns.map (·.request)), w)

theorem runAtDepth_replays {w : World π} {t : Transport π} {turns : List Turn}
    (ht : w.conn.transport = some t) (hunread : t.unread = []) (hquiet : Quiet w)
    (hserver : Answers t.peer turns) (depth : UInt8) :
    (runAtDepth depth turns w).result = some (replay w.conn.state t.cut turns).value ∧
      (runAtDepth depth turns w).state.2.conn.state = (replay w.conn.state t.cut turns).state ∧
      (runAtDepth depth turns w).state.2.taken =
        some (t.taken ++ (replay w.conn.state t.cut turns).consumed) := by
  have hp : Pipeline.submitted depth (turns.map (·.request)) =
      { Pipeline.new depth with pending := turns.map (·.request) } :=
    Pipeline.foldl_submit _ _
  have hpiping : Piping w.conn.state t.cut t.taken turns
      (.submitted depth (turns.map (·.request)), w) := by
    rw [hp]
    exact ⟨hquiet, rfl, rfl, t, ht, rfl, rfl, .inr hunread, hserver⟩
  have hdepth : 0 < (Pipeline.submitted depth (turns.map (·.request))).depth := by
    rw [hp]
    exact Nat.lt_of_lt_of_le Nat.one_pos (Nat.le_max_right _ _)
  have hfuel : turns.length <
      (Pipeline.submitted depth (turns.map (·.request))).requests.length + 1 := by
    rw [hpiping.requests, List.length_map]
    exact Nat.lt_succ_self _
  have hrun := wp_processLoop_replays _ [] hfuel hdepth hpiping
  change wp processAll _ (.submitted depth (turns.map (·.request)), w) at hrun
  unfold wp at hrun
  rw [runAtDepth]
  cases hend : processAll (.submitted depth (turns.map (·.request)), w) with
  | ok results σ =>
      rw [hend] at hrun
      obtain ⟨⟨new, rfl, hvalue⟩, hs, t', ht', htaken⟩ := hrun
      refine ⟨by rw [hvalue]; rfl, hs, ?_⟩
      simp only [Outcome.state, World.taken, ht', Option.map_some, htaken]
  | err e σ =>
      rw [hend] at hrun
      obtain ⟨hvalue, hs, t', ht', htaken⟩ := hrun
      refine ⟨by rw [hvalue]; rfl, hs, ?_⟩
      simp only [Outcome.state, World.taken, ht', Option.map_some, htaken]
  | dropped σ =>
      rw [hend] at hrun
      exact hrun.elim

/-- **Depth does not show.** On a connection with nothing unread, with a server
that answers each `ARTICLE` command with its own reply, on a stream that may end
anywhere, `process_all` gives the same value at every depth, takes the same bytes
and leaves the same state. A list of results has one entry a request, in order:
the verdict on the request's own reply up to the first fatal one, and
the aborted entry after it. -/
theorem processAll_depth_irrelevant (w : World π) (t : Transport π) (turns : List Turn)
    (ht : w.conn.transport = some t) (hunread : t.unread = [])
    (hquiet : ∀ e ∈ w.events, e = .ready) (hserver : Answers t.peer turns) (depth : UInt8) :
    (runAtDepth depth turns w).result = (runAtDepth 1 turns w).result ∧
      (runAtDepth depth turns w).state.2.taken = (runAtDepth 1 turns w).state.2.taken ∧
      (runAtDepth depth turns w).state.2.conn.state =
        (runAtDepth 1 turns w).state.2.conn.state ∧
      ∀ results, (runAtDepth depth turns w).result = some (.ok results) →
        results.map (·.request) = turns.map (·.request) ∧
          (replay w.conn.state t.cut turns).value = .ok results := by
  obtain ⟨hresult, hstate, htaken⟩ := runAtDepth_replays ht hunread hquiet hserver depth
  obtain ⟨hresult₁, hstate₁, htaken₁⟩ := runAtDepth_replays ht hunread hquiet hserver 1
  refine ⟨hresult.trans hresult₁.symm, htaken.trans htaken₁.symm, hstate.trans hstate₁.symm, ?_⟩
  intro results h
  have hvalue : (replay w.conn.state t.cut turns).value = .ok results :=
    Option.some.inj (hresult.symm.trans h)
  exact ⟨replay_requests hvalue, hvalue⟩

end Depth

def missingArticles : List Turn :=
  [⟨⟨"a@b", 1⟩, emptyServer.answer []⟩, ⟨⟨"<c@d>", 2⟩, emptyServer.answer []⟩]

theorem processAll_depth_irrelevant_on_missing :
    (runAtDepth 255 missingArticles (.endingAfter 12)).result =
        (runAtDepth 1 missingArticles (.endingAfter 12)).result ∧
      (runAtDepth 255 missingArticles (.endingAfter 12)).state.2.taken =
        (runAtDepth 1 missingArticles (.endingAfter 12)).state.2.taken ∧
      (runAtDepth 255 missingArticles (.endingAfter 12)).state.2.conn.state =
        (runAtDepth 1 missingArticles (.endingAfter 12)).state.2.conn.state ∧
      ∀ results, (runAtDepth 255 missingArticles (.endingAfter 12)).result = some (.ok results) →
        results.map (·.request) = missingArticles.map (·.request) ∧
          (replay .ready (some 12) missingArticles).value = .ok results :=
  processAll_depth_irrelevant (.endingAfter 12) _ missingArticles rfl rfl
    (by simp [World.endingAfter]) ⟨by decide, by decide, trivial⟩ 255

end NzbNntp
