import NzbNntp.Connection.Calls
import NzbNntp.Pipeline.Accounting
import NzbNntp.Pipeline.Rules
import NzbNntp.Pipeline.Verdict

/-!
Who may use a connection while replies to pipelined commands are outstanding.
The state flag is what keeps the other operations and the pool away from a
connection, but a pipeline does not set it: after `flush_sends`, and after a
`process_all` that was dropped, a `Ready` connection can have commands in
flight. In a run without these two, `Ready` means that nothing is outstanding.
-/

namespace NzbNntp

open Interruptible Delimited

/-! ### The state flag, and the requests -/

section Flag

variable {π : Type}

def NotReady (w : World π) : Prop := OfStatus (fun s _ => s ≠ .ready) w

instance : IoStable (NotReady : World π → Prop) :=
  inferInstanceAs (IoStable (OfStatus fun s _ => s ≠ .ready))

theorem NotReady.setError {w : World π} (_ : NotReady w) : NotReady (w.setState .error) := by
  intro hready
  cases hready

theorem notReady_receiveOne : Preserves (fun s => NotReady s.2) (receiveOne : Piped π _) :=
  preserves_receiveOne fun _ h => h.setError

variable [Peer π]

theorem notReady_flushSends : Preserves (fun s => NotReady s.2) (flushSends : Piped π _) :=
  preserves_flushSends (fun _ h => h.setError) fun _ => admits_of_ioStable _

theorem notReady_processLoop (fuel : Nat) (results : List PipelineResult) :
    Preserves (fun s => NotReady s.2) (processLoop fuel results : Piped π _) :=
  preserves_processLoop (fun _ h => h.setError) (fun _ => admits_of_ioStable _) fuel results

end Flag

/-! ### Replies in flight -/

section Flight

def Pipeline.OneLineIds (p : Pipeline) : Prop := ∀ req ∈ p.requests, OneLine req.messageId

/-- The transport owes the replies to the requests in flight, and nothing else. -/
def Flying (s : Pipeline × World ReplyServer) : Prop :=
  ∃ turns : List Turn, turns.map (·.request) = s.1.inFlight ∧
    ∀ t, s.2.conn.transport = some t → Owes (turns.map Turn.bytes).flatten t

theorem PipelineRequest.oneLine_command {req : PipelineRequest} (h : OneLine req.messageId) :
    OneLine s!"ARTICLE {req.mid}" := by
  refine oneLine_append.mpr ⟨by decide, ?_⟩
  unfold PipelineRequest.mid
  split
  · exact h
  · exact oneLine_append.mpr ⟨oneLine_append.mpr ⟨by decide, h⟩, by decide⟩

/-- A command that reaches the server is answered behind what is owed already. -/
theorem Owes.deliver_article {t : Transport ReplyServer} {pending : Bytes}
    {req : PipelineRequest} (h : Owes pending t) (hid : OneLine req.messageId) :
    ∃ reply, Owes (pending ++ Turn.bytes ⟨req, reply⟩) (t.deliver req.line) := by
  rcases h with hended | ⟨hunread, hidle⟩
  · exact ⟨.bare [] (by simp), .inl (hended.deliver req.line)⟩
  · have hhear := hidle.hearAll_command (PipelineRequest.oneLine_command hid)
    refine ⟨t.peer.nextReply req.line, .inr ⟨?_, ?_, ?_⟩⟩
    · rw [Transport.deliver, PipelineRequest.line, hhear, hunread]
      rfl
    · rw [Transport.deliver, PipelineRequest.line, hhear]
      rfl
    · rw [Transport.deliver, PipelineRequest.line, hhear]
      exact (expects_article req.mid).noArticle _

variable {w : World ReplyServer}

/-- An operation under `orError`, whether there is a transport or not. -/
theorem wp_orError_io {α : Type} {x : Nntp ReplyServer α} {s : ConnectionState}
    {Q : α → Transport ReplyServer → Prop}
    (hsome : ∀ t, w.conn.transport = some t → wp x (ioPost s Q) w)
    (hnone : w.conn.transport = none →
      wp x ⟨fun _ _ => False, fun _ _ => True, fun _ => False⟩ w) :
    wp (orError x) ⟨fun a => At s (Q a), fun _ => InState .error, InState s⟩ w := by
  cases ht : w.conn.transport with
  | none =>
      rw [orError, wp_inspectErr]
      exact wp_mono (hnone ht) (fun _ _ h => h.elim) (fun _ _ _ => rfl) (fun _ h => h.elim)
  | some t => exact wp_orError (hsome t ht)

theorem wp_sendArticle_owes {s : ConnectionState} {req : PipelineRequest} {pending : Bytes}
    (hs : w.conn.state = s) (hid : OneLine req.messageId)
    (howes : ∀ t, w.conn.transport = some t → Owes pending t) :
    wp (orError (sendCommandNoFlush s!"ARTICLE {req.mid}"))
      ⟨fun _ => At s fun t => ∃ reply, Owes (pending ++ Turn.bytes ⟨req, reply⟩) t,
        fun _ => InState .error, InState s⟩ w := by
  refine wp_orError_io (fun t ht => ?_) (fun hnone => ?_)
  · exact wp_transportWriteAll (owes_endStable pending)
      (fun t h => h.deliver_article hid) ⟨hs, t, ht, howes t ht⟩
  · simp only [sendCommandNoFlush, wp_bind, wp_onTransport_none hnone]

theorem wp_flushLoop_flying (fuel : Nat) {p : Pipeline} (hready : InState .ready w)
    (hids : p.OneLineIds) (h : Flying (p, w)) :
    wp (flushLoop fuel)
      ⟨fun _ s' => InState .ready s'.2 ∧ Flying s', fun _ s' => InState .error s'.2,
        fun _ => True⟩ (p, w) := by
  induction fuel generalizing p w with
  | zero => exact ⟨hready, h⟩
  | succ fuel ih =>
      by_cases hsends : p.sends = 0
      · rw [wp, flushLoop_idle hsends]
        exact ⟨hready, h⟩
      · cases hpending : p.pending with
        | nil => simp [Pipeline.sends, hpending] at hsends
        | cons req rest =>
            have hroom : p.inFlight.length < p.depth := by
              rw [Pipeline.sends] at hsends
              omega
            have hreq : OneLine req.messageId := hids req (by simp [Pipeline.requests, hpending])
            obtain ⟨turns, hturns, howes⟩ := h
            rw [wp_flushLoop_succ hroom hpending]
            have hsend := wp_sendArticle_owes hready hreq howes
            rw [orError, wp_inspectErr] at hsend
            refine wp_mono hsend ?_ (fun _ _ h => h) (fun _ _ => trivial)
            rintro _ w' ⟨hready', t', ht', reply, howes'⟩
            refine wp_mono (ih hready' ?_ ?_) (fun _ _ h => h) (fun _ _ h => h) (fun _ h => h)
            · rw [Pipeline.OneLineIds, requests_sendFirst hpending]
              exact hids
            · refine ⟨turns ++ [⟨req, reply⟩], by simp [hturns, Pipeline.sendFirst], ?_⟩
              intro t ht
              obtain rfl : t' = t := Option.some.inj (ht'.symm.trans ht)
              simpa using howes'

theorem wp_flushSends_flying {σ : Pipeline × World ReplyServer} (hready : InState .ready σ.2)
    (hids : σ.1.OneLineIds) (h : Flying σ) :
    wp flushSends
      ⟨fun _ s' => InState .ready s'.2 ∧ Flying s', fun _ s' => InState .error s'.2,
        fun _ => True⟩ σ := by
  rw [flushSends, wp_bind, wp_get]
  refine wp_seq (wp_flushLoop_flying _ hready hids h) ?_ (fun _ _ h => h) (fun _ h => h)
  rintro n ⟨p', w'⟩ ⟨hready', turns, hturns, howes⟩
  split
  · rw [wp_onSnd]
    have hflush : wp (orError flush) ⟨fun _ => At .ready (Owes (turns.map Turn.bytes).flatten),
        fun _ => InState .error, InState .ready⟩ w' := by
      refine wp_orError_io (fun t ht => ?_) (fun hnone => ?_)
      · exact wp_flush (owes_endStable _) ⟨hready', t, ht, howes t ht⟩
      · simp only [flush, wp_bind, wp_onTransport_none hnone]
    refine wp_mono hflush ?_ (fun _ _ h => h) (fun _ _ => trivial)
    rintro _ w'' ⟨hready'', t, ht, howes''⟩
    refine ⟨hready'', turns, hturns, fun t' ht' => ?_⟩
    obtain rfl : t = t' := Option.some.inj (ht.symm.trans ht')
    exact howes''
  · exact ⟨hready', turns, hturns, howes⟩

/-- After the status line of the reply to an `ARTICLE` command. -/
def AfterArticle (later : Bytes) (code : Nat) (t : Transport ReplyServer) : Prop :=
  if code = 220 then OwesBlock later t else Owes later t

theorem AfterArticle.of_ended {later : Bytes} {code : Nat} {t : Transport ReplyServer}
    (h : Ended t) : AfterArticle later code t := by
  unfold AfterArticle
  split
  · exact ⟨.bare [] (by simp), .inl h⟩
  · exact .inl h

theorem Owes.readArticle {a : Turn} {later bytes : Bytes} {t t' : Transport ReplyServer}
    {text : String} {status : NntpResponse} (h : Owes (a.bytes ++ later) t)
    (hawait : t.awaitLine = (.done, bytes, t')) (htext : Text.fromUtf8 bytes = some text)
    (hne : text ≠ "") (hparse : parseResponseLine text = .ok status) :
    AfterArticle later status.code t' := by
  obtain ⟨tail, htail⟩ := a.bytes_split
  rw [htail, List.append_assoc] at h
  rcases h.awaitLine hawait with ⟨rfl, howes⟩ | ⟨-, hended⟩
  · have hstatus : statusOf a.reply.status.full = .ok status := by
      rw [statusOf, htext]
      simp only [String.isEmpty_iff, hne, if_false, hparse]
    obtain rfl := List.append_cancel_left (htail.symm.trans (a.bytes_of_status hstatus))
    unfold AfterArticle
    split
    · rename_i hcode
      rw [if_pos hcode] at howes
      exact ⟨a.reply, howes⟩
    · rename_i hcode
      rwa [if_neg hcode] at howes
  · exact .of_ended hended

theorem wp_readReply_flying {s : ConnectionState} {a : Turn} {later : Bytes}
    (hs : w.conn.state = s)
    (howes : ∀ t, w.conn.transport = some t → Owes (a.bytes ++ later) t) :
    wp (readReply a.request)
      ⟨fun result w' => (isFatal result = false ∧ At s (Owes later) w') ∨ InState .error w',
        fun _ => InState .error, InState s⟩ w := by
  have hstatus : wp (orError readResponseLine)
      ⟨fun status => At s (AfterArticle later status.code), fun _ => InState .error,
        InState s⟩ w := by
    refine wp_orError_io (fun t ht => ?_) (fun hnone => ?_)
    · exact wp_readResponseLine (owes_endStable _)
        (fun _ _ _ _ _ h hawait htext hne hparse => h.readArticle hawait htext hne hparse)
        ⟨hs, t, ht, howes t ht⟩
    · simp only [readResponseLine, wp_bind, wp_onTransport_none hnone]
  refine wp_seq hstatus ?_ (fun _ _ h => h) (fun _ h => h)
  intro status w' hw'
  have hquiet : status.code ≠ 220 → At s (Owes later) w' :=
    fun hcode => hw'.mono fun t ht => by rwa [AfterArticle, if_neg hcode] at ht
  split
  case h_1 hcode =>
    have hblock : At s (OwesBlock later) w' :=
      hw'.mono fun t ht => by rwa [AfterArticle, if_pos hcode] at ht
    rw [wp_bind, wp_attempt]
    exact wp_mono (wp_readMultilineBody_owes hblock) (fun _ _ h => .inl ⟨rfl, h⟩)
      (fun _ _ _ => .inr rfl) (fun _ h => h)
  case h_2 | h_3 | h_4 | h_5 | h_6 => exact .inl ⟨rfl, hquiet (by omega)⟩
  all_goals exact .inr rfl

theorem wp_receiveOne_flying {σ : Pipeline × World ReplyServer} (hready : InState .ready σ.2)
    (h : Flying σ) :
    wp receiveOne
      ⟨fun r s' => match r with
          | none => σ.1.inFlight = [] ∧ s' = σ
          | some r =>
              (isFatal r.result = false ∧ InState .ready s'.2 ∧ Flying s') ∨ InState .error s'.2,
        fun _ s' => InState .error s'.2, fun _ => True⟩ σ := by
  obtain ⟨p, w⟩ := σ
  obtain ⟨turns, hturns, howes⟩ := h
  rw [receiveOne, wp_bind, wp_get]
  dsimp only at hturns ⊢
  split
  · rename_i hnil
    exact ⟨hnil, rfl⟩
  · rename_i request rest hcons
    rw [hcons, List.map_eq_cons_iff] at hturns
    obtain ⟨a, later, rfl, rfl, hlater⟩ := hturns
    simp only [modifyPipeline, wp_bind, wp_modify, wp_onSnd]
    refine wp_mono (wp_readReply_flying hready howes) ?_ (fun _ _ h => h) (fun _ _ => trivial)
    rintro result w' (⟨hfatal, hready', t, ht, howes'⟩ | herror)
    · refine .inl ⟨hfatal, hready', later, hlater, fun t' ht' => ?_⟩
      obtain rfl : t = t' := Option.some.inj (ht.symm.trans ht')
      exact howes'
    · exact .inr herror

/-! ### The message-ids stay as they are -/

theorem oneLineIds_flushLoop {π : Type} [Peer π] (fuel : Nat) :
    Preserves (fun s : Pipeline × World π => s.1.OneLineIds) (flushLoop fuel) := by
  induction fuel with
  | zero => exact preserves_pure _
  | succ fuel ih =>
      rintro ⟨p, w⟩ hids
      by_cases hsends : p.sends = 0
      · rw [wp, flushLoop_idle hsends]
        exact hids
      · cases hpending : p.pending with
        | nil => simp [Pipeline.sends, hpending] at hsends
        | cons req rest =>
            have hroom : p.inFlight.length < p.depth := by
              rw [Pipeline.sends] at hsends
              omega
            have hdropped : ({ p with pending := rest } : Pipeline).OneLineIds := by
              intro r hr
              refine hids r ?_
              simp only [Pipeline.requests, hpending, List.mem_append, List.mem_cons] at hr ⊢
              exact hr.imp_right .inr
            have hsent : (p.sendFirst req rest).OneLineIds := by
              rw [Pipeline.OneLineIds, requests_sendFirst hpending]
              exact hids
            rw [wp_flushLoop_succ hroom hpending]
            refine wp_mono (wp_trivial _ w) (fun _ w' _ => ?_) (fun _ _ _ => hdropped)
              (fun _ _ => hdropped)
            exact wp_mono (ih _ hsent) (fun _ _ h => h) (fun _ _ h => h) (fun _ h => h)

theorem oneLineIds_flushSends {π : Type} [Peer π] :
    Preserves (fun s : Pipeline × World π => s.1.OneLineIds) flushSends := by
  refine preserves_bind preserves_get fun s =>
    preserves_bind (oneLineIds_flushLoop _) fun sent => ?_
  split
  · exact preserves_onSnd_fst _
  · exact preserves_pure _

theorem oneLineIds_receiveOne {π : Type} :
    Preserves (fun s : Pipeline × World π => s.1.OneLineIds) receiveOne := by
  rintro ⟨p, w⟩ hids
  rw [receiveOne, wp_bind, wp_get]
  dsimp only
  split
  · exact hids
  · rename_i request rest hcons
    have hrest : ({ p with inFlight := rest } : Pipeline).OneLineIds := by
      intro r hr
      refine hids r ?_
      simp only [Pipeline.requests, hcons, List.mem_append, List.mem_cons] at hr ⊢
      exact hr.imp_left .inr
    simp only [modifyPipeline, wp_bind, wp_modify, wp_onSnd]
    exact wp_mono (wp_trivial _ w) (fun _ _ _ => hrest) (fun _ _ _ => hrest) (fun _ _ => hrest)

theorem oneLineIds_processLoop {π : Type} [Peer π] (fuel : Nat) (results : List PipelineResult) :
    Preserves (fun s : Pipeline × World π => s.1.OneLineIds) (processLoop fuel results) := by
  induction fuel generalizing results with
  | zero => exact preserves_pure _
  | succ fuel ih =>
      refine preserves_bind oneLineIds_flushSends fun _ => preserves_bind preserves_get fun s => ?_
      split
      · exact preserves_pure _
      · refine preserves_bind oneLineIds_receiveOne fun result => ?_
        split
        · exact ih _
        · split
          · exact preserves_bind preserves_get fun _ =>
              preserves_bind (preserves_modify fun _ _ _ hr => by cases hr) fun _ =>
                preserves_pure _
          · exact ih _

/-! ### Steps that leave nothing outstanding -/

/-- Replies to commands of the pipeline are outstanding: they are in flight, or
the transport still owes something. -/
def Outstanding (s : Pipeline × World ReplyServer) : Prop :=
  s.1.inFlight ≠ [] ∨ ∃ t, s.2.conn.transport = some t ∧ ¬ Owes [] t

def Guarded (s : Pipeline × World ReplyServer) : Prop := InState .ready s.2 → ¬ Outstanding s

theorem Guarded.of_error {s : Pipeline × World ReplyServer} (h : InState .error s.2) : Guarded s :=
  fun hready => absurd (h.symm.trans hready) (by decide)

theorem not_outstanding_iff {s : Pipeline × World ReplyServer} :
    ¬ Outstanding s ↔ s.1.inFlight = [] ∧ ∀ t, s.2.conn.transport = some t → Owes [] t := by
  simp [Outstanding]

theorem Guarded.flying {s : Pipeline × World ReplyServer} (h : Guarded s)
    (hready : InState .ready s.2) : Flying s := by
  obtain ⟨hflight, howes⟩ := not_outstanding_iff.mp (h hready)
  exact ⟨[], hflight.symm, howes⟩

theorem Flying.guarded {s : Pipeline × World ReplyServer} (h : Flying s)
    (hflight : s.1.inFlight = []) : Guarded s := by
  obtain ⟨turns, hturns, howes⟩ := h
  obtain rfl : turns = [] := by simpa [hflight] using hturns
  exact fun _ => not_outstanding_iff.mpr ⟨hflight, howes⟩

/-- The next operation is dropped before its first byte, with nothing in flight. -/
def DroppedAtOnce {π : Type} (s : Pipeline × World π) : Prop :=
  s.1.inFlight = [] ∧ s.2.nextEvent = .dropped 0

theorem guarded_flushSends_droppedAtOnce {s : Pipeline × World ReplyServer} (h : Flying s)
    (hdropped : DroppedAtOnce s) : wp flushSends (always Guarded) s := by
  obtain ⟨p, w⟩ := s
  rw [flushSends, wp_bind, wp_get]
  dsimp only
  by_cases hsends : p.sends = 0
  · rw [wp_bind, wp, flushLoop_idle hsends]
    exact h.guarded hdropped.1
  · cases hpending : p.pending with
    | nil => simp [Pipeline.sends, hpending] at hsends
    | cons req rest =>
        have hroom : p.inFlight.length < p.depth := by
          rw [Pipeline.sends] at hsends
          omega
        rw [List.length_cons, wp_bind, wp_flushLoop_succ hroom hpending]
        cases ht : w.conn.transport with
        | none =>
            simp only [sendCommandNoFlush, wp_bind, wp_onTransport_none ht]
            exact .of_error rfl
        | some t =>
            simp only [sendCommandNoFlush, wp_bind, wp_onTransport ht, wp_get, hdropped.2,
              Transport.writeAll, List.take_zero, Transport.deliver_nil, settle, wp_drop]
            obtain ⟨turns, hturns, howes⟩ := h
            exact Flying.guarded ⟨turns, hturns, fun t' ht' => howes t' (ht.trans ht')⟩ hdropped.1

/-- A round of `process_all` in `Ready` is not dropped, unless at once. -/
def RoundClear (s : Pipeline × World ReplyServer) : Prop :=
  InState .ready s.2 →
    ((flushSends s).Returned ∨ DroppedAtOnce s) ∧
      ∀ s₁, flushSends s = .ok () s₁ → (receiveOne s₁).Returned

/-- A `flush_sends` in `Ready` has nothing to send, or fails, or is dropped at
once. -/
def FlushClear (s : Pipeline × World ReplyServer) : Prop :=
  InState .ready s.2 →
    s.1.sends = 0 ∨ DroppedAtOnce s ∨
      ((flushSends s).Returned ∧ ¬ (SendsComplete s ∧ FlushCompletes s))

theorem guarded_flushSends {s : Pipeline × World ReplyServer} (hids : s.1.OneLineIds)
    (hs : Guarded s) (hclear : FlushClear s) : Guarded (flushSends s).state := by
  by_cases hready : InState .ready s.2
  · have hflying := hs.flying hready
    rcases hclear hready with hsends | hdropped | ⟨hreturned, hfails⟩
    · rw [flushSends_idle hsends]
      exact hs
    · exact wp_always_iff.mp (guarded_flushSends_droppedAtOnce hflying hdropped)
    · refine wp_always_iff.mp (wp_mono (wp_and (wp_and (wp_flushSends s.1 s.2)
        (wp_flushSends_flying hready hids hflying)) (wp_run flushSends s)) ?_ ?_ ?_)
      · exact fun _ _ h => absurd h.1.1.2 hfails
      · exact fun _ _ h => .of_error h.1.2
      · intro s' h
        rw [h.2] at hreturned
        exact hreturned.elim
  · exact fun h => absurd h (notReady_flushSends.state hready)

theorem guarded_receiveOne {s : Pipeline × World ReplyServer} (hs : Guarded s) :
    Guarded (receiveOne s).state := by
  by_cases hready : InState .ready s.2
  · have hflight : s.1.inFlight = [] := (not_outstanding_iff.mp (hs hready)).1
    refine wp_always_iff.mp ?_
    rw [receiveOne, wp_bind, wp_get]
    dsimp only
    rw [hflight]
    exact hs
  · exact fun h => absurd h (notReady_receiveOne.state hready)

/-- The rounds of a `process_all` that begins with its replies in flight. Once a
round has left `Ready`, the state stays away from it. -/
theorem wp_processLoop_guarded (fuel : Nat) {s : Pipeline × World ReplyServer}
    (results : List PipelineResult) (hfuel : s.1.requests.length < fuel)
    (hready : InState .ready s.2) (hids : s.1.OneLineIds) (hflying : Flying s)
    (hrounds : ∀ v, Visits s v → RoundClear v) :
    wp (processLoop fuel results) (always Guarded) s := by
  induction fuel generalizing s results with
  | zero => exact absurd hfuel (Nat.not_lt_zero _)
  | succ fuel ih =>
      obtain ⟨hflush, hreceive⟩ := hrounds s (.start s) hready
      rw [processLoop]
      refine wp_seq (wp_and (wp_and (wp_flushSends s.1 s.2) (wp_flushSends_flying hready hids hflying))
        (wp_and (oneLineIds_flushSends s hids) (wp_run flushSends s))) ?_
        (fun _ _ h => .of_error h.1.2) ?_
      · rintro _ s₁ ⟨⟨⟨hp₁, -, -⟩, hready₁, hflying₁⟩, hids₁, hrun₁⟩
        rw [wp_bind, wp_get]
        dsimp only
        split
        · rename_i hempty
          exact hflying₁.guarded (by simpa using hempty)
        · rename_i hnonempty
          have hrec := wp_and (wp_and (wp_receiveOne s₁.1 s₁.2) (wp_receiveOne_flying hready₁ hflying₁))
            (wp_and (oneLineIds_receiveOne s₁ hids₁) (wp_run receiveOne s₁))
          refine wp_seq hrec ?_ (fun _ _ h => .of_error h.1.2) ?_
          · rintro result s₂ ⟨⟨hcount, hcase⟩, hids₂, hrun₂⟩
            cases result with
            | none => exact absurd hcount.1 (by simpa using hnonempty)
            | some r =>
                dsimp only
                split
                · rename_i hfatal
                  rcases hcase with ⟨hgoes, -⟩ | herror
                  · rw [hfatal] at hgoes
                    cases hgoes
                  · exact .of_error herror
                · rename_i hgoes
                  rcases hcase with ⟨-, hready₂, hflying₂⟩ | herror
                  · refine ih _ ?_ hready₂ hids₂ hflying₂ fun v hv => hrounds v ?_
                    · obtain ⟨-, -, hsplit, -⟩ := hcount
                      have hlen := congrArg List.length hsplit
                      rw [hp₁, Pipeline.afterSends_requests, List.length_cons] at hlen
                      omega
                    · exact .next hrun₁ hrun₂ (by simpa using hgoes) hv
                  -- Not fatal, but no longer `Ready`: the rounds do not bring it back.
                  · have hnot : NotReady s₂.2 :=
                      fun h => absurd (herror.symm.trans h) (by decide)
                    exact wp_mono (notReady_processLoop fuel _ s₂ hnot)
                      (fun _ _ h hr => absurd hr h) (fun _ _ h hr => absurd hr h)
                      (fun _ h hr => absurd hr h)
          · rintro s₂ ⟨-, -, hrun₂⟩
            have hreturned := hreceive s₁ hrun₁
            rw [hrun₂] at hreturned
            exact hreturned.elim
      · rintro s₁ ⟨-, -, hrun₁⟩
        rcases hflush with hreturned | hdropped
        · rw [hrun₁] at hreturned
          exact hreturned.elim
        · have hguard := wp_dropped (guarded_flushSends_droppedAtOnce hflying hdropped) hrun₁
          exact hguard

theorem guarded_processAll {s : Pipeline × World ReplyServer} (hids : s.1.OneLineIds)
    (hs : Guarded s) (hrounds : ∀ v, Visits s v → RoundClear v) :
    Guarded (processAll s).state := by
  refine wp_always_iff.mp ?_
  rw [processAll, wp_bind, wp_get]
  by_cases hready : InState .ready s.2
  · exact wp_processLoop_guarded _ [] (Nat.lt_succ_self _) hready hids (hs.flying hready) hrounds
  · exact wp_mono (notReady_processLoop _ [] s hready) (fun _ _ h hr => absurd hr h)
      (fun _ _ h hr => absurd hr h) (fun _ h hr => absurd hr h)

end Flight

/-! ### Runs -/

/-- A step of a program that uses one connection, through a pipeline, through
single-command operations, or by giving it back to the pool. The events are
those of the step's own I/O operations. -/
inductive PipelineStep where
  | newPipeline (depth : UInt8)
  | submit (messageId : String) (tag : Nat)
  | flushSends (events : List IoEvent)
  | receiveOne (events : List IoEvent)
  | processAll (events : List IoEvent)
  | call (c : Call) (events : List IoEvent)
  | release

/-- What `release` makes of a connection: it is parked, and handed out again, or
it is closed. -/
def World.released {π : Type} (w : World π) : World π :=
  if w.conn.isHealthy then w else { w with conn := { w.conn with transport := none } }

namespace PipelineStep

def run (gz : GzDecoder) :
    PipelineStep → Pipeline × World ReplyServer → Pipeline × World ReplyServer
  | .newPipeline depth, s => (.new depth, s.2)
  | .submit messageId tag, s => (s.1.submit messageId tag, s.2)
  | .flushSends events, s => (NzbNntp.flushSends (s.1, { s.2 with events })).state
  | .receiveOne events, s => (NzbNntp.receiveOne (s.1, { s.2 with events })).state
  | .processAll events, s => (NzbNntp.processAll (s.1, { s.2 with events })).state
  | .call c events, s => (s.1, (c.run gz { s.2 with events }).state)
  | .release, s => (s.1, s.2.released)

/-- The step leaves no command of a pipeline in flight on a `Ready` connection,
and puts no line break into a command line. -/
def Clear : PipelineStep → Pipeline × World ReplyServer → Prop
  | .submit messageId _, _ => OneLine messageId
  | .flushSends events, s => FlushClear (s.1, { s.2 with events })
  | .processAll events, s => ∀ v, Visits (s.1, { s.2 with events }) v → RoundClear v
  | .call c _, _ => c.OneLineArgs
  | _, _ => True

theorem oneLineIds_new (depth : UInt8) : (Pipeline.new depth).OneLineIds :=
  fun _ h => absurd h List.not_mem_nil

def Inv (s : Pipeline × World ReplyServer) : Prop := s.1.OneLineIds ∧ Guarded s

theorem inv_call {gz : GzDecoder} {s : Pipeline × World ReplyServer} (c : Call)
    (hargs : c.OneLineArgs) (hs : Guarded s) : Guarded (s.1, (c.run gz s.2).state) := by
  by_cases hready : InState .ready s.2
  · obtain ⟨hflight, howes⟩ := not_outstanding_iff.mp (hs hready)
    have haligned : Aligned s.2 := fun _ => ⟨hready, howes⟩
    intro hready'
    exact not_outstanding_iff.mpr ⟨hflight, (c.step_aligned hargs haligned hready').2⟩
  · have hrefused : wp (c.run gz) (always (· = s.2)) s.2 :=
      wp_mono (c.refuses_run hready) (fun _ _ h => h.elim) (fun _ _ h => h) (fun _ h => h.elim)
    rw [wp_always_iff.mp hrefused]
    exact hs

/-- A clear step keeps the connection guarded. -/
theorem inv_run {gz : GzDecoder} {s : Pipeline × World ReplyServer} (step : PipelineStep)
    (hclear : step.Clear s) (hs : Inv s) : Inv (step.run gz s) := by
  obtain ⟨hids, hguard⟩ := hs
  cases step with
  | newPipeline depth =>
      refine ⟨oneLineIds_new depth, fun hready => ?_⟩
      exact not_outstanding_iff.mpr ⟨rfl, (not_outstanding_iff.mp (hguard hready)).2⟩
  | submit messageId tag =>
      refine ⟨fun req hreq => ?_, hguard⟩
      rw [run, Pipeline.requests, Pipeline.submit, ← List.append_assoc, List.mem_append,
        List.mem_singleton] at hreq
      rcases hreq with hreq | rfl
      · exact hids req hreq
      · exact hclear
  | flushSends events =>
      exact ⟨oneLineIds_flushSends.state hids, guarded_flushSends hids hguard hclear⟩
  | receiveOne events => exact ⟨oneLineIds_receiveOne.state hids, guarded_receiveOne hguard⟩
  | processAll events =>
      refine ⟨?_, guarded_processAll hids hguard hclear⟩
      exact Preserves.state (preserves_bind preserves_get fun _ => oneLineIds_processLoop _ _) hids
  | call c events =>
      exact ⟨hids, inv_call (s := (s.1, { s.2 with events })) c hclear hguard⟩
  | release =>
      refine ⟨hids, ?_⟩
      change Guarded (s.1, s.2.released)
      unfold World.released
      split
      · exact hguard
      · intro hready
        refine not_outstanding_iff.mpr ⟨(not_outstanding_iff.mp (hguard hready)).1, ?_⟩
        rintro t ⟨⟩

end PipelineStep

def runSteps (gz : GzDecoder) (steps : List PipelineStep) (s : Pipeline × World ReplyServer) :
    Pipeline × World ReplyServer :=
  steps.foldl (fun s step => step.run gz s) s

/-- Every step of the run is clear in the state it begins in. -/
def AllClear (gz : GzDecoder) : List PipelineStep → Pipeline × World ReplyServer → Prop
  | [], _ => True
  | step :: steps, s => step.Clear s ∧ AllClear gz steps (step.run gz s)

theorem inv_runSteps {gz : GzDecoder} (steps : List PipelineStep)
    {s : Pipeline × World ReplyServer} (hclear : AllClear gz steps s)
    (hs : PipelineStep.Inv s) : PipelineStep.Inv (runSteps gz steps s) := by
  induction steps generalizing s with
  | nil => exact hs
  | cons step steps ih => exact ih hclear.2 (step.inv_run hclear.1 hs)

/-- **When `Ready` excludes outstanding replies.** In a run of clear steps on a
connection that starts with nothing unread: while a reply to a pipelined
command is outstanding the connection is not `Ready`, the pool does not park it,
and no single-command operation touches it. -/
theorem outstanding_excludes_ready (gz : GzDecoder) (depth : UInt8) (w : World ReplyServer)
    (hunread : ∀ t, w.conn.transport = some t → t.unread = [] ∧ Idle t.peer)
    (steps : List PipelineStep) (hclear : AllClear gz steps (.new depth, w))
    (houtstanding : Outstanding (runSteps gz steps (.new depth, w))) :
    (runSteps gz steps (.new depth, w)).2.conn.state ≠ .ready ∧
      (runSteps gz steps (.new depth, w)).2.conn.isHealthy = false ∧
      ∀ c : Call, wp (c.run gz)
        (Call.refuses c.Result (runSteps gz steps (.new depth, w)).2)
        (runSteps gz steps (.new depth, w)).2 := by
  have hstart : PipelineStep.Inv (.new depth, w) :=
    ⟨PipelineStep.oneLineIds_new depth,
      fun _ => not_outstanding_iff.mpr ⟨rfl, fun t ht => .inr (hunread t ht)⟩⟩
  have hnot : (runSteps gz steps (.new depth, w)).2.conn.state ≠ .ready :=
    fun h => (inv_runSteps steps hclear hstart).2 h houtstanding
  refine ⟨hnot, ?_, fun c => c.refuses_run hnot⟩
  simp [NntpConnection.isHealthy, hnot]

/-- A write that breaks off in the middle of a command. -/
def brokenWrite : List PipelineStep :=
  [.submit "a@b" 1, .flushSends [.fails ⟨.other "broken pipe", "broken pipe"⟩ 3]]

theorem outstanding_excludes_ready_on_brokenWrite :
    (runSteps rawDecoder brokenWrite (.new 4, .readyTo emptyServer)).2.conn.state ≠ .ready ∧
      (runSteps rawDecoder brokenWrite (.new 4, .readyTo emptyServer)).2.conn.isHealthy = false ∧
      ∀ c : Call, wp (c.run rawDecoder)
        (Call.refuses c.Result (runSteps rawDecoder brokenWrite (.new 4, .readyTo emptyServer)).2)
        (runSteps rawDecoder brokenWrite (.new 4, .readyTo emptyServer)).2 := by
  refine outstanding_excludes_ready rawDecoder 4 (.readyTo emptyServer)
    (by rintro t ht; cases ht; exact ⟨rfl, rfl, rfl⟩) brokenWrite
    ⟨(by decide : OneLine "a@b"), fun _ => .inr (.inr ⟨trivial, fun h => ?_⟩), trivial⟩
    (.inr ⟨_, rfl, ?_⟩)
  · rcases h.1 with h | ⟨-, h⟩
    · exact absurd h (by decide)
    · exact absurd (h _ (List.mem_singleton.mpr rfl)) (by decide)
  · rintro (h | ⟨-, h, -⟩)
    · exact absurd h (by decide)
    · exact absurd h (by decide)

/-- After `flush_sends` a connection is `Ready` with a reply outstanding. -/
theorem ready_with_reply_outstanding :
    ¬ ∀ (gz : GzDecoder) (depth : UInt8) (w : World ReplyServer) (steps : List PipelineStep),
      w.conn.state = .ready →
      (∀ t, w.conn.transport = some t → t.unread = [] ∧ Idle t.peer) →
      Outstanding (runSteps gz steps (.new depth, w)) →
      (runSteps gz steps (.new depth, w)).2.conn.state ≠ .ready := by
  intro h
  refine h rawDecoder 4 (.readyTo emptyServer) [.submit "a@b" 1, .flushSends []] rfl
    (by rintro t ht; cases ht; exact ⟨rfl, rfl, rfl⟩) (.inl ?_) ?_
  · decide
  · decide

end NzbNntp
