import NzbNntp.Connection.Errors
import NzbNntp.Pipeline.Depth
import NzbNntp.Pipeline.Rules

/-!
`process_all` on a connection that a reply has put into `Error`. The replies after
which it gives up are listed by their error variants, and the list lacks one: the
protocol error of a status code that no reply to `ARTICLE` has. After such a reply
the rounds go on, on a stream that may be out of step.
-/

namespace NzbNntp

open Interruptible

section Stops

variable {π : Type}

/-- The handling of the next reply sets the state to `Error`, whatever it was. -/
def SetsError (s : Pipeline × World π) : Prop :=
  (receiveOne (s.1, s.2.setState .ready)).state.2.conn.state = .error

/-- Nothing has been written or taken between the two. -/
def SameTraffic (s s' : Pipeline × World π) : Prop :=
  s.2.wire = s'.2.wire ∧ s.2.taken = s'.2.taken

def articleCodes : List Nat := [220, 430, 411, 412, 420, 423, 403, 480, 481, 482, 502]

/-- A reply that puts the connection into `Error` with an error that is not on the
list of `process_all`. -/
def Unlisted (status : NntpResponse) : Prop :=
  status.code ∉ articleCodes ∧ expiredSession status.code status.message = false

def IoEvent.moves : IoEvent → Bool
  | .ready | .eof _ => true
  | .fails _ n | .elapsed n | .dropped n => 0 < n

/-- The next operation of the rounds moves a byte: a command is pending that there is
room for, and some of it is written, or none is, a reply is awaited, and some of it
arrives. -/
def MovesOn (s : Pipeline × World π) : Prop :=
  ∃ t, s.2.conn.transport = some t ∧
    if s.1.sends = 0 then s.1.inFlight ≠ [] ∧ (t.readUntilLf s.2.nextEvent).2.1 ≠ []
    else s.2.nextEvent.moves = true

def Pipeline.withoutFirst (p : Pipeline) : Pipeline := { p with inFlight := p.inFlight.tail }

variable [Peer π]

/-- If the round that begins in `v` sets the state to `Error`, nothing is written or
taken from then on to the end. -/
def HaltsAt (final v : Pipeline × World π) : Prop :=
  ∀ s₁, flushSends v = .ok () s₁ → SetsError s₁ → SameTraffic final (receiveOne s₁).state

/-- Once the handling of a reply has set the state to `Error`, `process_all` writes
no command and reads no byte. -/
def StopsInError (s : Pipeline × World π) : Prop :=
  ∀ v, Visits s v → HaltsAt (processAll s).state v

/-- The reply of this round is an unlisted one, and after its status line the next
operation moves a byte. -/
def Overruns (v : Pipeline × World π) : Prop :=
  ∃ s₁ status t', flushSends v = .ok () s₁ ∧ s₁.1.inFlight ≠ [] ∧ NextStatus s₁.2 status t' ∧
    Unlisted status ∧ MovesOn (s₁.1.withoutFirst, (s₁.2.setTransport t').tick)

end Stops

/-! ### The state flag is not read -/

section Flag

variable {π : Type}

theorem oblivious_refuseIn {α : Type} (s : ConnectionState) (e : NntpError) :
    Oblivious World.setState (refuseIn s e : Nntp π (NntpResult α)) :=
  oblivious_bind (oblivious_setState s) fun _ => oblivious_pure _

theorem oblivious_readReply (request : PipelineRequest) :
    Oblivious World.setState (readReply request : Nntp π _) := by
  refine oblivious_bind
    (oblivious_inspectErr oblivious_readResponseLine fun _ _ => ⟨.error, rfl⟩) fun status => ?_
  split
  case h_1 =>
    refine oblivious_bind (oblivious_attempt oblivious_readMultilineBody) fun data => ?_
    split
    · exact oblivious_pure _
    · exact oblivious_refuseIn _ _
  case h_2 | h_3 | h_4 | h_5 | h_6 => exact oblivious_pure _
  all_goals exact oblivious_refuseIn _ _

theorem oblivious_receiveOne :
    Oblivious (fun s (σ : Pipeline × World π) => (σ.1, σ.2.setState s)) receiveOne := by
  refine oblivious_get_bind (fun _ _ => rfl) fun σ => ?_
  split
  · exact oblivious_pure _
  · exact oblivious_bind (oblivious_modify fun _ s => ⟨s, rfl⟩) fun _ =>
      oblivious_bind (oblivious_onSnd (oblivious_readReply _)) fun _ => oblivious_pure _

end Flag

/-! ### The handling of one reply -/

section Reply

variable {π : Type} {w : World π} {status : NntpResponse} {t' : Transport π}

/-- The errors with which the read of a block fails are all fatal. -/
theorem fatal_transmitted : Transmitted fun e => isFatal (.error e) = true :=
  ⟨fun _ => rfl, fun _ => rfl⟩

theorem wp_readMultilineBody_fatal :
    wp readMultilineBody
      ⟨fun _ w' => w'.conn.state = w.conn.state, fun e _ => isFatal (.error e) = true,
        fun _ => True⟩ w := by
  have hstate : Preserves (OfStatus fun s _ => s = w.conn.state) (readMultilineBody : Nntp π _) :=
    preserves_readMultilineBody
  have hfatal : wp readMultilineBody
      ⟨fun _ _ => True, fun e _ => isFatal (.error e) = true, fun _ => True⟩ w :=
    raises_readMultilineBody fatal_transmitted w
  exact wp_mono (wp_and hfatal (hstate w rfl)) (fun _ _ h => h.2) (fun _ _ h => h.1)
    (fun _ _ => trivial)

theorem isFatal_unlisted (h : Unlisted status) :
    isFatal (.error (unexpectedArticleResponse status.code status.message)) = false := by
  rw [unexpectedArticleResponse, h.2]
  rfl

/-- The reply to an unlisted status line is the line alone. -/
theorem readReply_unlisted (request : PipelineRequest) (hnext : NextStatus w status t')
    (h : Unlisted status) :
    readReply request w =
      .ok (.error (unexpectedArticleResponse status.code status.message))
        ((w.setTransport t').tick.setState .error) := by
  have hcode := h.1
  simp only [articleCodes, List.mem_cons, List.not_mem_nil, or_false, not_or] at hcode
  have hrun : wp (readReply request)
      ⟨fun result w' => result = .error (unexpectedArticleResponse status.code status.message) ∧
          w' = (w.setTransport t').tick.setState .error,
        fun _ _ => False, fun _ => False⟩ w := by
    have hread : wp (orError readResponseLine)
        ⟨fun r w' => r = status ∧ w' = (w.setTransport t').tick, fun _ _ => False,
          fun _ => False⟩ w := by
      rw [orError, wp_inspectErr]
      exact wp_readResponseLine_of_next hnext
    refine wp_seq hread ?_ (fun _ _ h => h) (fun _ h => h)
    rintro _ _ ⟨rfl, rfl⟩
    split
    case h_12 => exact ⟨rfl, rfl⟩
    all_goals omega
  obtain ⟨_, _, hrun, rfl, rfl⟩ := exists_ok_of_wp hrun
  exact hrun

/-- A result of a reply that is not fatal leaves the state, unless the reply is an
unlisted one. -/
theorem wp_readReply_flag (request : PipelineRequest) :
    wp (readReply request)
      ⟨fun result w' => isFatal result = true ∨ w'.conn.state = w.conn.state ∨
          ∃ status t', NextStatus w status t' ∧ Unlisted status,
        fun _ _ => True, fun _ => True⟩ w := by
  have hstatus : wp (orError readResponseLine)
      ⟨fun status w' => ∃ t', NextStatus w status t' ∧ w' = (w.setTransport t').tick,
        fun _ _ => True, fun _ => True⟩ w := by
    rw [orError, wp_inspectErr]
    exact wp_mono wp_readResponseLine_next (fun _ _ h => h) (fun _ _ _ => trivial) (fun _ h => h)
  refine wp_seq hstatus ?_ (fun _ _ _ => trivial) (fun _ _ => trivial)
  rintro status w' ⟨t', hnext, rfl⟩
  split
  case h_1 =>
    rw [wp_bind, wp_attempt]
    exact wp_mono wp_readMultilineBody_fatal (fun _ _ h => .inr (.inl h)) (fun _ _ h => .inl h)
      (fun _ _ => trivial)
  case h_12 =>
    cases hexpired : expiredSession status.code status.message with
    | true =>
        refine .inl ?_
        rw [unexpectedArticleResponse, hexpired]
        rfl
    | false =>
        refine .inr (.inr ⟨status, t', hnext, ?_, hexpired⟩)
        simp_all [articleCodes]
  case h_2 | h_3 | h_4 | h_5 | h_6 => exact .inr (.inl rfl)
  all_goals exact .inl rfl

theorem wp_receiveOne_flag (σ : Pipeline × World π) :
    wp receiveOne
      ⟨fun r σ' => ∀ r₀, r = some r₀ → isFatal r₀.result = true ∨
          σ'.2.conn.state = σ.2.conn.state ∨
          ∃ status t', NextStatus σ.2 status t' ∧ Unlisted status,
        fun _ _ => True, fun _ => True⟩ σ := by
  rw [receiveOne, wp_bind, wp_get]
  dsimp only
  split
  · exact fun _ h => by cases h
  · simp only [modifyPipeline, wp_bind, wp_modify, wp_onSnd]
    refine wp_mono (wp_readReply_flag _) ?_ (fun _ _ h => h) (fun _ h => h)
    intro result w' hflag r₀ hr₀
    cases hr₀
    exact hflag

theorem exists_receiveOne_unlisted {σ : Pipeline × World π} (hne : σ.1.inFlight ≠ [])
    (hnext : NextStatus σ.2 status t') (h : Unlisted status) :
    ∃ r, isFatal r.result = false ∧ receiveOne σ =
      .ok (some r) (σ.1.withoutFirst, (σ.2.setTransport t').tick.setState .error) := by
  obtain ⟨⟨depth, inFlight, pending⟩, w⟩ := σ
  cases inFlight with
  | nil => exact absurd rfl hne
  | cons request rest =>
      refine ⟨⟨request, .error (unexpectedArticleResponse status.code status.message)⟩,
        isFatal_unlisted h, ?_⟩
      have hrun : wp receiveOne
          ⟨fun r σ' => r = some ⟨request, .error (unexpectedArticleResponse status.code
                status.message)⟩ ∧
              σ' = (⟨depth, rest, pending⟩, (w.setTransport t').tick.setState .error),
            fun _ _ => False, fun _ => False⟩ (⟨depth, request :: rest, pending⟩, w) := by
        simp only [receiveOne, wp_bind, wp_get, modifyPipeline, wp_modify, wp_onSnd]
        rw [wp, readReply_unlisted request hnext h]
        exact ⟨rfl, rfl⟩
      obtain ⟨_, _, hrun, rfl, rfl⟩ := exists_ok_of_wp hrun
      exact hrun

end Reply

/-! ### What moves -/

section Moves

variable {π : Type} {t : Transport π} {w : World π} {n : Nat}

/-- More than `n` bytes have been written or taken. -/
def Exceeds (n : Nat) (w : World π) : Prop :=
  ∃ t, w.conn.transport = some t ∧ n < t.wire.length + t.taken.length

theorem Exceeds.read (w : World π) (t t' : Transport π) (ht : w.conn.transport = some t)
    (hreads : t.ReadsTo t') (h : Exceeds n w) : Exceeds n (w.setTransport t').tick := by
  obtain ⟨t₀, ht₀, hn⟩ := h
  obtain rfl : t = t₀ := Option.some.inj (ht.symm.trans ht₀)
  refine ⟨t', rfl, ?_⟩
  rw [hreads.wire]
  have hle := hreads.taken.length_le
  omega

instance : ReadStable (Exceeds n : World π → Prop) :=
  .of_readsTo Exceeds.read (fun _ _ h => h) (fun _ _ h => h) (fun _ _ _ h => h)

theorem admits_exceeds [Peer π] (data : Bytes) : Admits (Exceeds n : World π → Prop) data := by
  rintro w t ht ⟨t₀, ht₀, hn⟩
  obtain rfl : t = t₀ := Option.some.inj (ht.symm.trans ht₀)
  have hwrites := Transport.WritesTo.writeAll t data w.nextEvent
  obtain ⟨k, hwire⟩ := hwrites.wire
  refine ⟨_, rfl, ?_⟩
  rw [hwire, hwrites.taken, List.length_append]
  omega

theorem wp_readResponseLine_moves (ht : w.conn.transport = some t)
    (hmoves : (t.readUntilLf w.nextEvent).2.1 ≠ []) :
    wp readResponseLine (always (Exceeds (t.wire.length + t.taken.length))) w := by
  have hexceeds : Exceeds (t.wire.length + t.taken.length)
      (w.setTransport (t.readUntilLf w.nextEvent).2.2).tick := by
    refine ⟨_, rfl, ?_⟩
    have hlen := List.length_pos_of_ne_nil hmoves
    rw [(Transport.ReadsTo.readUntilLf t w.nextEvent).wire, taken_readUntilLf,
      List.length_append]
    omega
  simp only [readResponseLine, wp_bind, wp_onTransport ht]
  refine wp_settle (fun _ => ?_) (fun _ => hexceeds) hexceeds
  split
  · exact hexceeds
  · split
    · exact hexceeds
    · dsimp only
      rw [wp_ofExcept]
      exact ⟨fun _ _ => hexceeds, fun _ _ => hexceeds⟩

/-- A wait for a line that takes no byte does not end with a line. -/
theorem wp_readResponseLine_still
    (hstill : ∀ t, w.conn.transport = some t → (t.readUntilLf w.nextEvent).2.1 = []) :
    wp readResponseLine
      ⟨fun _ _ => False, fun _ w' => w'.wire = w.wire ∧ w'.taken = w.taken,
        fun w' => w'.wire = w.wire ∧ w'.taken = w.taken⟩ w := by
  cases ht : w.conn.transport with
  | none =>
      simp only [readResponseLine, wp_bind, wp_onTransport_none ht, and_self]
  | some t =>
      have hsame : ((w.setTransport (t.readUntilLf w.nextEvent).2.2).tick).wire = w.wire ∧
          ((w.setTransport (t.readUntilLf w.nextEvent).2.2).tick).taken = w.taken := by
        rw [World.wire, World.wire, World.taken, World.taken, ht]
        refine ⟨congrArg some (Transport.ReadsTo.readUntilLf t _).wire, congrArg some ?_⟩
        show (t.readUntilLf w.nextEvent).2.2.taken = t.taken
        rw [taken_readUntilLf, hstill t ht, List.append_nil]
      simp only [readResponseLine, wp_bind, wp_onTransport ht, hstill t ht]
      exact wp_settle (fun _ => hsame) (fun _ => hsame) hsame

variable [Peer π] {cmd : String}

theorem commandLine_ne_nil (cmd : String) : commandLine cmd ≠ [] := by
  rw [commandLine_eq]
  simp

theorem wp_sendCommandNoFlush_moves (ht : w.conn.transport = some t)
    (hmoves : w.nextEvent.moves = true) :
    wp (sendCommandNoFlush cmd) (always (Exceeds (t.wire.length + t.taken.length))) w := by
  have hpos := List.length_pos_of_ne_nil (commandLine_ne_nil cmd)
  have hexceeds : Exceeds (t.wire.length + t.taken.length)
      (w.setTransport (t.writeAll (commandLine cmd) w.nextEvent).2).tick := by
    refine ⟨_, rfl, ?_⟩
    cases hev : w.nextEvent with
    | ready | eof n =>
        simp only [Transport.writeAll, Transport.deliver, Transport.endStream, List.length_append]
        omega
    | fails error n | elapsed n | dropped n =>
        have hn : 0 < n := by
          rw [hev] at hmoves
          exact of_decide_eq_true hmoves
        simp only [Transport.writeAll, Transport.deliver, List.length_append, List.length_take]
        omega
  simp only [sendCommandNoFlush, wp_bind, wp_onTransport ht, wp_get]
  exact wp_settle (fun _ => hexceeds) (fun _ => hexceeds) hexceeds

/-- A write that moves no byte fails. -/
theorem wp_sendCommandNoFlush_still
    (hstill : ∀ t, w.conn.transport = some t → w.nextEvent.moves = false) :
    wp (sendCommandNoFlush cmd)
      ⟨fun _ _ => False, fun _ w' => w'.wire = w.wire ∧ w'.taken = w.taken,
        fun w' => w'.wire = w.wire ∧ w'.taken = w.taken⟩ w := by
  cases ht : w.conn.transport with
  | none =>
      simp only [sendCommandNoFlush, wp_bind, wp_onTransport_none ht, and_self]
  | some t =>
      have hev := hstill t ht
      simp only [sendCommandNoFlush, wp_bind, wp_onTransport ht, wp_get]
      cases hevent : w.nextEvent with
      | ready | eof n =>
          rw [hevent] at hev
          cases hev
      | fails error n | elapsed n | dropped n =>
          obtain rfl : n = 0 := by
            rw [hevent] at hev
            exact Nat.eq_zero_of_not_pos (of_decide_eq_false hev)
          simp only [Transport.writeAll, List.take_zero, Transport.deliver_nil, settle]
          refine ⟨?_, ?_⟩
          · rw [World.wire, World.wire, ht]
            rfl
          · rw [World.taken, World.taken, ht]
            rfl

end Moves

/-! ### The rounds one by one -/

section Rounds

variable {π : Type} [Peer π] {σ σ₁ σ₂ : Pipeline × World π} {fuel : Nat}
  {results : List PipelineResult}

theorem processLoop_done (hflush : flushSends σ = .ok () σ₁) (hempty : σ₁.1.inFlight = []) :
    processLoop (fuel + 1) results σ = .ok results σ₁ := by
  rw [processLoop, Comp.bind_apply, hflush]
  change (if σ₁.1.inFlight.isEmpty then pure results else _ : Piped π _) σ₁ = _
  rw [if_pos (by rw [hempty]; rfl)]
  rfl

theorem processLoop_receives (hflush : flushSends σ = .ok () σ₁) (hne : σ₁.1.inFlight ≠ []) :
    processLoop (fuel + 1) results σ = (receiveOne σ₁).bind fun result s =>
      (match result with
        | none => processLoop fuel results
        | some result =>
            if isFatal result.result then do
              let s ← Comp.get
              modifyPipeline fun p => { p with inFlight := [], pending := [] }
              return results ++ [result] ++ s.1.requests.map aborted
            else processLoop fuel (results ++ [result]) : Piped π _) s := by
  rw [processLoop, Comp.bind_apply, hflush]
  change (if σ₁.1.inFlight.isEmpty then pure results else _ : Piped π _) σ₁ = _
  rw [if_neg (by simpa using hne)]
  rfl

theorem processLoop_err {e : NntpError} (hflush : flushSends σ = .ok () σ₁)
    (hne : σ₁.1.inFlight ≠ []) (hreceive : receiveOne σ₁ = .err e σ₂) :
    processLoop (fuel + 1) results σ = .err e σ₂ := by
  rw [processLoop_receives hflush hne, hreceive]
  rfl

theorem processLoop_dropped (hflush : flushSends σ = .ok () σ₁)
    (hne : σ₁.1.inFlight ≠ []) (hreceive : receiveOne σ₁ = .dropped σ₂) :
    processLoop (fuel + 1) results σ = .dropped σ₂ := by
  rw [processLoop_receives hflush hne, hreceive]
  rfl

theorem processLoop_fatal (fuel : Nat) (results : List PipelineResult) {r : PipelineResult}
    (hflush : flushSends σ = .ok () σ₁)
    (hne : σ₁.1.inFlight ≠ []) (hreceive : receiveOne σ₁ = .ok (some r) σ₂)
    (hfatal : isFatal r.result = true) :
    (processLoop (fuel + 1) results σ).state.2 = σ₂.2 := by
  rw [processLoop_receives hflush hne, hreceive, Outcome.bind_ok]
  dsimp only
  rw [if_pos hfatal]
  rfl

theorem processLoop_goes {r : PipelineResult} (hflush : flushSends σ = .ok () σ₁)
    (hne : σ₁.1.inFlight ≠ []) (hreceive : receiveOne σ₁ = .ok (some r) σ₂)
    (hgoes : isFatal r.result = false) :
    processLoop (fuel + 1) results σ = processLoop fuel (results ++ [r]) σ₂ := by
  rw [processLoop_receives hflush hne, hreceive, Outcome.bind_ok]
  dsimp only
  rw [if_neg (by rw [hgoes]; decide)]

/-- What the write of the first command establishes, the rest of a flush keeps. -/
theorem wp_flushSends_always {P : World π → Prop} [ReadStable P]
    (herror : ∀ w, P w → P (w.setState .error)) (hadmits : ∀ cmd, Admits P (commandLine cmd))
    (hsends : σ.1.sends ≠ 0)
    (hsend : ∀ cmd, wp (sendCommandNoFlush cmd) (always P) σ.2) :
    wp flushSends (always fun s => P s.2) σ := by
  obtain ⟨hroom, req, rest, hpending⟩ := Pipeline.exists_pending hsends
  have hloop : wp (flushLoop (rest.length + 1)) (always fun s => P s.2) σ :=
    (wp_flushLoop_succ hroom hpending).mpr (wp_mono (hsend _)
      (fun _ w' h => preserves_flushLoop herror hadmits _ _ h) (fun _ w' h => herror w' h)
      (fun _ h => h))
  rw [flushSends, wp_bind, wp_get]
  dsimp only
  rw [hpending, List.length_cons]
  refine wp_seq hloop (fun sent σ' h => ?_) (fun _ _ h => h) (fun _ h => h)
  split
  · exact preserves_onSnd (preserves_orError preserves_flush herror) σ' h
  · exact h

/-- What is written and taken in a flush whose first write moves no byte. -/
theorem wp_flushSends_still (hsends : σ.1.sends ≠ 0)
    (hstill : ∀ t, σ.2.conn.transport = some t → σ.2.nextEvent.moves = false) :
    wp flushSends
      ⟨fun _ _ => False, fun _ σ' => SameTraffic σ' σ, fun σ' => SameTraffic σ' σ⟩ σ := by
  obtain ⟨hroom, req, rest, hpending⟩ := Pipeline.exists_pending hsends
  rw [flushSends, wp_bind, wp_get]
  dsimp only
  rw [hpending, List.length_cons, wp_bind]
  exact (wp_flushLoop_succ hroom hpending).mpr (wp_mono (wp_sendCommandNoFlush_still hstill)
    (fun _ _ h => h.elim) (fun _ _ h => h) (fun _ h => h))

omit [Peer π] in
theorem wp_receiveOne_still (hne : σ.1.inFlight ≠ [])
    (hstill : ∀ t, σ.2.conn.transport = some t → (t.readUntilLf σ.2.nextEvent).2.1 = []) :
    wp receiveOne
      ⟨fun _ _ => False, fun _ σ' => SameTraffic σ' σ, fun σ' => SameTraffic σ' σ⟩ σ := by
  have hstatus : wp (orError readResponseLine)
      ⟨fun _ _ => False, fun _ w' => w'.wire = σ.2.wire ∧ w'.taken = σ.2.taken,
        fun w' => w'.wire = σ.2.wire ∧ w'.taken = σ.2.taken⟩ σ.2 := by
    rw [orError, wp_inspectErr]
    exact wp_mono (wp_readResponseLine_still hstill) (fun _ _ h => h) (fun _ _ h => h)
      (fun _ h => h)
  rw [receiveOne, wp_bind, wp_get]
  dsimp only
  split
  · contradiction
  · simp only [modifyPipeline, wp_bind, wp_modify, wp_onSnd, readReply]
    exact wp_mono hstatus (fun _ _ h => h.elim) (fun _ _ h => h) (fun _ h => h)

/-- The rounds from `σ` on write and take nothing if their next operation moves no
byte: then it fails, and they end with it. -/
theorem sameTraffic_of_still (h : ¬ MovesOn σ) :
    SameTraffic (processLoop fuel results σ).state σ := by
  cases fuel with
  | zero => exact ⟨rfl, rfl⟩
  | succ fuel =>
      by_cases hsends : σ.1.sends = 0
      · have hflush := flushSends_idle hsends
        by_cases hempty : σ.1.inFlight = []
        · rw [processLoop_done hflush hempty]
          exact ⟨rfl, rfl⟩
        · have hstill : ∀ t, σ.2.conn.transport = some t →
              (t.readUntilLf σ.2.nextEvent).2.1 = [] := by
            intro t ht
            by_contra hmoves
            exact h ⟨t, ht, by rw [if_pos hsends]; exact ⟨hempty, hmoves⟩⟩
          have hrun := wp_receiveOne_still hempty hstill
          unfold wp at hrun
          cases hreceive : receiveOne σ with
          | ok r σ₂ =>
              rw [hreceive] at hrun
              exact hrun.elim
          | err e σ₂ =>
              rw [hreceive] at hrun
              rw [processLoop_err hflush hempty hreceive]
              exact hrun
          | dropped σ₂ =>
              rw [hreceive] at hrun
              rw [processLoop_dropped hflush hempty hreceive]
              exact hrun
      · have hstill : ∀ t, σ.2.conn.transport = some t → σ.2.nextEvent.moves = false := by
          intro t ht
          by_contra hmoves
          exact h ⟨t, ht, by rw [if_neg hsends]; exact eq_true_of_ne_false hmoves⟩
        refine wp_always_iff (P := fun σ' => SameTraffic σ' σ) |>.mp ?_
        rw [processLoop]
        exact wp_seq (wp_flushSends_still hsends hstill) (fun _ _ h => h.elim) (fun _ _ h => h)
          (fun _ h => h)

omit [Peer π] in
theorem Exceeds.not_sameTraffic {t : Transport π} {σ' : Pipeline × World π}
    (ht : σ.2.conn.transport = some t) (h : Exceeds (t.wire.length + t.taken.length) σ'.2) :
    ¬ SameTraffic σ' σ := by
  obtain ⟨t', ht', hlen⟩ := h
  rintro ⟨hwire, htaken⟩
  rw [World.wire, World.wire, ht, ht', Option.map_some, Option.map_some] at hwire
  rw [World.taken, World.taken, ht, ht', Option.map_some, Option.map_some] at htaken
  rw [Option.some.inj hwire, Option.some.inj htaken] at hlen
  exact absurd hlen (Nat.lt_irrefl _)

/-- If their next operation moves a byte, the rounds write or take something, whatever
becomes of the rest. -/
theorem not_sameTraffic_of_moves (hfuel : 0 < fuel) (h : MovesOn σ) :
    ¬ SameTraffic (processLoop fuel results σ).state σ := by
  obtain ⟨fuel, rfl⟩ : ∃ k, fuel = k + 1 := ⟨fuel - 1, by omega⟩
  obtain ⟨t, ht, hmoves⟩ := h
  have herror : ∀ w : World π, Exceeds (t.wire.length + t.taken.length) w →
      Exceeds (t.wire.length + t.taken.length) (w.setState .error) := fun _ h => h
  have hadmits : ∀ cmd, Admits (π := π) (Exceeds (t.wire.length + t.taken.length))
      (commandLine cmd) := fun _ => admits_exceeds _
  refine Exceeds.not_sameTraffic ht (wp_always_iff.mp
    (wp_round_always (preserves_processLoop herror hadmits fuel) ?_))
  by_cases hsends : σ.1.sends = 0
  · rw [if_pos hsends] at hmoves
    rw [wp, flushSends_idle hsends]
    exact ⟨fun hempty => absurd hempty hmoves.1,
      wp_receiveOne_always herror hmoves.1 (wp_readResponseLine_moves ht hmoves.2)⟩
  · rw [if_neg hsends] at hmoves
    exact wp_mono (wp_flushSends_always herror hadmits hsends fun _ =>
        wp_sendCommandNoFlush_moves ht hmoves)
      (fun _ σ₁ h => ⟨fun _ => h, preserves_receiveOne herror σ₁ h⟩) (fun _ _ h => h)
      (fun _ h => h)

omit [Peer π] in
/-- What sets the state to `Error` without ending the rounds is an unlisted reply. -/
theorem exists_unlisted {r : PipelineResult} (hreceive : receiveOne σ₁ = .ok (some r) σ₂)
    (hgoes : isFatal r.result = false) (hsets : SetsError σ₁) :
    ∃ status t', NextStatus σ₁.2 status t' ∧ Unlisted status := by
  obtain ⟨s, hready⟩ := oblivious_receiveOne σ₁ .ready
  rw [hreceive] at hready
  rcases wp_ok (wp_receiveOne_flag _) hready r rfl with hfatal | hsame | hunlisted
  · rw [hgoes] at hfatal
    cases hfatal
  · change (receiveOne (σ₁.1, σ₁.2.setState .ready)).state.2.conn.state = .error at hsets
    rw [hready] at hsets
    cases hsame.symm.trans hsets
  · exact hunlisted

/-- A round that is not the last one halts unless it overruns. -/
theorem haltsAt_iff {r : PipelineResult} (hfuel : 0 < fuel) (hflush : flushSends σ = .ok () σ₁)
    (hne : σ₁.1.inFlight ≠ []) (hreceive : receiveOne σ₁ = .ok (some r) σ₂)
    (hgoes : isFatal r.result = false) :
    HaltsAt (processLoop fuel results σ₂).state σ ↔ ¬ Overruns σ := by
  constructor
  · rintro hhalts ⟨s₁, status, t', hflush', -, hnext, hunlisted, hmoves⟩
    rw [hflush] at hflush'
    cases hflush'
    obtain ⟨r', -, hr'⟩ := exists_receiveOne_unlisted hne hnext hunlisted
    have hsets : SetsError σ₁ := by
      obtain ⟨r'', -, hr''⟩ := exists_receiveOne_unlisted (σ := (σ₁.1, σ₁.2.setState .ready)) hne
        hnext hunlisted
      rw [SetsError, hr'']
      rfl
    have hsame := hhalts σ₁ hflush hsets
    rw [hreceive] at hr' hsame
    cases hr'
    have hmoves' : MovesOn (σ₁.1.withoutFirst, (σ₁.2.setTransport t').tick.setState .error) :=
      hmoves
    exact not_sameTraffic_of_moves hfuel hmoves' hsame
  · intro h s₁ hflush' hsets
    rw [hflush] at hflush'
    cases hflush'
    obtain ⟨status, t', hnext, hunlisted⟩ := exists_unlisted hreceive hgoes hsets
    obtain ⟨r', -, hr'⟩ := exists_receiveOne_unlisted hne hnext hunlisted
    rw [hreceive] at hr' ⊢
    cases hr'
    exact sameTraffic_of_still fun hmoves =>
      h ⟨σ₁, status, t', hflush, hne, hnext, hunlisted, hmoves⟩

/-- A round with which the rounds end halts, and does not overrun. -/
theorem visits_once_halts {final : Pipeline × World π}
    (hends : ∀ s₁ r s₂, flushSends σ = .ok () s₁ → receiveOne s₁ = .ok (some r) s₂ →
      isFatal r.result = true)
    (hsame : ∀ s₁, flushSends σ = .ok () s₁ → SameTraffic final (receiveOne s₁).state) :
    (∀ v, Visits σ v → HaltsAt final v) ↔ ∀ v, Visits σ v → ¬ Overruns v := by
  rw [visits_once hends, visits_once hends]
  refine iff_of_true (fun s₁ hflush _ => hsame s₁ hflush) ?_
  rintro ⟨s₁, status, t', hflush, hne, hnext, hunlisted, -⟩
  obtain ⟨r, hgoes, hreceive⟩ := exists_receiveOne_unlisted hne hnext hunlisted
  rw [hends s₁ r _ hflush hreceive] at hgoes
  cases hgoes

/-- The rounds, by induction on the fuel: each but the last takes a request off the
queues. -/
theorem visits_haltsAt_iff (fuel : Nat) {σ : Pipeline × World π} (results : List PipelineResult)
    (hfuel : σ.1.requests.length < fuel) :
    (∀ v, Visits σ v → HaltsAt (processLoop fuel results σ).state v) ↔
      ∀ v, Visits σ v → ¬ Overruns v := by
  induction fuel generalizing σ results with
  | zero => exact absurd hfuel (Nat.not_lt_zero _)
  | succ fuel ih =>
      by_cases hflushes : ∃ σ₁, flushSends σ = .ok () σ₁
      · obtain ⟨σ₁, hflush⟩ := hflushes
        have hrequests₁ : σ₁.1.requests = σ.1.requests := by
          rw [(wp_ok (wp_flushSends σ.1 σ.2) hflush).1, Pipeline.afterSends_requests]
        have hlast : ∀ {o}, receiveOne σ₁ = o →
            (∀ r s₂, o = .ok (some r) s₂ → isFatal r.result = true) →
            SameTraffic (processLoop (fuel + 1) results σ).state o.state →
            ((∀ v, Visits σ v → HaltsAt (processLoop (fuel + 1) results σ).state v) ↔
              ∀ v, Visits σ v → ¬ Overruns v) := by
          rintro o rfl hends hsame
          refine visits_once_halts (fun s₁ r s₂ hflush' => ?_) (fun s₁ hflush' => ?_)
          · rw [hflush] at hflush'
            cases hflush'
            exact hends r s₂
          · rw [hflush] at hflush'
            cases hflush'
            exact hsame
        by_cases hempty : σ₁.1.inFlight = []
        · refine hlast (receiveOne_idle hempty) (fun r s₂ h => by cases h) ?_
          rw [processLoop_done hflush hempty]
          exact ⟨rfl, rfl⟩
        · cases hreceive : receiveOne σ₁ with
          | err e σ₂ =>
              refine hlast hreceive (fun r s₂ h => by cases h) ?_
              rw [processLoop_err hflush hempty hreceive]
              exact ⟨rfl, rfl⟩
          | dropped σ₂ =>
              refine hlast hreceive (fun r s₂ h => by cases h) ?_
              rw [processLoop_dropped hflush hempty hreceive]
              exact ⟨rfl, rfl⟩
          | ok result σ₂ =>
              have hcase := wp_ok (wp_receiveOne σ₁.1 σ₁.2) hreceive
              cases result with
              | none => exact absurd hcase.1 hempty
              | some r =>
                  cases hfatal : isFatal r.result with
                  | true =>
                      refine hlast hreceive (fun r' s₂ h => by cases h; exact hfatal) ?_
                      have hsame := processLoop_fatal fuel results hflush hempty hreceive hfatal
                      exact ⟨congrArg World.wire hsame, congrArg World.taken hsame⟩
                  | false =>
                      have hlen := congrArg List.length hcase.2.2.1
                      rw [hrequests₁, List.length_cons] at hlen
                      rw [visits_iff hflush hreceive hfatal, visits_iff hflush hreceive hfatal,
                        processLoop_goes hflush hempty hreceive hfatal, ih _ (by omega),
                        haltsAt_iff (by omega) hflush hempty hreceive hfatal]
      · exact visits_once_halts (fun s₁ _ _ hflush => absurd ⟨s₁, hflush⟩ hflushes)
          (fun s₁ hflush => absurd ⟨s₁, hflush⟩ hflushes)

/-- **When `process_all` stops.** Once the handling of a reply has set the state to
`Error`, no command is written and no byte is read, if and only if no round of the
run reads an unlisted reply after which the next operation still moves a byte. -/
theorem processAll_stops_iff (s : Pipeline × World π) :
    StopsInError s ↔ ∀ v, Visits s v → ¬ Overruns v :=
  visits_haltsAt_iff _ [] (Nat.lt_succ_self _)

end Rounds

def oddServer : ReplyServer where
  answer _ := .bare (Text.utf8 "499 odd\r") (by decide)

/-- `process_all` goes on after a reply with an unlisted code: it writes the second
command after the first reply has put the connection into `Error`. -/
theorem processAll_can_go_on : ¬ ∀ s : Pipeline × World ReplyServer, StopsInError s := by
  intro h
  let s : Pipeline × World ReplyServer :=
    ({ depth := 1, pending := [⟨"a@b", 1⟩, ⟨"c@d", 2⟩] }, .readyTo oddServer)
  have hflush : flushSends s = .ok () (flushSends s).state := rfl
  have hsets : SetsError (flushSends s).state := by
    show _ = _
    decide +kernel
  have hsame := h s s (.start s) _ hflush hsets
  exact absurd hsame.1 (by decide +kernel)

end NzbNntp
