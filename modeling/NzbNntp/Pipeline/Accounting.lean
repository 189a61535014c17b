import NzbNntp.Pipeline.Basic
import NzbNntp.ReplyServer
import NzbNntp.Connection.Replies
import Mathlib.Data.List.Basic

/-!
What becomes of the requests of a pipeline when I/O fails. A request leaves its
queue before the operation that may fail: `flush_sends` loses the request whose
command cannot be written, `receive_one` the one whose status line cannot be
read, and `process_all` with such an error also the outcomes it had already.
Without these failures every request keeps its place or gets an outcome.
-/

namespace NzbNntp

open Interruptible

section Accounting

variable {π : Type}

def SendsComplete (s : Pipeline × World π) : Prop :=
  s.1.sends = 0 ∨
    (s.2.conn.transport.isSome = true ∧ ∀ e ∈ s.2.events.take s.1.sends, e.completes = true)

def FlushCompletes (s : Pipeline × World π) : Prop :=
  s.1.sends = 0 ∨ ((s.2.events.drop s.1.sends).headD .ready).completes = true

theorem completes_take_succ {w : World π} {n : Nat} :
    (∀ e ∈ w.events.take (n + 1), e.completes = true) ↔
      w.nextEvent.completes = true ∧ ∀ e ∈ w.tick.events.take n, e.completes = true := by
  cases hevents : w.events with
  | nil => simp [World.nextEvent, World.tick, hevents, IoEvent.completes]
  | cons e es => simp [World.nextEvent, World.tick, hevents]

section Peers

variable [Peer π]

/-- A command is written if and only if there is a transport and the write
completes. -/
theorem wp_sendCommandNoFlush_iff (cmd : String) (w : World π) :
    wp (sendCommandNoFlush cmd)
      ⟨fun _ w' => w.conn.transport.isSome = true ∧ w.nextEvent.completes = true ∧
          w'.conn.transport.isSome = true ∧ w'.events = w.tick.events,
        fun _ _ => ¬ (w.conn.transport.isSome = true ∧ w.nextEvent.completes = true),
        fun _ => True⟩ w := by
  cases ht : w.conn.transport with
  | none =>
      simp only [sendCommandNoFlush, wp_bind, wp_onTransport_none ht]
      simp
  | some t =>
      simp only [sendCommandNoFlush, wp_bind, wp_onTransport ht, wp_get]
      cases hev : w.nextEvent with
      | ready => exact ⟨rfl, rfl, rfl, rfl⟩
      | eof n => exact ⟨rfl, rfl, rfl, rfl⟩
      | fails error n => exact fun h => Bool.false_ne_true h.2
      | elapsed n => exact fun h => Bool.false_ne_true h.2
      | dropped n => trivial

def Pipeline.sendFirst (p : Pipeline) (req : PipelineRequest) (rest : List PipelineRequest) :
    Pipeline :=
  { p with inFlight := p.inFlight ++ [req], pending := rest }

/-- What `flush_sends` sends first. -/
theorem Pipeline.exists_pending {p : Pipeline} (h : p.sends ≠ 0) :
    p.inFlight.length < p.depth ∧ ∃ req rest, p.pending = req :: rest := by
  rw [Pipeline.sends] at h
  exact ⟨by omega, List.exists_cons_of_length_pos (by omega)⟩

theorem flushLoop_idle {fuel : Nat} {s : Pipeline × World π} (h : s.1.sends = 0) :
    flushLoop fuel s = .ok 0 s := by
  cases fuel with
  | zero => rfl
  | succ fuel =>
      rw [flushLoop, Comp.bind_apply]
      change (if _ then _ else _ : Piped π Nat) s = _
      split
      · rename_i hroom
        cases hpending : s.1.pending with
        | nil => rfl
        | cons req rest =>
            rw [Pipeline.sends, hpending, List.length_cons] at h
            omega
      · rfl

theorem flushSends_idle {s : Pipeline × World π} (h : s.1.sends = 0) :
    flushSends s = .ok () s := by
  change ((flushLoop s.1.pending.length) s).bind _ = _
  rw [flushLoop_idle h]
  rfl

/-- One round of the loop. -/
theorem wp_flushLoop_succ {fuel : Nat} {p : Pipeline} {w : World π} {req : PipelineRequest}
    {rest : List PipelineRequest} {Q : Post NntpError (Pipeline × World π) Nat}
    (hroom : p.inFlight.length < p.depth) (hpending : p.pending = req :: rest) :
    wp (flushLoop (fuel + 1)) Q (p, w) ↔
      wp (sendCommandNoFlush s!"ARTICLE {req.mid}")
        ⟨fun _ w' =>
            wp (flushLoop fuel) ⟨fun n => Q.ok (n + 1), Q.err, Q.dropped⟩
              (p.sendFirst req rest, w'),
          fun e w' => Q.err e ({ p with pending := rest }, w'.setState .error),
          fun w' => Q.dropped ({ p with pending := rest }, w')⟩ w := by
  rw [flushLoop, wp_bind, wp_get]
  dsimp only
  rw [if_pos hroom, hpending]
  simp only [modifyPipeline, wp_bind, wp_modify, wp_onSnd, orError, wp_inspectErr]
  rfl

theorem sends_sendFirst {p : Pipeline} {req : PipelineRequest} {rest : List PipelineRequest}
    (hroom : p.inFlight.length < p.depth) (hpending : p.pending = req :: rest) :
    p.sends = (p.sendFirst req rest).sends + 1 := by
  simp only [Pipeline.sends, Pipeline.sendFirst, hpending, List.length_append, List.length_cons,
    List.length_nil]
  omega

theorem afterSends_sendFirst {p : Pipeline} {req : PipelineRequest}
    {rest : List PipelineRequest} (hpending : p.pending = req :: rest) (n : Nat) :
    (p.sendFirst req rest).afterSends n = p.afterSends (n + 1) := by
  simp [Pipeline.sendFirst, Pipeline.afterSends, hpending]

theorem requests_sendFirst {p : Pipeline} {req : PipelineRequest} {rest : List PipelineRequest}
    (hpending : p.pending = req :: rest) : (p.sendFirst req rest).requests = p.requests := by
  simp [Pipeline.sendFirst, Pipeline.requests, hpending]

/-- How the loop of `flush_sends` ends: it has sent all there was room for, or
the request it could not send is in neither queue. -/
theorem wp_flushLoop (fuel : Nat) (p : Pipeline) (w : World π) (hfuel : p.pending.length = fuel) :
    wp (flushLoop fuel)
      ⟨fun n s' => n = p.sends ∧ s'.1 = p.afterSends n ∧ SendsComplete (p, w) ∧
          (n = 0 → s'.2 = w) ∧ (n ≠ 0 → s'.2.conn.transport.isSome = true) ∧
          s'.2.events = w.events.drop n,
        fun _ s' => s'.1.requests.length + 1 = p.requests.length ∧ ¬ SendsComplete (p, w),
        fun _ => True⟩ (p, w) := by
  induction fuel generalizing p w with
  | zero =>
      have hsends : p.sends = 0 := by simp [Pipeline.sends, hfuel]
      rw [wp, flushLoop_idle hsends]
      exact ⟨hsends.symm, by simp, .inl hsends, fun _ => rfl, fun h => absurd rfl h, rfl⟩
  | succ fuel ih =>
      by_cases hroom : p.inFlight.length < p.depth
      · obtain ⟨req, rest, hpending⟩ : ∃ req rest, p.pending = req :: rest :=
          List.exists_cons_of_length_pos (by omega)
        have hsends := sends_sendFirst hroom hpending
        have hiff : SendsComplete (p, w) ↔
            w.conn.transport.isSome = true ∧ w.nextEvent.completes = true ∧
              ∀ e ∈ w.tick.events.take (p.sendFirst req rest).sends, e.completes = true := by
          rw [SendsComplete, hsends, completes_take_succ]
          simp
        rw [wp_flushLoop_succ hroom hpending]
        refine wp_mono (wp_sendCommandNoFlush_iff _ w) ?_ ?_ (fun _ _ => trivial)
        · rintro _ w' ⟨htransport, hcompletes, htransport', hevents⟩
          have hlen : rest.length = fuel := by
            rw [hpending, List.length_cons] at hfuel
            omega
          have hiff' : SendsComplete (p.sendFirst req rest, w') ↔ SendsComplete (p, w) := by
            rw [hiff, SendsComplete, hevents]
            simp only [htransport, hcompletes, htransport', true_and]
            constructor
            · rintro (hzero | hall)
              · rw [hzero]
                simp
              · exact hall
            · exact .inr
          refine wp_mono (ih (p.sendFirst req rest) w' hlen) ?_ ?_ (fun _ _ => trivial)
          · rintro n s' ⟨rfl, hp', hcomplete, hsame, hsome, hevents'⟩
            refine ⟨hsends.symm, by rw [hp', afterSends_sendFirst hpending], hiff'.mp hcomplete,
              fun h => absurd h (Nat.succ_ne_zero _), fun _ => ?_, ?_⟩
            · by_cases hzero : (p.sendFirst req rest).sends = 0
              · rw [hsame hzero]
                exact htransport'
              · exact hsome hzero
            · rw [hevents', hevents, World.tick_events, ← List.drop_one, List.drop_drop,
                Nat.add_comm]
          · rintro e s' ⟨hlost, hincomplete⟩
            rw [requests_sendFirst hpending] at hlost
            exact ⟨hlost, fun h => hincomplete (hiff'.mpr h)⟩
        -- The request has left `pending` and has not reached `inFlight`.
        · intro e w' hfail
          refine ⟨?_, fun h => hfail ⟨(hiff.mp h).1, (hiff.mp h).2.1⟩⟩
          simp only [Pipeline.requests, hpending, List.length_append, List.length_cons]
          omega
      · have hsends : p.sends = 0 := by
          rw [Pipeline.sends]
          omega
        rw [wp, flushLoop_idle hsends]
        exact ⟨hsends.symm, by simp, .inl hsends, fun _ => rfl, fun h => absurd rfl h, rfl⟩

/-- How `flush_sends` ends. -/
theorem wp_flushSends (p : Pipeline) (w : World π) :
    wp flushSends
      ⟨fun _ s' => s'.1 = p.afterSends p.sends ∧ SendsComplete (p, w) ∧ FlushCompletes (p, w),
        fun _ s' => (s'.1.requests = p.requests ∧ SendsComplete (p, w) ∧ ¬ FlushCompletes (p, w)) ∨
          (s'.1.requests.length + 1 = p.requests.length ∧ ¬ SendsComplete (p, w)),
        fun _ => True⟩ (p, w) := by
  rw [flushSends, wp_bind, wp_get]
  refine wp_seq (wp_flushLoop _ p w rfl) ?_ (fun _ _ h => .inr h) (fun _ h => h)
  rintro n s' ⟨rfl, hp', hcomplete, -, hsome, hevents⟩
  split
  · rename_i hpos
    have hnext : s'.2.nextEvent = (w.events.drop p.sends).headD .ready := by
      rw [World.nextEvent, hevents]
    obtain ⟨t, ht⟩ := Option.isSome_iff_exists.mp (hsome (by omega))
    simp only [wp_onSnd, orError, wp_inspectErr, flush, wp_bind, wp_onTransport ht, wp_get]
    have hok : s'.2.nextEvent.completes = true → FlushCompletes (p, w) := by
      intro h
      rw [hnext] at h
      exact .inr h
    have herr : s'.2.nextEvent.completes = false → ¬ FlushCompletes (p, w) := by
      rintro h (hzero | hcompletes)
      · exact absurd hzero (Nat.ne_of_gt hpos)
      · rw [hnext, hcompletes] at h
        cases h
    have hrequests : s'.1.requests = p.requests := by rw [hp', Pipeline.afterSends_requests]
    cases hev : s'.2.nextEvent with
    | ready => exact ⟨hp', hcomplete, hok (by rw [hev]; rfl)⟩
    | eof n => exact ⟨hp', hcomplete, hok (by rw [hev]; rfl)⟩
    | fails error n => exact .inl ⟨hrequests, hcomplete, herr (by rw [hev]; rfl)⟩
    | elapsed n => exact .inl ⟨hrequests, hcomplete, herr (by rw [hev]; rfl)⟩
    | dropped n => trivial
  · rename_i hzero
    exact ⟨hp', hcomplete, .inl (Nat.eq_zero_of_not_pos hzero)⟩

end Peers

/-! ### Receiving -/

/-- A reply is an error of the connection only where its status line cannot be
read: what is wrong with its block is an outcome of the request. -/
theorem wp_readReply (request : PipelineRequest) (w : World π) :
    wp (readReply request)
      ⟨fun _ _ => StatusReadable w, fun _ _ => ¬ StatusReadable w, fun _ => True⟩ w := by
  have hstatus : wp (orError readResponseLine)
      ⟨fun _ _ => StatusReadable w, fun _ _ => ¬ StatusReadable w, fun _ => True⟩ w := by
    rw [orError, wp_inspectErr]
    exact wp_readResponseLine_iff w
  refine wp_seq hstatus ?_ (fun _ _ h => h) (fun _ h => h)
  intro status w' hreadable
  split
  case h_1 =>
    rw [wp_bind, wp_attempt]
    exact wp_mono (wp_trivial _ w') (fun _ _ _ => hreadable) (fun _ _ _ => hreadable)
      (fun _ h => h)
  all_goals exact hreadable

theorem receiveOne_idle {σ : Pipeline × World π} (h : σ.1.inFlight = []) :
    receiveOne σ = .ok none σ := by
  obtain ⟨⟨depth, inFlight, pending⟩, w⟩ := σ
  obtain rfl : inFlight = [] := h
  rfl

/-- How `receive_one` ends. -/
theorem wp_receiveOne (p : Pipeline) (w : World π) :
    wp receiveOne
      ⟨fun result s' => match result with
          | none => p.inFlight = [] ∧ s' = (p, w)
          | some r => s'.1.depth = p.depth ∧ StatusReadable w ∧
              p.requests = r.request :: s'.1.requests ∧ p.inFlight ≠ [],
        fun _ s' => s'.1.requests.length + 1 = p.requests.length ∧ p.inFlight ≠ [] ∧
          ¬ StatusReadable w,
        fun _ => True⟩ (p, w) := by
  rw [receiveOne, wp_bind, wp_get]
  dsimp only
  split
  · rename_i hnil
    exact ⟨hnil, rfl⟩
  · rename_i request rest hcons
    simp only [modifyPipeline, wp_bind, wp_modify, wp_onSnd]
    refine wp_mono (wp_readReply request w) ?_ ?_ (fun _ _ => trivial)
    · intro result w' hreadable
      refine ⟨rfl, hreadable, ?_, by simp [hcons]⟩
      simp [Pipeline.requests, hcons]
    · intro e w' hunreadable
      refine ⟨?_, by simp [hcons], hunreadable⟩
      simp only [Pipeline.requests, hcons, List.length_append, List.length_cons]
      omega

/-! ### The rounds of `process_all` -/

section Rounds

variable [Peer π]

/-- `process_all` begun in the first state begins a round in the second. -/
inductive Visits : Pipeline × World π → Pipeline × World π → Prop where
  | start (s : Pipeline × World π) : Visits s s
  | next {s s₁ s₂ v : Pipeline × World π} {r : PipelineResult}
      (hflush : flushSends s = .ok () s₁) (hreceive : receiveOne s₁ = .ok (some r) s₂)
      (hgoes : isFatal r.result = false) (hrest : Visits s₂ v) : Visits s v

/-- No request is lost in a round that begins in `s`. -/
def RoundOk (s : Pipeline × World π) : Prop :=
  SendsComplete s ∧ FlushCompletes s ∧
    ∀ s₁, flushSends s = .ok () s₁ → s₁.1.inFlight = [] ∨ StatusReadable s₁.2

/-- The flush of the first round fails: all requests are still in the queues,
and there are no outcomes yet. -/
def FirstFlushFails (s : Pipeline × World π) : Prop := SendsComplete s ∧ ¬ FlushCompletes s

theorem not_firstFlushFails {s : Pipeline × World π} (h : RoundOk s) : ¬ FirstFlushFails s :=
  fun hfails => hfails.2 h.2.1

theorem visits_iff {s s₁ s₂ : Pipeline × World π} {r : PipelineResult}
    (hflush : flushSends s = .ok () s₁) (hreceive : receiveOne s₁ = .ok (some r) s₂)
    (hgoes : isFatal r.result = false) {P : Pipeline × World π → Prop} :
    (∀ v, Visits s v → P v) ↔ P s ∧ ∀ v, Visits s₂ v → P v := by
  constructor
  · exact fun h => ⟨h s (.start s), fun v hv => h v (.next hflush hreceive hgoes hv)⟩
  · rintro ⟨hs, h⟩ v hv
    cases hv with
    | start => exact hs
    | next hflush' hreceive' _ hrest =>
        rw [hflush] at hflush'
        cases hflush'
        rw [hreceive] at hreceive'
        cases hreceive'
        exact h v hrest

/-- A round after which `process_all` stops is the last one. -/
theorem visits_once {s : Pipeline × World π}
    (hstops : ∀ s₁ r s₂, flushSends s = .ok () s₁ → receiveOne s₁ = .ok (some r) s₂ →
      isFatal r.result = true)
    {P : Pipeline × World π → Prop} : (∀ v, Visits s v → P v) ↔ P s := by
  constructor
  · exact fun h => h s (.start s)
  · intro hs v hv
    cases hv with
    | start => exact hs
    | next hflush hreceive hgoes _ =>
        rw [hstops _ _ _ hflush hreceive] at hgoes
        cases hgoes

theorem visits_last {s s₁ : Pipeline × World π} (hflush : flushSends s = .ok () s₁)
    (hstops : ∀ r s₂, receiveOne s₁ = .ok (some r) s₂ → isFatal r.result = true)
    {P : Pipeline × World π → Prop} : (∀ v, Visits s v → P v) ↔ P s := by
  refine visits_once fun s₁' r s₂ hflush' hreceive => ?_
  rw [hflush] at hflush'
  cases hflush'
  exact hstops r s₂ hreceive

/-- How the rounds from `s` on end, as far as the requests are concerned. -/
def accounts (s : Pipeline × World π) (results : List PipelineResult) :
    Post NntpError (Pipeline × World π) (List PipelineResult) where
  ok rs s' := (∀ v, Visits s v → RoundOk v) ∧
    ∃ new, rs = results ++ new ∧ new.map (·.request) ++ s'.1.requests = s.1.requests
  err _ s' := (FirstFlushFails s ∧ s'.1.requests = s.1.requests) ∨
    (¬ FirstFlushFails s ∧ (∃ v, Visits s v ∧ ¬ RoundOk v) ∧
      s'.1.requests.length < s.1.requests.length)
  dropped _ := True

/-- After a round that takes one request off, the rounds that follow account for the rest. -/
theorem wp_accounts_next {s s₁ s₂ : Pipeline × World π} {r : PipelineResult}
    {results : List PipelineResult} {x : Piped π (List PipelineResult)}
    (hflush : flushSends s = .ok () s₁) (hreceive : receiveOne s₁ = .ok (some r) s₂)
    (hgoes : isFatal r.result = false) (hok : RoundOk s)
    (hsplit : s.1.requests = r.request :: s₂.1.requests)
    (h : wp x (accounts s₂ (results ++ [r])) s₂) : wp x (accounts s results) s₂ := by
  have hlen : s₂.1.requests.length + 1 = s.1.requests.length := by
    rw [hsplit, List.length_cons]
  refine wp_mono h ?_ ?_ (fun _ _ => trivial)
  · rintro rs s' ⟨hvisits, new, rfl, hnew⟩
    refine ⟨(visits_iff hflush hreceive hgoes).mpr ⟨hok, hvisits⟩, r :: new, by simp, ?_⟩
    rw [hsplit, ← hnew]
    rfl
  · rintro e s' h
    refine .inr ⟨not_firstFlushFails hok, ?_⟩
    rcases h with ⟨hfails, hsame⟩ | ⟨-, ⟨v, hv, hbad⟩, hless⟩
    · refine ⟨⟨s₂, .next hflush hreceive hgoes (.start s₂),
        fun h => not_firstFlushFails h hfails⟩, ?_⟩
      rw [hsame]
      omega
    · exact ⟨⟨v, .next hflush hreceive hgoes hv, hbad⟩, by omega⟩

theorem wp_processLoop (fuel : Nat) (s : Pipeline × World π) (results : List PipelineResult)
    (hfuel : s.1.requests.length < fuel) :
    wp (processLoop fuel results) (accounts s results) s := by
  induction fuel generalizing s results with
  | zero => exact absurd hfuel (Nat.not_lt_zero _)
  | succ fuel ih =>
      rw [processLoop]
      refine wp_seq (wp_and (wp_flushSends s.1 s.2) (wp_run flushSends s)) ?_ ?_
        (fun _ _ => trivial)
      · rintro _ s₁ ⟨⟨hp₁, hcomplete, hflushed⟩, hflush⟩
        have hrequests₁ : s₁.1.requests = s.1.requests := by
          rw [hp₁, Pipeline.afterSends_requests]
        have hround : RoundOk s ↔ s₁.1.inFlight = [] ∨ StatusReadable s₁.2 := by
          constructor
          · exact fun h => h.2.2 s₁ hflush
          · intro h
            refine ⟨hcomplete, hflushed, fun s' hs' => ?_⟩
            rw [hflush] at hs'
            cases hs'
            exact h
        rw [wp_bind, wp_get]
        dsimp only
        split
        · rename_i hempty
          have hnil : s₁.1.inFlight = [] := by simpa using hempty
          have hstops : ∀ r s₂, receiveOne s₁ = .ok (some r) s₂ → isFatal r.result = true := by
            intro r s₂ hreceive
            have hcase := wp_ok (wp_receiveOne s₁.1 s₁.2) hreceive
            exact absurd hnil hcase.2.2.2
          refine ⟨(visits_last hflush hstops).mpr (hround.mpr (.inl hnil)), [], by simp, ?_⟩
          simpa using hrequests₁
        · rename_i hnonempty
          have hne : s₁.1.inFlight ≠ [] := by simpa using hnonempty
          refine wp_seq (wp_and (wp_receiveOne s₁.1 s₁.2) (wp_run receiveOne s₁)) ?_ ?_
            (fun _ _ => trivial)
          · rintro result s₂ ⟨hcase, hreceive⟩
            cases result with
            | none => exact absurd hcase.1 hne
            | some r =>
                obtain ⟨-, hreadable, hsplit, -⟩ := hcase
                have hok : RoundOk s := hround.mpr (.inr hreadable)
                have hlen : s₂.1.requests.length + 1 = s.1.requests.length := by
                  rw [← hrequests₁, hsplit, List.length_cons]
                dsimp only
                split
                · rename_i hfatal
                  have hstops : ∀ r' s', receiveOne s₁ = .ok (some r') s' →
                      isFatal r'.result = true := by
                    intro r' s' hreceive'
                    rw [hreceive] at hreceive'
                    cases hreceive'
                    exact hfatal
                  refine ⟨(visits_last hflush hstops).mpr hok,
                    r :: s₂.1.requests.map aborted, by simp, ?_⟩
                  rw [← hrequests₁, hsplit]
                  simp [Pipeline.requests, aborted, Function.comp_def]
                · rename_i hgoes
                  have hgoes' : isFatal r.result = false := by simpa using hgoes
                  exact wp_accounts_next hflush hreceive hgoes' hok (hrequests₁.symm.trans hsplit)
                    (ih s₂ (results ++ [r]) (by omega))
          -- No status line: the request at the head is in neither queue any more.
          · rintro e s₂ ⟨⟨hlost, -, hunreadable⟩, -⟩
            refine .inr ⟨fun h => h.2 hflushed, ⟨s, .start s, fun h => ?_⟩, ?_⟩
            · exact (hround.mp h).elim hne hunreadable
            · rw [hrequests₁] at hlost
              omega
      · rintro e s₁ ⟨⟨hsame, hcomplete, hfails⟩ | ⟨hlost, hincomplete⟩, -⟩
        · exact .inl ⟨⟨hcomplete, hfails⟩, hsame⟩
        · refine .inr ⟨fun h => hincomplete h.1, ⟨s, .start s, fun h => hincomplete h.1⟩, ?_⟩
          omega

theorem wp_processAll (s : Pipeline × World π) : wp processAll (accounts s []) s := by
  rw [processAll, wp_bind, wp_get]
  exact wp_processLoop _ s [] (Nat.lt_succ_self _)

end Rounds

/-! ### No request is lost -/

/-- Every request of `s` has an outcome or is in a queue of `s'`, once. -/
def Accounted (s s' : Pipeline × World π) (outcomes : List PipelineRequest) : Prop :=
  (outcomes ++ s'.1.requests).Perm s.1.requests

instance (s s' : Pipeline × World π) (outcomes : List PipelineRequest) :
    Decidable (Accounted s s' outcomes) :=
  inferInstanceAs (Decidable (List.Perm _ _))

/-- When the call returns, all requests are accounted for; an error brings no
outcomes. -/
def KeepsRequests {α : Type} (x : Piped π α) (outcomes : α → List PipelineRequest)
    (s : Pipeline × World π) : Prop :=
  match x s with
  | .ok a s' => Accounted s s' (outcomes a)
  | .err _ s' => Accounted s s' []
  | .dropped _ => True

instance {α : Type} (x : Piped π α) (outcomes : α → List PipelineRequest)
    (s : Pipeline × World π) : Decidable (KeepsRequests x outcomes s) := by
  unfold KeepsRequests
  split
  · infer_instance
  · infer_instance
  · infer_instance

theorem accounted_of_eq {s s' : Pipeline × World π} {outcomes : List PipelineRequest}
    (h : outcomes ++ s'.1.requests = s.1.requests) : Accounted s s' outcomes :=
  .of_eq h

theorem not_accounted_of_lt {s s' : Pipeline × World π}
    (h : s'.1.requests.length < s.1.requests.length) : ¬ Accounted s s' [] := by
  intro hperm
  have hlen := hperm.length_eq
  rw [List.nil_append] at hlen
  omega

theorem receiveOne_keeps_iff (s : Pipeline × World π) (hreturned : (receiveOne s).Returned) :
    KeepsRequests receiveOne (fun result => result.toList.map (·.request)) s ↔
      s.1.inFlight = [] ∨ StatusReadable s.2 := by
  have hspec := wp_receiveOne s.1 s.2
  unfold wp at hspec
  unfold KeepsRequests
  cases hrun : receiveOne s with
  | ok result s' =>
      rw [hrun] at hspec
      cases result with
      | none =>
          obtain ⟨hnil, rfl⟩ := hspec
          exact ⟨fun _ => .inl hnil, fun _ => accounted_of_eq rfl⟩
      | some r =>
          obtain ⟨-, hreadable, hsplit, -⟩ := hspec
          exact ⟨fun _ => .inr hreadable, fun _ => accounted_of_eq hsplit.symm⟩
  | err e s' =>
      rw [hrun] at hspec
      obtain ⟨hlost, hne, hunreadable⟩ := hspec
      have hless : s'.1.requests.length < s.1.requests.length := by omega
      exact ⟨fun h => absurd h (not_accounted_of_lt hless), fun h => (h.elim hne hunreadable).elim⟩
  | dropped s' =>
      rw [hrun] at hreturned
      exact hreturned.elim

variable [Peer π]

theorem flushSends_keeps_iff (s : Pipeline × World π) (hreturned : (flushSends s).Returned) :
    KeepsRequests flushSends (fun _ => []) s ↔ SendsComplete s := by
  have hspec := wp_flushSends s.1 s.2
  unfold wp at hspec
  unfold KeepsRequests
  cases hrun : flushSends s with
  | ok a s' =>
      rw [hrun] at hspec
      obtain ⟨hp', hcomplete, -⟩ := hspec
      refine ⟨fun _ => hcomplete, fun _ => accounted_of_eq ?_⟩
      rw [hp', Pipeline.afterSends_requests, List.nil_append]
  | err e s' =>
      rw [hrun] at hspec
      rcases hspec with ⟨hsame, hcomplete, -⟩ | ⟨hlost, hincomplete⟩
      · exact ⟨fun _ => hcomplete, fun _ => accounted_of_eq (by rw [hsame, List.nil_append])⟩
      · have hless : s'.1.requests.length < s.1.requests.length := by omega
        exact ⟨fun h => absurd h (not_accounted_of_lt hless), fun h => absurd h hincomplete⟩
  | dropped s' =>
      rw [hrun] at hreturned
      exact hreturned.elim

theorem processAll_keeps_iff (s : Pipeline × World π) (hreturned : (processAll s).Returned) :
    KeepsRequests processAll (fun results => results.map (·.request)) s ↔
      (∀ v, Visits s v → RoundOk v) ∨ FirstFlushFails s := by
  have hspec := wp_processAll s
  unfold wp at hspec
  unfold KeepsRequests
  cases hrun : processAll s with
  | ok results s' =>
      rw [hrun] at hspec
      obtain ⟨hvisits, new, rfl, hnew⟩ := hspec
      exact ⟨fun _ => .inl hvisits, fun _ => accounted_of_eq hnew⟩
  | err e s' =>
      rw [hrun] at hspec
      rcases hspec with ⟨hfails, hsame⟩ | ⟨hnot, ⟨v, hv, hbad⟩, hless⟩
      · exact ⟨fun _ => .inr hfails, fun _ => accounted_of_eq (by rw [hsame, List.nil_append])⟩
      · refine ⟨fun h => absurd h (not_accounted_of_lt hless), ?_⟩
        rintro (hall | hfails)
        · exact absurd (hall v hv) hbad
        · exact absurd hfails hnot
  | dropped s' =>
      rw [hrun] at hreturned
      exact hreturned.elim

/-- **When requests are kept.** A call that returns accounts for every request if
and only if, for `flush_sends`, the commands it has room for can be written; for
`receive_one`, the status line can be read; for `process_all`, both hold in every
round, and the flush completes, unless that of the first round fails. -/
theorem requests_kept_iff (s : Pipeline × World π) :
    ((flushSends s).Returned →
      (KeepsRequests flushSends (fun _ => []) s ↔ SendsComplete s)) ∧
    ((receiveOne s).Returned →
      (KeepsRequests receiveOne (fun result => result.toList.map (·.request)) s ↔
        s.1.inFlight = [] ∨ StatusReadable s.2)) ∧
    ((processAll s).Returned →
      (KeepsRequests processAll (fun results => results.map (·.request)) s ↔
        (∀ v, Visits s v → RoundOk v) ∨ FirstFlushFails s)) :=
  ⟨flushSends_keeps_iff s, receiveOne_keeps_iff s, processAll_keeps_iff s⟩

end Accounting

/-- Each of the three calls can lose a request: one whose command cannot be
written, one whose reply does not come, and one that had its outcome already. -/
theorem requests_can_be_lost :
    (¬ ∀ s : Pipeline × World ReplyServer, KeepsRequests flushSends (fun _ => []) s) ∧
    (¬ ∀ s : Pipeline × World ReplyServer,
      KeepsRequests receiveOne (fun result => result.toList.map (·.request)) s) ∧
    ¬ ∀ s : Pipeline × World ReplyServer,
      KeepsRequests processAll (fun results => results.map (·.request)) s := by
  refine ⟨not_forall_of_exists_not ⟨?_, ?_⟩, not_forall_of_exists_not ⟨?_, ?_⟩,
    not_forall_of_exists_not ⟨?_, ?_⟩⟩
  · exact ({ depth := 1, pending := [⟨"a@b", 1⟩] }, { World.readyTo emptyServer with
      events := [.fails ⟨.other "broken pipe", "broken pipe"⟩ 0] })
  · decide +kernel
  · exact ({ depth := 1, inFlight := [⟨"a@b", 1⟩] }, .endingAfter 0)
  · decide +kernel
  · exact ({ depth := 1, pending := [⟨"a@b", 1⟩, ⟨"c@d", 2⟩] }, .endingAfter 8)
  · decide +kernel

end NzbNntp
