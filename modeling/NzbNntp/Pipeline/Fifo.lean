import Mathlib.Data.List.ReduceOption
import Mathlib.Data.List.Forall2
import NzbNntp.Pipeline.Depth

/-!
A pipeline driven by hand: `submit`, `flush_sends` and `receive_one` in any order.
Requests go through two queues, and the replies are matched to them by position
alone. The invariant is `Feeding`, which a submission extends at its end and a
receive shortens at its front.
-/

namespace NzbNntp

open Interruptible

inductive ManualStep where
  | submit (messageId : String) (tag : Nat)
  | flushSends
  | receiveOne

def submittedBy (steps : List ManualStep) : List PipelineRequest :=
  steps.filterMap fun
    | .submit messageId tag => some { messageId, tag }
    | _ => none

def DecidedBy (results : List PipelineResult) (turns : List Turn) : Prop :=
  List.Forall₂ (fun r a => r.request = a.request ∧
    ∃ left, judge a.request a.bytes = .ok ⟨r.result, left⟩) results turns

def requestLines (requests : List PipelineRequest) : Bytes :=
  (requests.map PipelineRequest.line).flatten

theorem DecidedBy.requests {results : List PipelineResult} {turns : List Turn}
    (h : DecidedBy results turns) : results.map (·.request) = turns.map (·.request) := by
  induction h with
  | nil => rfl
  | cons hhead _ ih => rw [List.map_cons, List.map_cons, hhead.1, ih]

section Manual

variable {π : Type} [Peer π]

/-- The steps in their order: what the calls of `receive_one` return. -/
def runManual : List ManualStep → Piped π (List (Option PipelineResult))
  | [] => return []
  | .submit messageId tag :: steps => do
      modifyPipeline (Pipeline.submit messageId tag)
      runManual steps
  | .flushSends :: steps => do
      flushSends
      runManual steps
  | .receiveOne :: steps => do
      let result ← receiveOne
      let results ← runManual steps
      return result :: results

/-- Of what is on the wire, `base` was written before the commands in flight. -/
def Wired (base wire : Bytes) (flight : List PipelineRequest) : Prop :=
  wire = base ++ requestLines flight

theorem extends_wired (base : Bytes) : Extends (Wired base) := by
  rintro wire flight req rfl
  simp [Wired, requestLines]

theorem Wired.receive {base wire : Bytes} {req : PipelineRequest} {flight : List PipelineRequest}
    (h : Wired base wire (req :: flight)) : Wired (base ++ req.line) wire flight := by
  rw [Wired, h]
  simp [requestLines]

variable {s : ConnectionState} {base taken : Bytes} {waiting later : List Turn}
  {σ : Pipeline × World π}

theorem Feeding.length_le {W : Bytes → List PipelineRequest → Prop} {cut : Option Nat}
    (h : Feeding W s cut taken waiting later σ) : σ.1.inFlight.length ≤ waiting.length := by
  have hlen := congrArg List.length h.requests
  rw [Pipeline.requests, List.length_append, List.length_map] at hlen
  omega

/-- A submission joins the requests that wait. -/
theorem Feeding.submit {W : Bytes → List PipelineRequest → Prop} {cut : Option Nat} {a : Turn}
    (h : Feeding W s cut taken waiting (a :: later) σ) :
    Feeding W s cut taken (waiting ++ [a]) later
      (σ.1.submit a.request.messageId a.request.tag, σ.2) := by
  have hlen := h.length_le
  obtain ⟨hquiet, hs, hrequests, t, ht, hcut, htaken, hwire, hunread, hanswers⟩ := h
  refine ⟨hquiet, hs, ?_, t, ht, hcut, htaken, hwire, ?_, ?_⟩
  · rw [List.map_append, ← hrequests]
    simp [Pipeline.requests, Pipeline.submit]
  · show Ended t ∨ t.unread = (((waiting ++ [a]).take σ.1.inFlight.length).map Turn.bytes).flatten
    rwa [List.take_append_of_le_length hlen]
  · show Answers t.peer ((waiting ++ [a]).drop σ.1.inFlight.length ++ later)
    rw [List.drop_append_of_le_length hlen, List.append_assoc]
    exact hanswers

theorem wp_flushSends_room (hroom : σ.1.inFlight.length ≤ σ.1.depth)
    (h : Feeding (Wired base) s none taken waiting later σ) :
    wp flushSends
      ⟨fun _ σ' => Feeding (Wired base) s none taken waiting later σ' ∧
          σ'.1.depth = σ.1.depth ∧ σ'.1.inFlight.length ≤ σ'.1.depth,
        fun _ _ => False, fun _ => False⟩ σ := by
  refine wp_mono (wp_and (wp_flushSends_feeding (extends_wired base) h) (wp_flushSends σ.1 σ.2)) ?_
    (fun _ _ h => h.1) (fun _ h => h.1)
  rintro _ σ' ⟨h', hp, -⟩
  have hdepth : σ'.1.depth = σ.1.depth := by
    rw [hp]
    rfl
  have hlen : σ'.1.inFlight.length ≤ σ'.1.depth := by
    rw [hdepth, hp]
    simp only [Pipeline.afterSends, Pipeline.sends, List.length_append, List.length_take]
    omega
  exact ⟨h', hdepth, hlen⟩

def Readable (turns : List Turn) : Prop :=
  ∀ a ∈ turns, ∃ status, statusOf a.reply.status.full = .ok status

theorem Turn.judge_readable {a : Turn} {status : NntpResponse}
    (h : statusOf a.reply.status.full = .ok status) :
    ∃ verdict, judge a.request a.bytes = .ok verdict := by
  obtain ⟨tail, htail⟩ := a.bytes_split
  rw [judge, htail, firstLine_full, h]
  exact ⟨_, rfl⟩

omit [Peer π] in
theorem wp_receiveOne_idle (h : σ.1.inFlight = []) :
    wp receiveOne ⟨fun r σ' => r = none ∧ σ' = σ, fun _ _ => False, fun _ => False⟩ σ := by
  rw [wp, receiveOne_idle h]
  exact ⟨rfl, rfl⟩

theorem wp_receiveOne_fifo {a : Turn} (hreadable : Readable (a :: waiting))
    (h : Feeding (Wired base) s none taken (a :: waiting) later σ) (hne : σ.1.inFlight ≠ []) :
    wp receiveOne
      ⟨fun r σ' => ∃ result left s', r = some { request := a.request, result } ∧
          judge a.request a.bytes = .ok ⟨result, left⟩ ∧ σ'.1.depth = σ.1.depth ∧
          σ'.1.inFlight = σ.1.inFlight.tail ∧
          Feeding (Wired (base ++ a.request.line)) s' none (taken ++ a.bytes) waiting later σ',
        fun _ _ => False, fun _ => False⟩ σ := by
  obtain ⟨status, hstatus⟩ := hreadable a List.mem_cons_self
  obtain ⟨verdict, hverdict⟩ := Turn.judge_readable hstatus
  refine wp_mono (wp_receiveOne_feeding (fun _ _ h => h.receive) h hne) ?_ ?_ (fun _ h => h)
  · rintro r σ' ⟨result, left, rfl, hjudge, hdepth, htail, h'⟩
    exact ⟨result, left, _, rfl, hjudge, hdepth, htail, h'⟩
  · rintro e σ' ⟨hjudge, -⟩
    change judge a.request a.bytes = .error e at hjudge
    rw [hverdict] at hjudge
    cases hjudge

/-- The steps, by induction on them. -/
theorem wp_runManual (steps : List ManualStep) {s : ConnectionState} {base taken : Bytes}
    {waiting later : List Turn} {σ : Pipeline × World π}
    (hsteps : submittedBy steps = later.map (·.request)) (hreadable : Readable (waiting ++ later))
    (hroom : σ.1.inFlight.length ≤ σ.1.depth)
    (h : Feeding (Wired base) s none taken waiting later σ) :
    wp (runManual steps)
      ⟨fun rs σ' => ∃ served rest s', waiting ++ later = served ++ rest ∧
          DecidedBy rs.reduceOption served ∧ σ'.1.depth = σ.1.depth ∧
          σ'.1.inFlight.length ≤ σ'.1.depth ∧
          Feeding (Wired (base ++ requestLines (served.map (·.request)))) s' none
            (taken ++ (served.map Turn.bytes).flatten) rest [] σ',
        fun _ _ => False, fun _ => False⟩ σ := by
  induction steps generalizing s base taken waiting later σ with
  | nil =>
      obtain rfl : later = [] := List.map_eq_nil_iff.mp hsteps.symm
      exact ⟨[], waiting, s, by simp, .nil, rfl, hroom, by simpa [requestLines] using h⟩
  | cons step steps ih =>
      cases step with
      | submit messageId tag =>
          obtain ⟨a, later, rfl, hreq, hsteps'⟩ := List.map_eq_cons_iff.mp hsteps.symm
          rw [runManual, modifyPipeline, wp_bind, wp_modify]
          have hsubmit := h.submit
          rw [hreq] at hsubmit
          refine wp_mono (ih hsteps'.symm (by simpa using hreadable) hroom hsubmit) ?_
            (fun _ _ h => h) (fun _ h => h)
          rintro rs σ' ⟨served, rest, s', hsplit, hrest⟩
          exact ⟨served, rest, s', by simpa using hsplit, hrest⟩
      | flushSends =>
          rw [runManual]
          refine wp_seq (wp_flushSends_room hroom h) ?_ (fun _ _ h => h) (fun _ h => h)
          rintro _ σ₁ ⟨h₁, hdepth₁, hroom₁⟩
          refine wp_mono (ih hsteps hreadable hroom₁ h₁) ?_ (fun _ _ h => h) (fun _ h => h)
          rintro rs σ' ⟨served, rest, s', hsplit, hdecided, hdepth', hrest⟩
          exact ⟨served, rest, s', hsplit, hdecided, hdepth'.trans hdepth₁, hrest⟩
      | receiveOne =>
          rw [runManual]
          by_cases hempty : σ.1.inFlight = []
          · refine wp_seq (wp_receiveOne_idle hempty) ?_ (fun _ _ h => h) (fun _ h => h)
            rintro _ _ ⟨rfl, rfl⟩
            refine wp_seq (ih hsteps hreadable hroom h) ?_ (fun _ _ h => h) (fun _ h => h)
            rintro rs σ' ⟨served, rest, s', hsplit, hdecided, hrest⟩
            exact ⟨served, rest, s', hsplit, by simpa using hdecided, hrest⟩
          · obtain ⟨a, waiting', rfl⟩ : ∃ a rest, waiting = a :: rest := by
              refine List.exists_cons_of_ne_nil fun hnil => hempty ?_
              have hlen := h.length_le
              rw [hnil] at hlen
              exact List.length_eq_zero_iff.mp (Nat.le_zero.mp hlen)
            have hreadable' : Readable (a :: waiting') := fun b hb =>
              hreadable b (List.mem_append_left _ hb)
            refine wp_seq (wp_receiveOne_fifo hreadable' h hempty) ?_ (fun _ _ h => h) (fun _ h => h)
            rintro r σ₁ ⟨result, left, s₁, rfl, hjudge, hdepth₁, htail, h₁⟩
            have hroom₁ : σ₁.1.inFlight.length ≤ σ₁.1.depth := by
              rw [htail, hdepth₁, List.length_tail]
              omega
            refine wp_seq (ih hsteps (fun b hb => hreadable b (List.mem_cons_of_mem _ hb)) hroom₁ h₁) ?_
              (fun _ _ h => h) (fun _ h => h)
            rintro rs σ' ⟨served, rest, s', hsplit, hdecided, hdepth', hroom', hrest⟩
            refine ⟨a :: served, rest, s', by rw [List.cons_append, hsplit]; rfl, ?_,
              hdepth'.trans hdepth₁, hroom', ?_⟩
            · rw [List.reduceOption_cons_of_some]
              exact .cons ⟨rfl, left, hjudge⟩ hdecided
            · simpa [requestLines] using hrest

/-- **Replies are matched to requests first in, first out.** On a connection with
nothing unread and an open stream, with a server that answers each `ARTICLE` with
its own readable reply, after any steps (hence at every point of any run of them):
the requests submitted are those that have been returned, those in flight and
those pending, in that order; at most `max depth 1` are in flight; exactly the
commands of the first two groups are on the wire, in order; each result was
decided by the reply in its position, and no other byte has been taken. A further
`receive_one` gives nothing and reads nothing exactly when none is in flight. -/
theorem runManual_fifo (depth : UInt8) (w : World π) (t : Transport π) (turns : List Turn)
    (steps : List ManualStep) (ht : w.conn.transport = some t) (hunread : t.unread = [])
    (hopen : t.cut = none) (hquiet : ∀ e ∈ w.events, e = .ready) (hserver : Answers t.peer turns)
    (hreadable : Readable turns) (hsteps : submittedBy steps = turns.map (·.request)) :
    ∃ rs p w' t', runManual steps (.new depth, w) = .ok rs (p, w') ∧
      w'.conn.transport = some t' ∧
      submittedBy steps = rs.reduceOption.map (·.request) ++ p.inFlight ++ p.pending ∧
      p.inFlight.length ≤ max depth.toNat 1 ∧
      t'.wire = t.wire ++ requestLines (rs.reduceOption.map (·.request) ++ p.inFlight) ∧
      DecidedBy rs.reduceOption (turns.take rs.reduceOption.length) ∧
      t'.taken = t.taken ++ ((turns.take rs.reduceOption.length).map Turn.bytes).flatten ∧
      ((p.inFlight = [] ∧ receiveOne (p, w') = .ok none (p, w')) ∨
        (p.inFlight ≠ [] ∧ ∃ r s, receiveOne (p, w') = .ok (some r) s ∧ s.2.taken ≠ w'.taken)) := by
  have hstart : Feeding (Wired t.wire) w.conn.state none t.taken [] turns (.new depth, w) :=
    ⟨hquiet, rfl, rfl, t, ht, hopen, rfl, (List.append_nil _).symm, .inr hunread, hserver⟩
  have hall : Readable ([] ++ turns) := hreadable
  obtain ⟨rs, ⟨p, w'⟩, hrun, served, rest, s', hsplit, hdecided, hdepth, hroom, hend⟩ :=
    exists_ok_of_wp (wp_runManual steps hsteps hall (Nat.zero_le _) hstart)
  obtain rfl : turns = served ++ rest := hsplit
  have hlen : rs.reduceOption.length = served.length := List.Forall₂.length_eq hdecided
  have hfeeding := hend
  obtain ⟨-, -, hrequests, t', ht', -, htaken, hwire, -⟩ := hend
  refine ⟨rs, p, w', t', hrun, ht', ?_, hroom.trans (Nat.le_of_eq hdepth), ?_, ?_, ?_, ?_⟩
  · rw [hsteps, List.map_append, hdecided.requests, List.append_assoc]
    exact congrArg _ hrequests.symm
  · rw [hwire, hdecided.requests]
    simp [requestLines]
  · rwa [hlen, List.take_left]
  · rw [htaken, hlen, List.take_left]
  · by_cases hempty : p.inFlight = []
    · exact .inl ⟨hempty, receiveOne_idle hempty⟩
    · refine .inr ⟨hempty, ?_⟩
      obtain ⟨a, rest, rfl⟩ : ∃ a later, rest = a :: later := by
        refine List.exists_cons_of_ne_nil fun hnil => hempty ?_
        have hle := hfeeding.length_le
        rw [hnil] at hle
        exact List.length_eq_zero_iff.mp (Nat.le_zero.mp hle)
      have hrest : Readable (a :: rest) := fun b hb => hreadable b (List.mem_append_right _ hb)
      obtain ⟨r, s, hr, result, left, s'', rfl, -, -, -, hnext⟩ :=
        exists_ok_of_wp (wp_receiveOne_fifo hrest hfeeding hempty)
      refine ⟨_, s, hr, fun hsame => ?_⟩
      obtain ⟨-, -, -, t'', ht'', -, htaken'', -⟩ := hnext
      rw [World.taken, World.taken, ht'', ht', Option.map_some, Option.map_some, htaken'',
        htaken] at hsame
      have hnil := List.append_cancel_left ((Option.some.inj hsame).trans (List.append_nil _).symm)
      exact absurd (congrArg List.length hnil) (Nat.ne_of_gt a.bytes_pos)

end Manual

def handDriven : List ManualStep :=
  [.submit "a@b" 1, .flushSends, .submit "<c@d>" 2, .receiveOne, .receiveOne, .flushSends]

theorem runManual_fifo_on_missing :
    ∃ rs p w' t', runManual handDriven (.new 0, .readyTo emptyServer) = .ok rs (p, w') ∧
      w'.conn.transport = some t' ∧
      submittedBy handDriven = rs.reduceOption.map (·.request) ++ p.inFlight ++ p.pending ∧
      p.inFlight.length ≤ max (0 : UInt8).toNat 1 ∧
      t'.wire = [] ++ requestLines (rs.reduceOption.map (·.request) ++ p.inFlight) ∧
      DecidedBy rs.reduceOption (missingArticles.take rs.reduceOption.length) ∧
      t'.taken = [] ++ ((missingArticles.take rs.reduceOption.length).map Turn.bytes).flatten ∧
      ((p.inFlight = [] ∧ receiveOne (p, w') = .ok none (p, w')) ∨
        (p.inFlight ≠ [] ∧ ∃ r s, receiveOne (p, w') = .ok (some r) s ∧ s.2.taken ≠ w'.taken)) :=
  runManual_fifo 0 (.readyTo emptyServer) _ missingArticles handDriven rfl rfl rfl
    (by simp [World.readyTo]) ⟨by decide, by decide, trivial⟩
    (by
      intro a ha
      refine ⟨{ code := 430, message := "no" }, ?_⟩
      obtain rfl | rfl : a = ⟨⟨"a@b", 1⟩, _⟩ ∨ a = ⟨⟨"<c@d>", 2⟩, _⟩ := by
        simpa [missingArticles] using ha
      · rfl
      · rfl)
    rfl

end NzbNntp
