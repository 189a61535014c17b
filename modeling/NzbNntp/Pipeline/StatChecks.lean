import Mathlib.Data.List.Forall2
import NzbNntp.Connection.Course
import NzbNntp.Pipeline.Stat

/-!
Batched STAT is the plain check of each id. Every batch begins with nothing
unread and ends so; within it the commands go out first and the replies are read
in their order. The commands on the wire never go beyond the batch of the first
id without an answer.
-/

namespace NzbNntp

open Interruptible Delimited Chunks

structure StatTurn where
  messageId : String
  reply : WireLine

def StatTurn.line (a : StatTurn) : Bytes := commandLine s!"STAT {normalizeMessageId a.messageId}"

def StatTurn.result (a : StatTurn) : StatResult where
  messageId := a.messageId
  exists_ := statusCode a.reply.full = some 223

def statLines (turns : List StatTurn) : Bytes := (turns.map StatTurn.line).flatten

def Checked (line : Bytes) : Prop :=
  ∃ status, statusOf line = .ok status ∧ (status.code = 223 ∨ status.code = 430)

/-- The replies to the batches, each as far as it arrives, if every operation of
every batch completes: its writes, its flush and its reads. -/
def Course.received : List (List WireLine) → Course → Option (List Bytes)
  | [], _ => some []
  | batch :: later, c =>
      (c.operations (batch.length + 1)).bind fun c => (c.reads batch).bind fun r =>
        (r.2.received later).map (r.1 ++ ·)

def Course.batch (batch : List WireLine) (c : Course) : Option (List Bytes × Course) :=
  (c.operations (batch.length + 1)).bind fun c => c.reads batch

theorem Course.batch_eq_some {batch : List WireLine} {r : List Bytes × Course} {c : Course} :
    c.batch batch = some r ↔ ∃ c₁ c₂,
      c.operations batch.length = some c₁ ∧ c₁.operation = some c₂ ∧ c₂.reads batch = some r := by
  rw [Course.batch, operations_succ]
  constructor
  · intro h
    obtain ⟨c₂, hops, hreads⟩ := Option.bind_eq_some_iff.mp h
    obtain ⟨c₁, hsends, hflush⟩ := Option.bind_eq_some_iff.mp hops
    exact ⟨c₁, c₂, hsends, hflush, hreads⟩
  · rintro ⟨c₁, c₂, hsends, hflush, hreads⟩
    rw [hsends, Option.bind_some, hflush, Option.bind_some, hreads]

theorem Course.received_cons {batch : List WireLine} {later : List (List WireLine)}
    {lines : List Bytes} {c : Course} :
    c.received (batch :: later) = some lines ↔ ∃ new c' rest,
      c.batch batch = some (new, c') ∧ c'.received later = some rest ∧ lines = new ++ rest := by
  have hreceived : c.received (batch :: later) =
      (c.batch batch).bind fun r => (r.2.received later).map (r.1 ++ ·) :=
    (Option.bind_assoc _ _ _).symm
  rw [hreceived]
  constructor
  · intro h
    obtain ⟨r, hbatch, h⟩ := Option.bind_eq_some_iff.mp h
    obtain ⟨rest, hrest, rfl⟩ := Option.map_eq_some_iff.mp h
    exact ⟨r.1, r.2, rest, hbatch, hrest, rfl⟩
  · rintro ⟨new, c', rest, hbatch, hrest, rfl⟩
    rw [hbatch, Option.bind_some, hrest]
    rfl

def AnswerTo (lines : List Bytes) (turns : List StatTurn) : Prop :=
  List.Forall₂ (fun line a => line <+: a.reply.full ∧ Checked line) lines turns

section Checks

variable {π : Type} [Peer π]

def AnswersStat : π → List StatTurn → Prop
  | _, [] => True
  | peer, a :: rest =>
      (Peer.hearAll peer a.line).2 = a.reply.full ∧ AnswersStat (Peer.hearAll peer a.line).1 rest

omit [Peer π] in
/-- How far an exchange has gone at most: of the turns, `sent` commands are on the
wire, the last of them perhaps in part, and `lines` have answered the first ones. -/
structure Exchanged (t₀ : Transport π) (turns : List StatTurn) (sent : Nat) (lines : List Bytes)
    (w : World π) : Prop where
  answered : AnswerTo lines (turns.take lines.length)
  window : sent ≤ (lines.length / statBatchSize + 1) * statBatchSize
  transport : ∃ t, w.conn.transport = some t ∧ t.wire <+: t₀.wire ++ statLines (turns.take sent) ∧
    t₀.taken ++ lines.flatten <+: t.taken

/-- Between two operations of a batch: `sent` commands are on the wire, `lines` have
answered the first ones, and the replies to the others are on the stream. -/
structure Checking (t₀ : Transport π) (turns : List StatTurn) (sent : Nat) (lines : List Bytes)
    (c : Course) (w : World π) : Prop where
  answered : AnswerTo lines (turns.take lines.length)
  window : sent ≤ (lines.length / statBatchSize + 1) * statBatchSize
  stream : ∃ t, OnCourse c t w ∧ t.wire = t₀.wire ++ statLines (turns.take sent) ∧
    t.taken = t₀.taken ++ lines.flatten ∧
    (Ended t ∨ t.unread = (((turns.take sent).drop lines.length).map (·.reply.full)).flatten) ∧
    AnswersStat t.peer (turns.drop sent)

variable {t₀ : Transport π} {turns : List StatTurn} {sent : Nat} {lines : List Bytes} {c : Course}
  {w : World π}

theorem Checking.exchanged (h : Checking t₀ turns sent lines c w) :
    Exchanged t₀ turns sent lines w := by
  obtain ⟨hanswered, hwindow, t, hcourse, hwire, htaken, -⟩ := h
  exact ⟨hanswered, hwindow, t, hcourse.transport, by rw [hwire], by rw [htaken]⟩

omit [Peer π] in
theorem Exchanged.setState (h : Exchanged t₀ turns sent lines w) (s : ConnectionState) :
    Exchanged t₀ turns sent lines (w.setState s) :=
  ⟨h.answered, h.window, h.transport⟩

theorem Checking.setState (h : Checking t₀ turns sent lines c w) (s : ConnectionState) :
    Checking t₀ turns sent lines c (w.setState s) := by
  obtain ⟨hanswered, hwindow, t, ⟨hevents, ht, hcut⟩, hrest⟩ := h
  exact ⟨hanswered, hwindow, t, ⟨hevents, ht, hcut⟩, hrest⟩

/-! ### The send loop -/

theorem statLines_take_succ {a : StatTurn} {rest : List StatTurn}
    (hturns : turns.drop sent = a :: rest) :
    statLines (turns.take (sent + 1)) = statLines (turns.take sent) ++ a.line := by
  rw [List.take_add, hturns]
  simp [statLines]

theorem drop_succ {α : Type} {l : List α} {n : Nat} {a : α} {rest : List α}
    (h : l.drop n = a :: rest) : l.drop (n + 1) = rest := by
  rw [← List.tail_drop, h]
  rfl

/-- Writing the command that is next. -/
theorem wp_statCommand {a : StatTurn} {rest : List StatTurn} (hturns : turns.drop sent = a :: rest)
    (hroom : sent + 1 ≤ (lines.length / statBatchSize + 1) * statBatchSize)
    (hle : lines.length ≤ sent) (h : Checking t₀ turns sent lines c w) :
    wp (orError (sendCommandNoFlush s!"STAT {normalizeMessageId a.messageId}"))
      ⟨fun _ w' => ∃ c', c.operation = some c' ∧ w'.conn.state = w.conn.state ∧
          Checking t₀ turns (sent + 1) lines c' w',
        fun _ w' => c.operation = none ∧ w'.conn.state = .error ∧
          Exchanged t₀ turns (sent + 1) lines w',
        Exchanged t₀ turns (sent + 1) lines⟩ w := by
  obtain ⟨hanswered, -, t, hcourse, hwire, htaken, hunread, hserver⟩ := h
  have hpart : ∀ n w', w'.conn.transport = some (t.deliver (a.line.take n)) →
      Exchanged t₀ turns (sent + 1) lines w' := by
    intro n w' ht
    refine ⟨hanswered, hroom, _, ht, ?_, by rw [← htaken]; rfl⟩
    rw [statLines_take_succ hturns, ← List.append_assoc, ← hwire]
    exact (List.prefix_append_right_inj _).mpr (List.take_prefix _ _)
  rw [orError, wp_inspectErr]
  refine wp_mono (wp_sendCommandNoFlush_course hcourse) ?_ ?_ ?_
  · rintro _ w₁ ⟨c₁, hop, hs₁, hcourse₁⟩
    rw [hturns] at hserver
    refine ⟨c₁, hop, hs₁, hanswered, hroom, _, hcourse₁, ?_, htaken, ?_, ?_⟩
    · show t.wire ++ a.line = _
      rw [statLines_take_succ hturns, hwire, List.append_assoc]
    · refine (hcourse.stream (b := []) hop hunread).imp (fun h => h) fun hunread' => ?_
      show t.unread ++ (Peer.hearAll t.peer a.line).2 = _
      have htake : turns.take (sent + 1) = turns.take sent ++ [a] := by
        rw [List.take_add, hturns]
        rfl
      have hlen : lines.length ≤ (turns.take sent).length := by
        have hlong : sent < turns.length := by
          by_contra hshort
          rw [List.drop_eq_nil_of_le (by omega)] at hturns
          cases hturns
        rw [List.length_take]
        omega
      rw [show t.unread = _ from hunread', hserver.1, htake, List.drop_append_of_le_length hlen]
      simp
    · rw [drop_succ hturns]
      exact hserver.2
  · rintro e w' ⟨hop, n, ht⟩
    exact ⟨hop, rfl, (hpart n w' ht).setState .error⟩
  · rintro w' ⟨n, ht⟩
    exact hpart n w' ht

/-- The send loop, by induction along the batch. -/
theorem wp_statSends (batch later : List StatTurn) {sent : Nat} {c : Course} {w : World π}
    (hturns : turns.drop sent = batch ++ later)
    (hroom : sent + batch.length ≤ (lines.length / statBatchSize + 1) * statBatchSize)
    (hle : lines.length ≤ sent) (h : Checking t₀ turns sent lines c w) :
    wp (statSends (batch.map (·.messageId)))
      ⟨fun _ w' => ∃ c', c.operations batch.length = some c' ∧ w'.conn.state = w.conn.state ∧
          Checking t₀ turns (sent + batch.length) lines c' w',
        fun _ w' => c.operations batch.length = none ∧ w'.conn.state = .error ∧
          ∃ sent, Exchanged t₀ turns sent lines w',
        fun w' => ∃ sent, Exchanged t₀ turns sent lines w'⟩ w := by
  induction batch generalizing sent c w with
  | nil => exact ⟨c, rfl, rfl, h⟩
  | cons a batch ih =>
      rw [List.length_cons] at hroom
      rw [List.map_cons, statSends]
      refine wp_seq (wp_statCommand hturns (by omega) hle h) ?_ ?_ (fun _ h => ⟨_, h⟩)
      · rintro _ w₁ ⟨c₁, hop, hs₁, h₁⟩
        refine wp_mono (ih (drop_succ hturns) (by omega) (by omega) h₁) ?_ ?_ (fun _ h => h)
        · rintro _ w₂ ⟨c₂, hops, hs₂, h₂⟩
          refine ⟨c₂, ?_, hs₂.trans hs₁, ?_⟩
          · rw [List.length_cons, Course.operations, hop]
            exact hops
          · rw [List.length_cons, ← Nat.add_assoc, Nat.add_right_comm]
            exact h₂
        · rintro e w₂ ⟨hops, hs₂, hex⟩
          refine ⟨?_, hs₂, hex⟩
          rw [List.length_cons, Course.operations, hop]
          exact hops
      · rintro e w' ⟨hop, hs, hex⟩
        refine ⟨?_, hs, _, hex⟩
        rw [List.length_cons, Course.operations, hop]
        rfl

/-! ### The read loop -/

theorem window_mono {a b : Nat} (h : a ≤ b) :
    (a / statBatchSize + 1) * statBatchSize ≤ (b / statBatchSize + 1) * statBatchSize :=
  Nat.mul_le_mul_right _ (Nat.succ_le_succ (Nat.div_le_div_right h))

theorem statusCode_append_of_some {b rest : Bytes} {code : Nat} (h : statusCode b = some code) :
    statusCode (b ++ rest) = some code := by
  unfold statusCode at h ⊢
  split at h
  · rename_i hdigits
    have htake : (b ++ rest).take 3 = b.take 3 := List.take_append_of_le_length hdigits.1
    rw [htake, if_pos ⟨by rw [List.length_append]; omega, hdigits.2⟩]
    exact h
  · cases h

/-- The code of a reply is that of the part of it that arrives. -/
theorem statusCode_of_arrives {l : WireLine} {cut : Option Nat} {status : NntpResponse}
    (h : statusOf (arrives l.full cut) = .ok status) : statusCode l.full = some status.code := by
  obtain ⟨rest, hrest⟩ := arrives_isPrefix l.full cut
  rw [← hrest]
  exact statusCode_append_of_some (statusCode_of_statusOf h)

theorem not_checked_of_error {line : Bytes} (h : ∃ e, statusOf line = .error e) : ¬ Checked line := by
  obtain ⟨e, he⟩ := h
  rintro ⟨status, hstatus, -⟩
  rw [he] at hstatus
  cases hstatus

/-- Reading the reply that is next. -/
theorem wp_statReply {a : StatTurn} {batch : List StatTurn}
    (hturns : (turns.take sent).drop lines.length = a :: batch)
    (h : Checking t₀ turns sent lines c w) :
    wp (orError readResponseLine)
      ⟨fun status w' => ∃ c', c.operation = some c' ∧
          statusOf (arrives a.reply.full c'.cut) = .ok status ∧ w'.conn.state = w.conn.state ∧
          Exchanged t₀ turns sent lines w' ∧
          (Checked (arrives a.reply.full c'.cut) →
            Checking t₀ turns sent (lines ++ [arrives a.reply.full c'.cut]) (c'.past a.reply.full) w'),
        fun _ w' => (∀ line, c.nextLine a.reply = some line → ¬ Checked line) ∧
          w'.conn.state = .error ∧ Exchanged t₀ turns sent lines w',
        Exchanged t₀ turns sent lines⟩ w := by
  obtain ⟨hanswered, hwindow, t, hcourse, hwire, htaken, hunread, hserver⟩ := h
  rw [hturns, List.map_cons, List.flatten_cons] at hunread
  have hpart : ∀ w' cut n, w'.conn.transport = some ((t.endingAt cut).take n) →
      Exchanged t₀ turns sent lines w' := by
    intro w' cut n ht
    refine ⟨hanswered, hwindow, _, ht, by rw [← hwire]; rfl, ?_⟩
    rw [← htaken]
    exact List.prefix_append _ _
  rw [orError, wp_inspectErr]
  refine wp_mono (wp_readResponseLine_course hcourse hunread) ?_ ?_ ?_
  · rintro status w₁ ⟨c₁, hop, hstatus, hs₁, hcourse₁⟩
    refine ⟨c₁, hop, hstatus, hs₁, hpart w₁ c₁.cut _ hcourse₁.transport, fun hchecked => ?_⟩
    have hpos : 0 < a.reply.full.length := by simp [Piece.full]
    obtain ⟨-, htaken₁, hunread₁⟩ := take_arrives hpos (hcourse.stream hop hunread)
    have htake : turns.take (lines.length + 1) = turns.take lines.length ++ [a] := by
      have hget : (turns.take sent)[lines.length]? = some a := by
        rw [← List.head?_drop, hturns]
        rfl
      rw [List.getElem?_take] at hget
      split at hget
      · rw [List.take_add_one, hget]
        rfl
      · cases hget
    refine ⟨?_, ?_, _, hcourse₁, hwire, ?_, ?_, hserver⟩
    · rw [List.length_append, List.length_singleton, htake]
      exact List.rel_append hanswered (.cons ⟨arrives_isPrefix _ _, hchecked⟩ .nil)
    · rw [List.length_append]
      exact hwindow.trans (window_mono (Nat.le_add_right _ _))
    · refine htaken₁.trans ?_
      rw [show (t.endingAt c₁.cut).taken = t.taken from rfl, htaken, List.append_assoc,
        List.flatten_append, List.flatten_singleton]
      rfl
    · rw [List.length_append, List.length_singleton, drop_succ hturns]
      exact hunread₁
  · rintro e w' ⟨hbad, cut, n, ht⟩
    exact ⟨fun line hline => not_checked_of_error (hbad line hline), rfl,
      (hpart w' cut n ht).setState .error⟩
  · rintro w' ⟨cut, n, ht⟩
    exact hpart w' cut n ht

/-- How the read loop ends, begun in the state `s` after `lines` on the course `c`. -/
def readsBatch (t₀ : Transport π) (turns : List StatTurn) (sent : Nat) (s : ConnectionState)
    (lines : List Bytes) (c : Course) (results : List StatResult) (batch : List StatTurn) :
    Post NntpError (World π) (List StatResult) where
  ok r w := r = results ++ batch.map StatTurn.result ∧ w.conn.state = s ∧
    ∃ new c', c.reads (batch.map (·.reply)) = some (new, c') ∧ (∀ line ∈ new, Checked line) ∧
      new.length = batch.length ∧ Checking t₀ turns sent (lines ++ new) c' w
  err _ w := (∀ new c', c.reads (batch.map (·.reply)) = some (new, c') →
      ∃ line ∈ new, ¬ Checked line) ∧ w.conn.state = .error ∧
    ∃ lines', lines'.length < turns.length ∧ Exchanged t₀ turns sent lines' w
  dropped w := ∃ lines', Exchanged t₀ turns sent lines' w

/-- A reply that says whether the article exists is one more result. -/
theorem wp_readsBatch_cons {x : Nntp π (List StatResult)} {s : ConnectionState}
    {results : List StatResult} {a : StatTurn} {batch : List StatTurn} {c₁ : Course}
    (hop : c.operation = some c₁) (hchecked : Checked (arrives a.reply.full c₁.cut))
    (h : wp x (readsBatch t₀ turns sent s (lines ++ [arrives a.reply.full c₁.cut])
      (c₁.past a.reply.full) (results ++ [a.result]) batch) w) :
    wp x (readsBatch t₀ turns sent s lines c results (a :: batch)) w := by
  refine wp_mono h ?_ ?_ (fun _ h => h)
  · rintro r w' ⟨rfl, hs, new, c', hreads, hall, hlen, h'⟩
    refine ⟨by simp, hs, arrives a.reply.full c₁.cut :: new, c',
      Course.reads_cons.mpr ⟨c₁, new, hop, hreads, rfl⟩, ?_, by simp [hlen], by simpa using h'⟩
    intro line hline
    rcases List.mem_cons.mp hline with rfl | hline
    · exact hchecked
    · exact hall line hline
  · rintro e w' ⟨hbad, hs, hex⟩
    refine ⟨fun new c' hreads => ?_, hs, hex⟩
    obtain ⟨c₂, later, hop', hlater, rfl⟩ := Course.reads_cons.mp hreads
    obtain rfl : c₁ = c₂ := Option.some.inj (hop.symm.trans hop')
    obtain ⟨line, hline, hno⟩ := hbad later c' hlater
    exact ⟨line, List.mem_cons_of_mem _ hline, hno⟩

/-- A reply that does not is the end. -/
theorem readsBatch_err {s : ConnectionState} {results : List StatResult} {a : StatTurn}
    {batch : List StatTurn} {e : NntpError}
    (hbad : ∀ line, c.nextLine a.reply = some line → ¬ Checked line) (hs : w.conn.state = .error)
    (hopen : lines.length < turns.length) (hex : Exchanged t₀ turns sent lines w) :
    (readsBatch t₀ turns sent s lines c results (a :: batch)).err e w := by
  refine ⟨fun new c' hreads => ?_, hs, lines, hopen, hex⟩
  obtain ⟨c₁, later, hop, -, rfl⟩ := Course.reads_cons.mp hreads
  refine ⟨_, List.mem_cons_self, hbad _ ?_⟩
  rw [Course.nextLine, hop]
  rfl

/-- The read loop, by induction along the batch. -/
theorem wp_statReads (batch : List StatTurn) {lines : List Bytes} {c : Course} {w : World π}
    (results : List StatResult) (hturns : (turns.take sent).drop lines.length = batch)
    (h : Checking t₀ turns sent lines c w) :
    wp (statReads (batch.map (·.messageId)) results)
      (readsBatch t₀ turns sent w.conn.state lines c results batch) w := by
  induction batch generalizing lines c w results with
  | nil => exact ⟨by simp, rfl, [], c, rfl, by simp, rfl, by simpa using h⟩
  | cons a batch ih =>
      have hopen : lines.length < turns.length := by
        by_contra hshort
        rw [List.drop_eq_nil_of_le ((List.length_take_le' _ _).trans (by omega))] at hturns
        cases hturns
      rw [List.map_cons, statReads]
      refine wp_seq (wp_statReply hturns h) ?_ ?_ (fun _ h => ⟨_, h⟩)
      · rintro status w₁ ⟨c₁, hop, hstatus, hs₁, hex, hnext⟩
        have hgoes : ∀ exists_, a.result = { messageId := a.messageId, exists_ } →
            Checked (arrives a.reply.full c₁.cut) →
            wp (statReads (batch.map (·.messageId))
                (results ++ [{ messageId := a.messageId, exists_ }]))
              (readsBatch t₀ turns sent w.conn.state lines c results (a :: batch)) w₁ := by
          intro exists_ hresult hchecked
          rw [← hresult, ← hs₁]
          refine wp_readsBatch_cons hop hchecked (ih _ ?_ (hnext hchecked))
          rw [List.length_append, List.length_singleton]
          exact drop_succ hturns
        have hstop : ∀ e, ¬ (status.code = 223 ∨ status.code = 430) →
            (readsBatch t₀ turns sent w.conn.state lines c results (a :: batch)).err e
              (w₁.setState .error) := by
          intro e hcode
          refine readsBatch_err ?_ rfl hopen (hex.setState .error)
          rintro line hline ⟨status', hstatus', hcode'⟩
          rw [Course.nextLine, hop] at hline
          obtain rfl : arrives a.reply.full c₁.cut = line := Option.some.inj hline
          rw [hstatus] at hstatus'
          obtain rfl := Except.ok.inj hstatus'
          exact hcode hcode'
        have hcode := statusCode_of_arrives hstatus
        split
        case h_1 h223 =>
          exact hgoes true (by simp [StatTurn.result, hcode, h223]) ⟨status, hstatus, .inl h223⟩
        case h_2 h430 =>
          exact hgoes false (by simp [StatTurn.result, hcode, h430]) ⟨status, hstatus, .inr h430⟩
        case h_7 h223 h430 _ _ _ _ => exact hstop _ (not_or.mpr ⟨h223, h430⟩)
        all_goals exact hstop _ (by simp [*])
      · rintro e w' ⟨hbad, hs, hex⟩
        exact readsBatch_err hbad hs hopen hex

/-! ### The batches -/

theorem wp_flush_checking {s : ConnectionState} (hs : w.conn.state = s)
    (h : Checking t₀ turns sent lines c w) :
    wp (orError flush)
      ⟨fun _ w' => ∃ c', c.operation = some c' ∧ w'.conn.state = s ∧
          Checking t₀ turns sent lines c' w',
        fun _ w' => c.operation = none ∧ w'.conn.state = .error ∧ Exchanged t₀ turns sent lines w',
        Exchanged t₀ turns sent lines⟩ w := by
  have hex := h.exchanged
  obtain ⟨hanswered, hwindow, t, hcourse, hwire, htaken, hunread, hserver⟩ := h
  have hkept : ∀ w', w'.conn.transport = some t → Exchanged t₀ turns sent lines w' := fun w' ht =>
    ⟨hanswered, hwindow, t, ht, by rw [hwire], by rw [htaken]⟩
  rw [orError, wp_inspectErr]
  refine wp_mono (wp_flush_course hcourse) ?_ ?_ hkept
  · rintro _ w' ⟨c', hop, hs', hcourse'⟩
    rw [← List.append_nil (List.flatten _)] at hunread
    have hunread' := hcourse.stream hop hunread
    rw [List.append_nil] at hunread'
    exact ⟨c', hop, hs'.trans hs, hanswered, hwindow, _, hcourse', hwire, htaken, hunread', hserver⟩
  · rintro e w' ⟨hop, ht⟩
    exact ⟨hop, rfl, (hkept w' ht).setState .error⟩

/-- How a batch ends, begun after `lines` on the course `c`. -/
def checksBatch (t₀ : Transport π) (turns : List StatTurn) (lines : List Bytes) (c : Course)
    (results : List StatResult) (batch : List StatTurn) :
    Post NntpError (World π) (List StatResult) where
  ok r w := r = results ++ batch.map StatTurn.result ∧
    ∃ new c', c.batch (batch.map (·.reply)) = some (new, c') ∧ (∀ line ∈ new, Checked line) ∧
      new.length = batch.length ∧
      Checking t₀ turns (lines.length + batch.length) (lines ++ new) c' w
  err _ w := (∀ new c', c.batch (batch.map (·.reply)) = some (new, c') →
      ∃ line ∈ new, ¬ Checked line) ∧ w.conn.state = .error ∧
    ∃ sent lines', lines'.length < turns.length ∧ Exchanged t₀ turns sent lines' w
  dropped w := ∃ sent lines', Exchanged t₀ turns sent lines' w

/-- One batch: its commands, the flush, its replies. -/
theorem wp_statBatch {batch : List StatTurn} {later : List StatTurn} {lines : List Bytes}
    {c : Course} {w : World π} (results : List StatResult) (hne : batch ≠ [])
    (hturns : turns.drop lines.length = batch ++ later)
    (hroom : lines.length + batch.length ≤ (lines.length / statBatchSize + 1) * statBatchSize)
    (h : Checking t₀ turns lines.length lines c w) :
    wp (do
      statSends (batch.map (·.messageId))
      orError flush
      statReads (batch.map (·.messageId)) results)
      (checksBatch t₀ turns lines c results batch) w := by
  have hopen : lines.length < turns.length := by
    by_contra hshort
    rw [List.drop_eq_nil_of_le (by omega)] at hturns
    exact hne (List.append_eq_nil_iff.mp hturns.symm).1
  refine wp_seq (wp_statSends batch later hturns hroom le_rfl h) ?_ ?_ ?_
  · rintro _ w₁ ⟨c₁, hsends, hs₁, h₁⟩
    refine wp_seq (wp_flush_checking hs₁ h₁) ?_ ?_ (fun _ h => ⟨_, _, h⟩)
    · rintro _ w₂ ⟨c₂, hflush, hs₂, h₂⟩
      have hbatch : (turns.take (lines.length + batch.length)).drop lines.length = batch := by
        rw [List.drop_take, hturns, Nat.add_sub_cancel_left, List.take_left]
      have hcourse : c.batch (batch.map (·.reply)) = c₂.reads (batch.map (·.reply)) := by
        rw [Course.batch, Course.operations_succ, List.length_map, hsends, Option.bind_some, hflush,
          Option.bind_some]
      refine wp_mono (wp_statReads batch results hbatch h₂) ?_ ?_ ?_
      · rintro r w₃ ⟨hr, -, new, c₃, hreads, hall, hlen, h₃⟩
        exact ⟨hr, new, c₃, hcourse.trans hreads, hall, hlen, h₃⟩
      · rintro e w₃ ⟨hbad, hs₃, lines', hopen', hex⟩
        exact ⟨fun new c₃ hnew => hbad new c₃ (hcourse ▸ hnew), hs₃, _, lines', hopen', hex⟩
      · rintro w₃ ⟨lines', hex⟩
        exact ⟨_, lines', hex⟩
    · rintro e w₂ ⟨hflush, hs₂, hex⟩
      refine ⟨fun new c' hnew => ?_, hs₂, _, lines, hopen, hex⟩
      obtain ⟨c₁', c₂, hsends', hflush', -⟩ := Course.batch_eq_some.mp hnew
      rw [List.length_map, hsends] at hsends'
      obtain rfl := Option.some.inj hsends'
      rw [hflush] at hflush'
      cases hflush'
  · rintro e w₁ ⟨hsends, hs₁, sent, hex⟩
    refine ⟨fun new c' hnew => ?_, hs₁, sent, lines, hopen, hex⟩
    obtain ⟨c₁, c₂, hsends', -⟩ := Course.batch_eq_some.mp hnew
    rw [List.length_map, hsends] at hsends'
    cases hsends'
  · rintro w₁ ⟨sent, hex⟩
    exact ⟨sent, lines, hex⟩

theorem statBatches_cons (ids : List String) (later : List (List String))
    (results : List StatResult) :
    (statBatches (ids :: later) results : Nntp π _) = setState .busy >>= fun _ =>
      (do
        statSends ids
        orError flush
        statReads ids results) >>= fun results =>
          setState .ready >>= fun _ => statBatches later results := by
  rw [statBatches]
  simp only [bind_assoc]

/-- The batches, by induction on them. Each begins with every earlier id answered,
at a multiple of the batch size. -/
theorem wp_statBatches (batches : List (List StatTurn)) {lines : List Bytes} {c : Course}
    {w : World π} (results : List StatResult) (hchunked : Chunked statBatchSize batches)
    (hturns : turns.drop lines.length = batches.flatten)
    (haligned : batches ≠ [] → statBatchSize ∣ lines.length)
    (h : Checking t₀ turns lines.length lines c w) :
    wp (statBatches (batches.map (·.map (·.messageId))) results)
      ⟨fun r w' => r = results ++ batches.flatten.map StatTurn.result ∧
          (w.conn.state = .ready ∨ batches ≠ [] → w'.conn.state = .ready) ∧
          ∃ new c', c.received (batches.map (·.map (·.reply))) = some new ∧
            (∀ line ∈ new, Checked line) ∧ new.length = batches.flatten.length ∧
            Checking t₀ turns (lines.length + new.length) (lines ++ new) c' w',
        fun _ w' => (∀ new, c.received (batches.map (·.map (·.reply))) = some new →
            ∃ line ∈ new, ¬ Checked line) ∧ w'.conn.state = .error ∧
          ∃ sent lines', lines'.length < turns.length ∧ Exchanged t₀ turns sent lines' w',
        fun w' => ∃ sent lines', Exchanged t₀ turns sent lines' w'⟩ w := by
  induction batches generalizing lines c w results with
  | nil =>
      exact ⟨by simp, fun hs => hs.resolve_right (by simp), [], c, rfl, by simp, rfl,
        by simpa using h⟩
  | cons batch later ih =>
      obtain ⟨hne, hsize, hfull, hchunked'⟩ := hchunked
      obtain ⟨k, hk⟩ := haligned (List.cons_ne_nil _ _)
      rw [List.flatten_cons] at hturns
      -- The batch is the one that the answers so far have come to.
      have hroom : lines.length + batch.length ≤
          (lines.length / statBatchSize + 1) * statBatchSize := by
        simp only [statBatchSize] at hk hsize ⊢
        omega
      rw [List.map_cons, statBatches_cons, setState, wp_bind, wp_modify]
      refine wp_seq (wp_statBatch results hne hturns hroom (h.setState .busy)) ?_ ?_ (fun _ h => h)
      · rintro r w₁ ⟨rfl, new, c₁, hbatch, hall, hlen, h₁⟩
        rw [setState, wp_bind, wp_modify]
        have hlength : lines.length + batch.length = (lines ++ new).length := by
          rw [List.length_append, hlen]
        rw [hlength] at h₁
        have hlater : turns.drop (lines ++ new).length = later.flatten := by
          rw [← hlength, ← List.drop_drop, hturns, List.drop_left]
        have haligned' : later ≠ [] → statBatchSize ∣ (lines ++ new).length := by
          intro hmore
          rw [← hlength, hk, hfull hmore]
          exact ⟨k + 1, by rw [Nat.mul_add, Nat.mul_one]⟩
        refine wp_mono (ih _ hchunked' hlater haligned' (h₁.setState .ready)) ?_ ?_ (fun _ h => h)
        · rintro r w₂ ⟨rfl, hs₂, new', c₂, hrest, hall', hlen', h₂⟩
          refine ⟨by simp, fun _ => hs₂ (.inl rfl), new ++ new', c₂,
            Course.received_cons.mpr ⟨new, c₁, new', hbatch, hrest, rfl⟩, ?_, ?_, ?_⟩
          · intro line hline
            exact (List.mem_append.mp hline).elim (hall line) (hall' line)
          · rw [List.length_append, List.flatten_cons, List.length_append, hlen, hlen']
          · rw [List.length_append, ← List.append_assoc, ← Nat.add_assoc, ← List.length_append]
            exact h₂
        -- A later batch fails, so the course gives the same answers up to there.
        · rintro e w₂ ⟨hno, hs₂, hex⟩
          refine ⟨fun lines' hlines => ?_, hs₂, hex⟩
          obtain ⟨new₁, c₁', rest, hbatch', hrest, rfl⟩ := Course.received_cons.mp hlines
          obtain ⟨rfl, rfl⟩ := Prod.mk.inj (Option.some.inj (hbatch.symm.trans hbatch'))
          obtain ⟨line, hline, hno'⟩ := hno rest hrest
          exact ⟨line, List.mem_append_right _ hline, hno'⟩
      -- This batch fails, and the course says so from its first part on.
      · rintro e w₁ ⟨hbad, hs₁, hex⟩
        refine ⟨fun lines' hlines => ?_, hs₁, hex⟩
        obtain ⟨new, c₁, rest, hbatch, -, rfl⟩ := Course.received_cons.mp hlines
        obtain ⟨line, hline, hno⟩ := hbad new c₁ hbatch
        exact ⟨line, List.mem_append_left _ hline, hno⟩

/-- **Batched STAT is the plain check of each id.** On a `Ready` connection with
nothing unread, with a server that answers each STAT with one line, whatever
happens to the operations: at every await the commands on the wire are at most a
batch size ahead of the answers. `execute` returns if and only if every operation
completes and every reply, as it arrives, is `223` or `430`; then it returns one
result an id, in order, each telling whether the reply is `223`, with exactly the
commands on the wire, nothing left to read and the state `Ready`. Where it fails
the state is `Error`, and no command is written beyond the batch of an id that has
had no answer. -/
theorem execute_checks_every_id (p : StatPipeline) (w : World π) (t : Transport π)
    (turns : List StatTurn) (hids : p.pending = turns.map (·.messageId))
    (hready : w.conn.state = .ready) (ht : w.conn.transport = some t) (hunread : t.unread = [])
    (hserver : AnswersStat t.peer turns) :
    (∃ sent lines, Exchanged t turns sent lines (execute (p, w)).state.2 ∧
      sent ≤ lines.length + statBatchSize) ∧
    ((execute (p, w)).Returned →
      ((∃ results s, execute (p, w) = .ok results s) ↔
        ∃ lines, Course.received (chunks statBatchSize (turns.map (·.reply))) ⟨t.cut, w.events⟩ =
          some lines ∧ ∀ line ∈ lines, Checked line)) ∧
    (∀ results s, execute (p, w) = .ok results s →
      results = turns.map StatTurn.result ∧ s.1.pending = [] ∧ s.2.conn.state = .ready ∧
        ∃ t', s.2.conn.transport = some t' ∧ t'.wire = t.wire ++ statLines turns ∧
          t'.available = []) ∧
    ∀ e s, execute (p, w) = .err e s →
      s.2.conn.state = .error ∧
        ∃ sent lines, lines.length < turns.length ∧ Exchanged t turns sent lines s.2 := by
  have hsize : 0 < statBatchSize := by decide
  have hchunks : chunks statBatchSize p.pending =
      (chunks statBatchSize turns).map (·.map (·.messageId)) := by rw [hids, chunks_map]
  have hreplies : chunks statBatchSize (turns.map (·.reply)) =
      (chunks statBatchSize turns).map (·.map (·.reply)) := chunks_map _ _ _
  have hstart : Checking t turns 0 [] ⟨t.cut, w.events⟩ w :=
    ⟨.nil, Nat.zero_le _, t, ⟨rfl, ht, rfl⟩, by simp [statLines], by simp, .inr (by simpa using hunread),
      hserver⟩
  have hturns : turns.drop ([] : List Bytes).length = (chunks statBatchSize turns).flatten := by
    rw [flatten_chunks hsize]
    rfl
  have hrun := wp_statBatches (chunks statBatchSize turns) [] (chunked_chunks hsize turns) hturns
    (fun _ => Nat.dvd_zero _) hstart
  rw [flatten_chunks hsize, ← hreplies, ← hchunks] at hrun
  -- `execute` takes the ids out of the pipeline first, so they are gone however it ends.
  have hexec : execute (p, w) =
      (statBatches (chunks statBatchSize p.pending) []).onSnd ({ p with pending := [] }, w) := rfl
  have hwindow : ∀ {sent lines w'}, Exchanged t turns sent lines w' →
      sent ≤ lines.length + statBatchSize := by
    intro sent lines w' hex
    have hw := hex.window
    simp only [statBatchSize] at hw ⊢
    omega
  unfold wp at hrun
  rw [hexec, Comp.onSnd]
  cases hend : statBatches (chunks statBatchSize p.pending) [] w with
  | ok r w' =>
      rw [hend] at hrun
      obtain ⟨rfl, hs, new, c', hreceived, hall, hlen, h'⟩ := hrun
      have hex := h'.exchanged
      refine ⟨⟨_, _, hex, hwindow hex⟩,
        fun _ => ⟨fun _ => ⟨new, hreceived, hall⟩, fun _ => ⟨_, _, rfl⟩⟩, ?_, fun e s h => by cases h⟩
      rintro results s ⟨⟩
      obtain ⟨-, -, t', hcourse, hwire, -, hunread', -⟩ := h'
      refine ⟨rfl, rfl, hs (.inl hready), t', hcourse.transport, ?_, ?_⟩
      · rw [hwire, hlen, List.length_nil, Nat.zero_add, List.take_length]
      · rcases hunread' with hended | hunread'
        · rw [Transport.available, show t'.cut = some 0 from hended]
          rfl
        · have hnone : t'.unread = [] := by
            rw [hunread', List.drop_eq_nil_of_le]
            · rfl
            · rw [List.length_take, List.nil_append, hlen, List.length_nil]
              omega
          rw [Transport.available, hnone]
          cases t'.cut with
          | none => rfl
          | some n => exact List.take_nil
  | err e w' =>
      rw [hend] at hrun
      obtain ⟨hbad, hs, sent, lines, hopen, hex⟩ := hrun
      refine ⟨⟨sent, lines, hex, hwindow hex⟩, fun _ => ⟨?_, ?_⟩, fun r s h => (by cases h), ?_⟩
      · rintro ⟨r, s, ⟨⟩⟩
      · rintro ⟨new, hreceived, hall⟩
        obtain ⟨line, hline, hno⟩ := hbad new hreceived
        exact absurd (hall line hline) hno
      · rintro e' s ⟨⟩
        exact ⟨hs, sent, lines, hopen, hex⟩
  | dropped w' =>
      rw [hend] at hrun
      obtain ⟨sent, lines, hex⟩ := hrun
      exact ⟨⟨sent, lines, hex, hwindow hex⟩, fun h => h.elim, fun r s h => (by cases h),
        fun e s h => (by cases h)⟩

end Checks

def missingIds : List StatTurn :=
  [⟨"a@b", ⟨Text.utf8 "430 no\r", by decide⟩⟩, ⟨"<c@d>", ⟨Text.utf8 "430 no\r", by decide⟩⟩]

theorem execute_checks_every_id_on_missing :
    let run := execute (⟨["a@b", "<c@d>"]⟩, .readyTo emptyServer)
    let t : Transport ReplyServer := { tls := false, peer := emptyServer, unread := [] }
    (∃ sent lines, Exchanged t missingIds sent lines run.state.2 ∧
      sent ≤ lines.length + statBatchSize) ∧
    (run.Returned →
      ((∃ results s, run = .ok results s) ↔
        ∃ lines, Course.received (chunks statBatchSize (missingIds.map (·.reply))) ⟨t.cut, []⟩ =
          some lines ∧ ∀ line ∈ lines, Checked line)) ∧
    (∀ results s, run = .ok results s →
      results = missingIds.map StatTurn.result ∧ s.1.pending = [] ∧ s.2.conn.state = .ready ∧
        ∃ t', s.2.conn.transport = some t' ∧ t'.wire = t.wire ++ statLines missingIds ∧
          t'.available = []) ∧
    ∀ e s, run = .err e s →
      s.2.conn.state = .error ∧
        ∃ sent lines, lines.length < missingIds.length ∧ Exchanged t missingIds sent lines s.2 :=
  execute_checks_every_id ⟨["a@b", "<c@d>"]⟩ (.readyTo emptyServer) _ missingIds rfl rfl rfl rfl
    ⟨by decide, by decide, trivial⟩

end NzbNntp
