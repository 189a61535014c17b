import NzbNntp.Library.Transducer
import NzbNntp.Mock.Basic

/-!
`silent_close_after_bytes`. A session that is cut after so many bytes says what it would have
said without the fault, up to that byte and no further: the fault changes no byte, loses none
before the limit and leaks none behind it.
-/

namespace NzbNntp

open Transducer

theorem Peer.hearAll_eq_run {π : Type} [Peer π] (p : π) (input : Bytes) :
    Peer.hearAll p input = run Peer.hear p input := by
  induction input generalizing p with
  | nil => rfl
  | cons b input ih => rw [Peer.hearAll, run, ih]

def MockConfig.unlimited (config : MockConfig) : MockConfig :=
  { config with faults := { config.faults with silentCloseAfterBytes := none } }

namespace MockSession

def output (config : MockConfig) (state : MockState) (input : Bytes) : Bytes :=
  (start config state).2 ++ (Peer.hearAll (start config state).1 input).2

/-- What it says in all to a client that then ends its stream. -/
def outputToEnd (config : MockConfig) (state : MockState) (input : Bytes) : Bytes :=
  output config state input ++ (Peer.hearAll (start config state).1 input).1.finish.2

/-! ### The count of the bytes -/

section Count

variable (session : MockSession)

theorem write_config (data : Bytes) : (session.write data).1.config = session.config := by
  unfold write
  split
  · rfl
  · dsimp only
    split
    · rfl
    · split
      · rfl
      · split <;> rfl

theorem write_bytesWritten (data : Bytes) :
    (session.write data).1.bytesWritten =
      session.bytesWritten + (session.write data).2.1.length := by
  unfold write
  split
  · rfl
  · dsimp only
    split
    · rfl
    · split
      · rfl
      · split <;> rfl

/-- After an operation, the configuration is still `config`, and the count of the bytes has
grown from `bytes` by those that went out. -/
structure Counts (config : MockConfig) (bytes : Nat) (r : MockSession × Bytes) : Prop where
  config : r.1.config = config
  bytes : r.1.bytesWritten = bytes + r.2.length

theorem writeAll_counts (writes : List Bytes) : Counts session.config session.bytesWritten
    ((session.writeAll writes).1, (session.writeAll writes).2.1) := by
  induction writes generalizing session with
  | nil => exact ⟨rfl, rfl⟩
  | cons data rest ih =>
      have hconfig := session.write_config data
      have hbytes := session.write_bytesWritten data
      rw [writeAll]
      rcases hwrite : session.write data with ⟨next, sent, goesOn⟩
      rw [hwrite] at hconfig hbytes
      cases goesOn with
      | false => exact ⟨hconfig, hbytes⟩
      | true =>
          obtain ⟨hrest, hlater⟩ := ih next
          refine ⟨hrest.trans hconfig, ?_⟩
          dsimp only at hbytes hlater ⊢
          rw [hlater, hbytes, List.length_append, Nat.add_assoc]

def goOn (session : MockSession) : AfterCommand → MockSession
  | .counts => session.countCommand
  | .reads => { session with posting := some [] }
  | .quits => { session with closed := true }

variable {session}

theorem respond_of_sent {answer : MockAnswer} {next : MockSession} {sent : Bytes}
    (h : { session with state := answer.state }.writeAll answer.writes = (next, sent, true)) :
    session.respond answer = (next.goOn answer.after, sent) := by
  rw [respond, h]
  dsimp only
  cases answer.after <;> rfl

theorem respond_of_cut {answer : MockAnswer} {next : MockSession} {sent : Bytes}
    (h : { session with state := answer.state }.writeAll answer.writes = (next, sent, false)) :
    session.respond answer = (next, sent) := by
  rw [respond, h]

variable (session)

theorem goOn_config (after : AfterCommand) : (session.goOn after).config = session.config := by
  cases after <;> rfl

theorem goOn_bytesWritten (after : AfterCommand) :
    (session.goOn after).bytesWritten = session.bytesWritten := by
  cases after <;> rfl

theorem respond_counts (answer : MockAnswer) :
    Counts session.config session.bytesWritten (session.respond answer) := by
  have h := writeAll_counts { session with state := answer.state } answer.writes
  rcases hrun : { session with state := answer.state }.writeAll answer.writes with
    ⟨next, sent, goesOn⟩
  rw [hrun] at h
  cases goesOn with
  | false =>
      rw [respond_of_cut hrun]
      exact h
  | true =>
      rw [respond_of_sent hrun]
      exact ⟨(next.goOn_config _).trans h.config, (next.goOn_bytesWritten _).trans h.bytes⟩

theorem command_counts (trimmed : String) :
    Counts session.config session.bytesWritten (session.command trimmed) := by
  rw [command]
  exact respond_counts (session.hangOn _) _

theorem lineEnded_counts (line : Bytes) :
    Counts session.config session.bytesWritten (session.lineEnded line) := by
  unfold lineEnded
  split
  · unfold articleLineRead
    dsimp only
    split
    · exact respond_counts { session with posting := none } _
    · exact ⟨rfl, rfl⟩
  · unfold lineRead
    split
    · exact ⟨rfl, rfl⟩
    dsimp only
    split
    · exact ⟨rfl, rfl⟩
    · exact session.command_counts _

theorem hear_counts (b : UInt8) :
    Counts session.config session.bytesWritten (session.hear b) := by
  unfold hear
  split
  · exact ⟨rfl, rfl⟩
  split
  · exact ⟨rfl, rfl⟩
  · exact lineEnded_counts { session with line := [] } _

end Count

/-! ### The fault -/

def unlimited (session : MockSession) : MockSession :=
  { session with config := session.config.unlimited }

section Cuts

variable {limit : Nat} {session : MockSession}

/-- Without the fault every write goes out. -/
theorem writeAll_goesOn (h : session.config.faults.silentCloseAfterBytes = none)
    (writes : List Bytes) : (session.writeAll writes).2.2 = true := by
  induction writes generalizing session with
  | nil => rfl
  | cons data rest ih =>
      have hconfig := session.write_config data
      have hgoes : (session.write data).2.2 = true := by
        unfold write
        split
        · rfl
        · rw [h]
      rw [writeAll]
      rcases hwrite : session.write data with ⟨next, sent, goesOn⟩
      rw [hwrite] at hconfig hgoes
      dsimp only at hconfig hgoes
      subst hgoes
      exact ih (hconfig ▸ h)

/-- A write goes out whole in both, or the limit lies within it. -/
theorem write_cut (hlimit : session.config.faults.silentCloseAfterBytes = some limit)
    (hroom : session.bytesWritten ≤ limit) (data : Bytes) :
    (∃ next sent, session.write data = (next, sent, true) ∧
        session.unlimited.write data = (next.unlimited, sent, true) ∧
        next.bytesWritten ≤ limit) ∨
      ∃ next free, session.write data = (next, data.take (limit - session.bytesWritten), false) ∧
        session.unlimited.write data = (free, data, true) ∧
        limit ≤ session.bytesWritten + data.length := by
  have hfree : session.unlimited.config.faults.silentCloseAfterBytes = none := rfl
  unfold write
  rw [hlimit, hfree]
  by_cases hhung : session.hung = true
  · have hhung' : session.unlimited.hung = true := hhung
    rw [if_pos hhung, if_pos hhung']
    exact .inl ⟨session, [], rfl, rfl, hroom⟩
  · have hhung' : ¬ session.unlimited.hung = true := hhung
    rw [if_neg hhung, if_neg hhung']
    dsimp only
    by_cases hfull : limit ≤ session.bytesWritten
    · rw [if_pos hfull]
      refine .inr ⟨session, _, ?_, rfl, Nat.le_add_right_of_le hfull⟩
      rw [Nat.sub_eq_zero_of_le hfull, List.take_zero]
    rw [if_neg hfull]
    by_cases hpast : limit < session.bytesWritten + data.length
    · rw [if_pos hpast]
      exact .inr ⟨_, _, rfl, rfl, Nat.le_of_lt hpast⟩
    · rw [if_neg hpast]
      exact .inl ⟨_, data, rfl, rfl, Nat.le_of_not_lt hpast⟩

/-- The writes of an answer, by induction along them. -/
theorem writeAll_cut (session : MockSession)
    (hlimit : session.config.faults.silentCloseAfterBytes = some limit)
    (hroom : session.bytesWritten ≤ limit) (writes : List Bytes) :
    (∃ next sent, session.writeAll writes = (next, sent, true) ∧
        session.unlimited.writeAll writes = (next.unlimited, sent, true) ∧
        next.bytesWritten ≤ limit) ∨
      ∃ next free sent, session.writeAll writes =
          (next, sent.take (limit - session.bytesWritten), false) ∧ next.closed = true ∧
        session.unlimited.writeAll writes = (free, sent, true) ∧
        limit ≤ session.bytesWritten + sent.length := by
  induction writes generalizing session with
  | nil => exact .inl ⟨session, [], rfl, rfl, hroom⟩
  | cons data rest ih =>
      have hconfig := session.write_config data
      have hbytes := session.write_bytesWritten data
      rw [writeAll, writeAll]
      rcases write_cut hlimit hroom data with
        ⟨next, sent, hwrite, hwrite', hroom'⟩ | ⟨next, free, hwrite, hwrite', hpast⟩
      · rw [hwrite] at hconfig hbytes
        dsimp only at hconfig hbytes
        rw [hwrite, hwrite']
        dsimp only
        rcases ih next (hconfig ▸ hlimit) hroom' with
          ⟨last, later, hrest, hrest', hroom''⟩ | ⟨last, free, later, hrest, hclosed, hrest', hpast⟩
        · rw [hrest, hrest']
          exact .inl ⟨last, sent ++ later, rfl, rfl, hroom''⟩
        · rw [hrest, hrest']
          refine .inr ⟨last, free, sent ++ later, ?_, hclosed, rfl, ?_⟩
          · have hfits : sent.length ≤ limit - session.bytesWritten := by omega
            rw [hbytes, Nat.sub_add_eq, List.take_append, List.take_of_length_le hfits]
          · rw [List.length_append, ← Nat.add_assoc, ← hbytes]
            exact hpast
      · rw [hwrite, hwrite']
        dsimp only
        have hfree : free.config.faults.silentCloseAfterBytes = none := by
          have hkept := session.unlimited.write_config data
          rw [hwrite'] at hkept
          rw [show free.config = session.unlimited.config from hkept]
          rfl
        have hgoes := writeAll_goesOn hfree rest
        rcases hlater : free.writeAll rest with ⟨last, more, goesOn⟩
        rw [hlater] at hgoes
        dsimp only at hgoes
        subst hgoes
        refine .inr ⟨{ next with closed := true }, last, data ++ more, ?_, rfl, rfl, ?_⟩
        · have hlen : limit - session.bytesWritten ≤ data.length := by omega
          rw [List.take_append_of_le_length hlen]
        · rw [List.length_append]
          omega

/-- A session with the limit, and what the same session is without it: until the limit shows
they do the same, and then the first is closed. -/
inductive Cut (limit : Nat) : MockSession → MockSession → Prop
  | same {session : MockSession} :
      session.config.faults.silentCloseAfterBytes = some limit → session.bytesWritten ≤ limit →
      Cut limit session session.unlimited
  | past {session free : MockSession} : session.closed = true → limit ≤ free.bytesWritten →
      Cut limit session free

/-- Two operations, on a session and on what it is without the fault, that lead to such
sessions again, the first one's output being the second one's up to the limit. -/
def CutTogether (limit bytes : Nat) (r r' : MockSession × Bytes) : Prop :=
  Cut limit r.1 r'.1 ∧ r.2 = r'.2.take (limit - bytes)

theorem cutTogether_silent {bytes : Nat} (next : MockSession)
    (hlimit : next.config.faults.silentCloseAfterBytes = some limit)
    (hroom : next.bytesWritten ≤ limit) :
    CutTogether limit bytes (next, []) (next.unlimited, []) :=
  ⟨.same hlimit hroom, (List.take_nil).symm⟩

theorem respond_cut (session : MockSession)
    (hlimit : session.config.faults.silentCloseAfterBytes = some limit)
    (hroom : session.bytesWritten ≤ limit) (answer : MockAnswer) :
    CutTogether limit session.bytesWritten (session.respond answer)
      (session.unlimited.respond answer) := by
  have hcounts := respond_counts session answer
  have hcounts' := respond_counts session.unlimited answer
  rcases writeAll_cut { session with state := answer.state } hlimit hroom answer.writes with
    ⟨next, sent, hrun, hrun', hroom'⟩ | ⟨next, free, sent, hrun, hclosed, hrun', hpast⟩
  · rw [respond_of_sent hrun] at hcounts ⊢
    rw [show session.unlimited.respond answer = _ from respond_of_sent hrun']
    have hfits : sent.length ≤ limit - session.bytesWritten := by
      have hbytes := hcounts.bytes
      dsimp only at hbytes
      rw [goOn_bytesWritten] at hbytes
      omega
    refine ⟨?_, (List.take_of_length_le hfits).symm⟩
    have hunlimited : next.unlimited.goOn answer.after = (next.goOn answer.after).unlimited := by
      cases answer.after <;> rfl
    rw [hunlimited]
    exact .same (hcounts.config ▸ hlimit) ((next.goOn_bytesWritten _).trans_le hroom')
  · rw [show session.unlimited.respond answer = _ from respond_of_sent hrun'] at hcounts' ⊢
    rw [respond_of_cut hrun]
    refine ⟨.past hclosed ?_, rfl⟩
    rw [hcounts'.bytes]
    exact hpast

theorem command_cut (hlimit : session.config.faults.silentCloseAfterBytes = some limit)
    (hroom : session.bytesWritten ≤ limit) (trimmed : String) :
    CutTogether limit session.bytesWritten (session.command trimmed)
      (session.unlimited.command trimmed) := by
  rw [command, command]
  exact respond_cut (session.hangOn _) hlimit hroom _

theorem articleLineRead_cut (hlimit : session.config.faults.silentCloseAfterBytes = some limit)
    (hroom : session.bytesWritten ≤ limit) (article line : Bytes) :
    CutTogether limit session.bytesWritten (session.articleLineRead article line)
      (session.unlimited.articleLineRead article line) := by
  rw [articleLineRead, articleLineRead]
  dsimp only
  split
  · exact respond_cut { session with posting := none } hlimit hroom _
  · exact cutTogether_silent { session with posting := some _ } hlimit hroom

theorem lineRead_cut (hlimit : session.config.faults.silentCloseAfterBytes = some limit)
    (hroom : session.bytesWritten ≤ limit) (line : Bytes) :
    CutTogether limit session.bytesWritten (session.lineRead line)
      (session.unlimited.lineRead line) := by
  rw [lineRead, lineRead]
  cases Text.fromUtf8 line with
  | none => exact cutTogether_silent { session with closed := true } hlimit hroom
  | some text =>
      dsimp only
      split
      · exact cutTogether_silent session hlimit hroom
      · exact command_cut hlimit hroom _

theorem lineEnded_cut (session : MockSession)
    (hlimit : session.config.faults.silentCloseAfterBytes = some limit)
    (hroom : session.bytesWritten ≤ limit) (line : Bytes) :
    CutTogether limit session.bytesWritten (session.lineEnded line)
      (session.unlimited.lineEnded line) := by
  have hposting : session.unlimited.posting = session.posting := rfl
  rw [lineEnded, lineEnded, hposting]
  cases session.posting with
  | none => exact lineRead_cut hlimit hroom _
  | some article => exact articleLineRead_cut hlimit hroom _ _

theorem hear_cut {free : MockSession} (h : Cut limit session free) (b : UInt8) :
    CutTogether limit free.bytesWritten (session.hear b) (free.hear b) := by
  cases h with
  | past hclosed hpast =>
      have hcounts := hear_counts free b
      rw [hear, if_pos hclosed]
      refine ⟨.past hclosed ?_, ?_⟩
      · rw [hcounts.bytes]
        exact Nat.le_add_right_of_le hpast
      · rw [Nat.sub_eq_zero_of_le hpast, List.take_zero]
  | same hlimit hroom =>
      unfold hear
      by_cases hclosed : session.closed = true
      · have hclosed' : session.unlimited.closed = true := hclosed
        rw [if_pos hclosed, if_pos hclosed']
        exact cutTogether_silent session hlimit hroom
      have hclosed' : ¬ session.unlimited.closed = true := hclosed
      rw [if_neg hclosed, if_neg hclosed']
      by_cases hb : b ≠ lf
      · rw [if_pos hb, if_pos hb]
        exact cutTogether_silent { session with line := session.line ++ [b] } hlimit hroom
      rw [if_neg hb, if_neg hb]
      exact lineEnded_cut { session with line := [] } hlimit hroom _

/-- The end of the stream, at which the rest of a line is read. -/
theorem finish_cut {free : MockSession} (h : Cut limit session free) :
    session.finish.2 = free.finish.2.take (limit - free.bytesWritten) := by
  cases h with
  | past hclosed hpast =>
      rw [finish, hclosed, Bool.true_or, if_pos rfl, Nat.sub_eq_zero_of_le hpast, List.take_zero]
  | same hlimit hroom =>
      rw [finish, finish]
      change _ = (if (session.closed || session.line.isEmpty) = true then _ else _ :
        MockSession × Bytes).2.take _
      split
      · exact List.take_nil.symm
      · exact (lineEnded_cut { session with line := [] } hlimit hroom session.line).2

/-- The welcome is a write like any other. -/
theorem greet_cut (session : MockSession)
    (hlimit : session.config.faults.silentCloseAfterBytes = some limit)
    (hnew : session.bytesWritten = 0) :
    CutTogether limit 0 session.greet session.unlimited.greet ∧
      session.unlimited.greet.1.bytesWritten = session.unlimited.greet.2.length := by
  have hroom : session.bytesWritten ≤ limit := hnew ▸ Nat.zero_le limit
  obtain ⟨welcome, hwelcome⟩ : ∃ welcome, welcome =
    Text.utf8 s!"{session.config.welcomeCode.toNat} {session.config.welcomeMessage}\r\n" := ⟨_, rfl⟩
  have hconfig := session.write_config welcome
  have hbytes := session.write_bytesWritten welcome
  have hbytes' := session.unlimited.write_bytesWritten welcome
  have hnew' : session.unlimited.bytesWritten = 0 := hnew
  have hgreet : session.greet = ({ (session.write welcome).1 with
      closed := !(session.write welcome).2.2 }, (session.write welcome).2.1) := by
    rw [hwelcome]
    rfl
  have hgreet' : session.unlimited.greet = ({ (session.unlimited.write welcome).1 with
      closed := !(session.unlimited.write welcome).2.2 },
      (session.unlimited.write welcome).2.1) := by
    rw [hwelcome]
    rfl
  rw [hgreet, hgreet']
  rcases write_cut hlimit hroom welcome with
    ⟨next, sent, hwrite, hwrite', hroom'⟩ | ⟨next, free, hwrite, hwrite', hpast⟩
  · rw [hwrite] at hconfig hbytes
    rw [hwrite'] at hbytes'
    rw [hwrite, hwrite']
    dsimp only at hbytes hbytes' hconfig ⊢
    have hnext : Cut limit { next with closed := false } { next.unlimited with closed := false } :=
      .same (hconfig ▸ hlimit) hroom'
    refine ⟨⟨hnext, ?_⟩, ?_⟩
    · have hfits : sent.length ≤ limit - 0 := by omega
      exact (List.take_of_length_le hfits).symm
    · rw [hbytes', hnew', Nat.zero_add]
  · rw [hwrite'] at hbytes'
    rw [hwrite, hwrite']
    dsimp only at hbytes' ⊢
    refine ⟨⟨.past rfl ?_, by rw [hnew]⟩, ?_⟩
    · show limit ≤ free.bytesWritten
      omega
    · rw [hbytes', hnew', Nat.zero_add]

theorem start_cut {config : MockConfig} (hlimit : config.faults.silentCloseAfterBytes = some limit)
    (hserves : config.serviceUnavailable = false) (state : MockState) :
    let free := start config.unlimited state
    CutTogether limit 0 (start config state) free ∧ free.1.bytesWritten = free.2.length := by
  have hserves' : config.unlimited.serviceUnavailable = false := hserves
  rw [start, start, hserves, hserves', if_neg Bool.false_ne_true, if_neg Bool.false_ne_true]
  exact greet_cut { config, state := { state with authenticated := _ } } hlimit rfl

end Cuts

/-- **A silent close truncates.** Whatever the client sends, in whatever order and however
broken, a server that closes its sessions after `limit` bytes says the first `limit` bytes
of what it says without that fault; and so it does when the client has ended its stream. -/
theorem silent_close_truncates (config : MockConfig) (state : MockState) (limit : Nat)
    (hlimit : config.faults.silentCloseAfterBytes = some limit)
    (hserves : config.serviceUnavailable = false) (input : Bytes) :
    output config state input = (output config.unlimited state input).take limit ∧
      outputToEnd config state input = (outputToEnd config.unlimited state input).take limit := by
  obtain ⟨⟨hcut, hwelcome⟩, hbytes⟩ := start_cut hlimit hserves state
  have hwritten : ∀ (free : MockSession) (b : UInt8), (hear free b).1.bytesWritten =
      free.bytesWritten + (hear free b).2.length := fun free b => (hear_counts free b).bytes
  have hstep : ∀ session free (b : UInt8), Cut limit session free →
      CutTogether limit free.bytesWritten (hear session b) (hear free b) :=
    fun _ _ b h => hear_cut h b
  obtain ⟨hlast, hrest⟩ := run_cut bytesWritten hwritten hstep hcut input
  have hcount := run_written hwritten (start config.unlimited state).1 input
  have hsame : output config state input = (output config.unlimited state input).take limit := by
    rw [output, output, Peer.hearAll_eq_run, Peer.hearAll_eq_run]
    change _ ++ (run hear _ input).2 = (_ ++ (run hear _ input).2).take limit
    rw [hrest, hwelcome, hbytes, List.take_append, Nat.sub_zero]
  have hlength : (output config.unlimited state input).length =
      (run hear (start config.unlimited state).1 input).1.bytesWritten := by
    rw [hcount, hbytes, output, Peer.hearAll_eq_run, List.length_append]
    rfl
  refine ⟨hsame, ?_⟩
  rw [outputToEnd, outputToEnd, hsame, List.take_append, hlength, Peer.hearAll_eq_run,
    Peer.hearAll_eq_run]
  exact congrArg _ (finish_cut hlast)

def stallingMock : MockConfig where
  uppercase := .plain
  articles := [("a@b", Text.utf8 "Subject: a\n\n.b")]
  faults := { silentCloseAfterBytes := some 40 }

def unendedInput : Bytes := Text.utf8 "ARTICLE <a@b>\r\nDATE"

/-- The last line of the client is answered when its stream ends. -/
theorem silent_close_truncates_article :
    output stallingMock { authenticated := false } unendedInput =
        (output stallingMock.unlimited { authenticated := false } unendedInput).take 40 ∧
      outputToEnd stallingMock { authenticated := false } unendedInput =
        (outputToEnd stallingMock.unlimited { authenticated := false } unendedInput).take 40 :=
  silent_close_truncates stallingMock _ 40 rfl rfl _

end MockSession

end NzbNntp
