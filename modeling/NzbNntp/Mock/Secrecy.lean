import NzbNntp.Mock.Faults
import NzbNntp.Mock.Hearing

/-!
A client that has not logged in. A server that requires a login tells it nothing of its stock,
whatever bytes it sends; and it is a line with the password that ends this, and nothing else.
-/

namespace NzbNntp

open Transducer

/-! ### Servers without a stock -/

def MockConfig.emptied (config : MockConfig) : MockConfig :=
  { config with
    groups := []
    articles := []
    heads := []
    xoverEntries := []
    xoverEntriesByRange := []
    xoverRawEntries := []
    xover423OutsideGroup := false
    xhdrEntries := []
    xpatEntries := []
    xpatEntriesByRequest := []
    xpatUnsupported := false
    listActiveEntries := []
    overviewFormatEntries := []
    postNotPermitted := false
    articleResponseOverrides := [] }

/-- The same state without what other sessions have left or prepared. -/
def MockState.emptied (state : MockState) : MockState :=
  { state with selectedGroup := none, postedArticles := none, articleResponseSequences := none }

def MockAnswer.emptied (answer : MockAnswer) : MockAnswer :=
  { answer with state := answer.state.emptied }

namespace MockSession

def emptied (session : MockSession) : MockSession :=
  { session with config := session.config.emptied, state := session.state.emptied }

/-- The same operation on the server without a stock, as far as the client can tell. -/
def Blind (r r' : MockSession × Bytes) : Prop := r' = (r.1.emptied, r.2)

section Blindness

variable {session : MockSession}

theorem write_emptied (session : MockSession) (data : Bytes) :
    session.emptied.write data = ((session.write data).1.emptied, (session.write data).2) := by
  have hfaults : session.emptied.config.faults = session.config.faults := rfl
  have hhung : session.emptied.hung = session.hung := rfl
  have hbytes : session.emptied.bytesWritten = session.bytesWritten := rfl
  rw [write, write, hfaults, hhung, hbytes]
  split
  · rfl
  · dsimp only
    split
    · rfl
    · split
      · rfl
      · split <;> rfl

theorem writeAll_emptied (session : MockSession) (writes : List Bytes) :
    session.emptied.writeAll writes =
      ((session.writeAll writes).1.emptied, (session.writeAll writes).2) := by
  induction writes generalizing session with
  | nil => rfl
  | cons data rest ih =>
      rw [writeAll, writeAll, write_emptied]
      rcases session.write data with ⟨next, sent, goesOn⟩
      cases goesOn with
      | false => rfl
      | true =>
          dsimp only
          rw [ih]

/-- An answer that makes the same of a state without a stock is the same for the client. -/
theorem respond_emptied (session : MockSession) (answer : MockAnswer) :
    Blind (session.respond answer) (session.emptied.respond answer.emptied) := by
  have hwrites := writeAll_emptied { session with state := answer.state } answer.writes
  rcases hrun : { session with state := answer.state }.writeAll answer.writes with
    ⟨next, sent, goesOn⟩
  rw [hrun] at hwrites
  cases goesOn with
  | false =>
      rw [respond_of_cut hrun, respond_of_cut hwrites]
      rfl
  | true =>
      have hemptied : session.emptied.respond answer.emptied = _ := respond_of_sent hwrites
      rw [respond_of_sent hrun, hemptied]
      change Blind _ (next.emptied.goOn answer.after, sent)
      cases answer.after <;> rfl

end Blindness

end MockSession

/-! ### Answers before the login -/

namespace MockConfig

section Answers

variable {config : MockConfig} {state : MockState}

theorem authorized_of_not (h : state.authenticated = false) (answer : MockAnswer) :
    authorized state answer = reply state "480 Authentication required\r\n" := by
  rw [authorized, h]
  rfl

theorem rateLimited_emptied :
    rateLimited state.emptied = ((rateLimited state).1, (rateLimited state).2.emptied) := by
  rw [rateLimited, rateLimited, show state.emptied.authRateLimit = state.authRateLimit from rfl]
  cases state.authRateLimit with
  | none => rfl
  | some limit => rfl

theorem onAuthinfo_emptied (parts : List String) :
    config.emptied.onAuthinfo state.emptied parts = (config.onAuthinfo state parts).emptied := by
  have hsub : config.emptied.subcommand parts = config.subcommand parts := rfl
  have hfail : config.emptied.failAuth = config.failAuth := rfl
  have hvalid : config.emptied.validCredentials = config.validCredentials := rfl
  rw [onAuthinfo, onAuthinfo, hsub, hfail, hvalid, rateLimited_emptied]
  dsimp only
  split
  · split <;> rfl
  split
  · split
    · rfl
    split
    · rfl
    split
    · split <;> rfl
    · rfl
  · rfl

theorem ite_emptied {c : Prop} [Decidable c] {a b a' b' : MockAnswer} (ha : a' = a.emptied)
    (hb : b' = b.emptied) : (if c then a' else b') = (if c then a else b).emptied := by
  split
  · exact ha
  · exact hb

/-- Before the login no answer depends on the stock. -/
theorem answer_emptied (h : state.authenticated = false) (cmd : String) (parts : List String) :
    config.emptied.answer state.emptied cmd parts = (config.answer state cmd parts).emptied := by
  have h' : state.emptied.authenticated = false := h
  have hguard : ∀ found found' : MockAnswer,
      authorized state.emptied found' = (authorized state found).emptied := by
    intro found found'
    rw [authorized_of_not h, authorized_of_not h']
    rfl
  rw [answer, answer]
  refine ite_emptied rfl ?_
  refine ite_emptied ?_ ?_
  · exact ite_emptied rfl rfl
  refine ite_emptied ?_ ?_
  · exact ite_emptied rfl rfl
  refine ite_emptied (onAuthinfo_emptied parts) ?_
  refine ite_emptied (hguard _ _) ?_
  refine ite_emptied (hguard _ _) ?_
  refine ite_emptied (hguard _ _) ?_
  refine ite_emptied (hguard _ _) ?_
  refine ite_emptied (hguard _ _) ?_
  refine ite_emptied (hguard _ _) ?_
  refine ite_emptied (hguard _ _) ?_
  refine ite_emptied (hguard _ _) ?_
  refine ite_emptied (hguard _ _) ?_
  exact ite_emptied (hguard _ _) rfl

theorem authenticated_ite {c : Prop} [Decidable c] {a b : MockAnswer} {value : Bool}
    (ha : a.state.authenticated = value) (hb : b.state.authenticated = value) :
    (if c then a else b).state.authenticated = value := by
  split
  · exact ha
  · exact hb

theorem authenticated_authorized {found : MockAnswer} (h : state.authenticated = true)
    (hfound : found.state.authenticated = true) :
    (authorized state found).state.authenticated = true :=
  authenticated_ite h hfound

theorem authenticated_articleAnswer (h : state.authenticated = true) (mid : String)
    {found : Bytes → MockAnswer} (hfound : ∀ data, (found data).state.authenticated = true) :
    (config.articleAnswer state mid found).state.authenticated = true := by
  rw [articleAnswer]
  split
  · exact h
  split
  · exact hfound _
  · exact h

theorem authenticated_onAuthinfo (h : state.authenticated = true) (parts : List String) :
    (config.onAuthinfo state parts).state.authenticated = true := by
  have hlimited : (rateLimited state).2.authenticated = true := by
    rw [rateLimited]
    split
    · exact h
    · exact h
  unfold onAuthinfo
  dsimp only
  split
  · exact authenticated_ite h h
  split
  · refine authenticated_ite hlimited (authenticated_ite hlimited ?_)
    split
    · exact authenticated_ite rfl hlimited
    · rfl
  · exact h

/-- No command takes a login back. -/
theorem authenticated_answer (h : state.authenticated = true) (cmd : String)
    (parts : List String) : (config.answer state cmd parts).state.authenticated = true := by
  have hguard : ∀ {found : MockAnswer}, found.state.authenticated = true →
      (authorized state found).state.authenticated = true := authenticated_authorized h
  rw [answer]
  refine authenticated_ite h ?_
  refine authenticated_ite (authenticated_ite h h) ?_
  refine authenticated_ite (authenticated_ite h h) ?_
  refine authenticated_ite (authenticated_onAuthinfo h parts) ?_
  refine authenticated_ite (hguard ?_) ?_
  · dsimp only
    split
    · exact h
    · exact h
  refine authenticated_ite (hguard ?_) ?_
  · split
    · exact h
    · exact authenticated_ite h (authenticated_ite h h)
  refine authenticated_ite (hguard (authenticated_ite h ?_)) ?_
  · dsimp only
    split
    · exact h
    · exact h
  refine authenticated_ite (hguard (authenticated_ite h h)) ?_
  refine authenticated_ite (hguard (authenticated_ite h (authenticated_ite h h))) ?_
  refine authenticated_ite (hguard (authenticated_ite h h)) ?_
  refine authenticated_ite (hguard ?_) ?_
  · dsimp only
    split
    · exact h
    · exact authenticated_articleAnswer h _ fun _ => h
  refine authenticated_ite (hguard (authenticated_articleAnswer h _ fun _ => h)) ?_
  refine authenticated_ite (hguard (authenticated_articleAnswer h _ fun _ => h)) ?_
  exact authenticated_ite (hguard (authenticated_ite h h)) h

/-- What a line must be for the session to be logged in by it: the password, of the right
kind, at a moment when the limit on attempts lets it through. -/
structure Admits (config : MockConfig) (state : MockState) (parts : List String) : Prop where
  verb : config.verb parts = "AUTHINFO"
  sub : config.subcommand parts = "PASS"
  unlimited : (rateLimited state).1 = false
  accepts : config.failAuth = false
  password : ∀ user password, config.validCredentials = some (user, password) →
    (parts[2]?).getD "" = password

theorem authenticated_rateLimited :
    (rateLimited state).2.authenticated = state.authenticated := by
  rw [rateLimited]
  split <;> rfl

/-- Any other command leaves the session as it is. -/
theorem not_authenticated_answer (h : state.authenticated = false) {cmd : String}
    (hcmd : cmd ≠ "AUTHINFO") (parts : List String) :
    (config.answer state cmd parts).state.authenticated = false := by
  have hguard : ∀ found : MockAnswer, (authorized state found).state.authenticated = false := by
    intro found
    rw [authorized_of_not h]
    exact h
  rw [answer]
  refine authenticated_ite h ?_
  refine authenticated_ite (authenticated_ite h h) ?_
  refine authenticated_ite (authenticated_ite h h) ?_
  rw [if_neg hcmd]
  refine authenticated_ite (hguard _) ?_
  refine authenticated_ite (hguard _) ?_
  refine authenticated_ite (hguard _) ?_
  refine authenticated_ite (hguard _) ?_
  refine authenticated_ite (hguard _) ?_
  refine authenticated_ite (hguard _) ?_
  refine authenticated_ite (hguard _) ?_
  refine authenticated_ite (hguard _) ?_
  refine authenticated_ite (hguard _) ?_
  exact authenticated_ite (hguard _) h

theorem admits_of_answer (h : state.authenticated = false) {parts : List String}
    (hauth : (config.answer state (config.verb parts) parts).state.authenticated = true) :
    config.Admits state parts := by
  have hlimited : (rateLimited state).2.authenticated = _ := authenticated_rateLimited
  rw [h] at hlimited
  by_cases hverb : config.verb parts = "AUTHINFO"
  · rw [answer, if_neg (by rw [hverb]; decide), if_neg (by rw [hverb]; decide),
      if_neg (by rw [hverb]; decide), if_pos hverb] at hauth
    unfold onAuthinfo at hauth
    dsimp only at hauth
    split at hauth
    · rw [authenticated_ite h h] at hauth
      cases hauth
    split at hauth
    · rename_i hsub
      split at hauth
      · cases hauth.symm.trans hlimited
      rename_i hunlimited
      split at hauth
      · cases hauth.symm.trans hlimited
      rename_i haccepts
      refine ⟨hverb, hsub, Bool.eq_false_iff.mpr hunlimited, Bool.eq_false_iff.mpr haccepts, ?_⟩
      intro user password hvalid
      rw [hvalid] at hauth
      dsimp only at hauth
      by_contra hwrong
      rw [if_neg hwrong] at hauth
      cases hauth.symm.trans hlimited
    · cases hauth.symm.trans h
  · rw [not_authenticated_answer h hverb] at hauth
    cases hauth

end Answers

end MockConfig

/-! ### Sessions before the login -/

namespace MockSession

section Sessions

variable {session : MockSession}

theorem write_fst (session : MockSession) (data : Bytes) :
    ∃ n, (session.write data).1 = { session with bytesWritten := n } := by
  unfold write
  split
  · exact ⟨_, rfl⟩
  · dsimp only
    split
    · exact ⟨_, rfl⟩
    · split
      · exact ⟨_, rfl⟩
      · split <;> exact ⟨_, rfl⟩

theorem writeAll_fst (session : MockSession) (writes : List Bytes) :
    ∃ n closed, (session.writeAll writes).1 = { session with bytesWritten := n, closed } := by
  induction writes generalizing session with
  | nil => exact ⟨_, _, rfl⟩
  | cons data rest ih =>
      obtain ⟨n, hnext⟩ := session.write_fst data
      rw [writeAll]
      rcases hwrite : session.write data with ⟨next, sent, goesOn⟩
      rw [hwrite] at hnext
      dsimp only at hnext
      subst hnext
      cases goesOn with
      | false => exact ⟨n, true, rfl⟩
      | true =>
          obtain ⟨m, closed, hrest⟩ := ih { session with bytesWritten := n }
          exact ⟨m, closed, hrest⟩

/-- What an answer leaves of a session: its state, and the line that is read are what they were. -/
theorem respond_fst (answer : MockAnswer) :
    (session.respond answer).1.state = answer.state ∧
      (session.respond answer).1.line = session.line := by
  obtain ⟨n, closed, hnext⟩ :=
    writeAll_fst { session with state := answer.state } answer.writes
  rcases hrun : { session with state := answer.state }.writeAll answer.writes with
    ⟨next, sent, goesOn⟩
  rw [hrun] at hnext
  dsimp only at hnext
  subst hnext
  cases goesOn with
  | false =>
      rw [respond_of_cut hrun]
      exact ⟨rfl, rfl⟩
  | true =>
      rw [respond_of_sent hrun]
      cases answer.after <;> exact ⟨rfl, rfl⟩

/-- A line that changes who the client is taken for is a command. -/
theorem authenticated_lineEnded (session : MockSession) (line : Bytes) :
    (session.lineEnded line).1.state.authenticated = session.state.authenticated ∨
      (session.posting = none ∧ ∃ text, Text.fromUtf8 line = some text ∧
        (session.lineEnded line).1.state =
          (session.config.answerTo session.state (Text.trim text)).state) := by
  rw [lineEnded]
  cases hposting : session.posting with
  | some article =>
      left
      dsimp only
      rw [articleLineRead]
      dsimp only
      split
      · rw [(respond_fst _).1]
        rfl
      · rfl
  | none =>
      dsimp only
      rw [lineRead]
      cases htext : Text.fromUtf8 line with
      | none => exact .inl rfl
      | some text =>
          dsimp only
          split
          · exact .inl rfl
          · refine .inr ⟨rfl, text, rfl, ?_⟩
            rw [command, (respond_fst _).1]
            rfl

/-- A byte that does so ends the line. -/
theorem authenticated_hear (session : MockSession) (b : UInt8) :
    (session.hear b).1.state.authenticated = session.state.authenticated ∨
      (b = lf ∧ session.closed = false ∧ session.posting = none ∧
        ∃ text, Text.fromUtf8 (session.line ++ [lf]) = some text ∧
          (session.hear b).1.state =
            (session.config.answerTo session.state (Text.trim text)).state) := by
  rw [hear]
  by_cases hclosed : session.closed = true
  · exact .inl (by rw [if_pos hclosed])
  rw [if_neg hclosed]
  by_cases hb : b ≠ lf
  · exact .inl (by rw [if_pos hb])
  rw [if_neg hb]
  obtain rfl : b = lf := not_not.mp hb
  rcases authenticated_lineEnded { session with line := [] } (session.line ++ [lf]) with
    hsame | ⟨hposting, hcommand⟩
  · exact .inl hsame
  · exact .inr ⟨rfl, Bool.eq_false_iff.mpr hclosed, hposting, hcommand⟩

/-- So does the end of the stream, where it cuts the line short. -/
theorem authenticated_finish (session : MockSession) :
    session.finish.1.state.authenticated = session.state.authenticated ∨
      (session.closed = false ∧ session.posting = none ∧
        ∃ text, Text.fromUtf8 session.line = some text ∧
          session.finish.1.state =
            (session.config.answerTo session.state (Text.trim text)).state) := by
  rw [finish]
  split
  · exact .inl rfl
  · rename_i hopen
    rw [Bool.or_eq_true, not_or] at hopen
    rcases authenticated_lineEnded { session with line := [] } session.line with
      hsame | ⟨hposting, hcommand⟩
    · exact .inl hsame
    · exact .inr ⟨Bool.eq_false_iff.mpr hopen.1, hposting, hcommand⟩

theorem command_emptied (h : session.state.authenticated = false) (trimmed : String) :
    Blind (session.command trimmed) (session.emptied.command trimmed) := by
  rw [command, command]
  rw [show session.emptied.config.verb = session.config.verb from rfl,
    show session.emptied.config = session.config.emptied from rfl,
    show session.emptied.state = session.state.emptied from rfl, MockConfig.answer_emptied h]
  exact respond_emptied (session.hangOn _) _

theorem lineEnded_emptied (session : MockSession) (h : session.state.authenticated = false)
    (line : Bytes) :
    Blind (session.lineEnded line) (session.emptied.lineEnded line) := by
  rw [lineEnded, lineEnded, show session.emptied.posting = session.posting from rfl]
  cases session.posting with
  | some article =>
      dsimp only
      rw [articleLineRead, articleLineRead]
      dsimp only
      split
      · exact respond_emptied { session with posting := none } _
      · rfl
  | none =>
      dsimp only
      rw [lineRead, lineRead]
      split
      · rfl
      dsimp only
      split
      · rfl
      · exact command_emptied h _

/-- Before the login a session does what it does without a stock. -/
theorem hear_emptied (h : session.state.authenticated = false) (b : UInt8) :
    Blind (session.hear b) (session.emptied.hear b) := by
  rw [hear, hear, show session.emptied.closed = session.closed from rfl]
  split
  · rfl
  split
  · rfl
  · exact lineEnded_emptied { session with line := [] } h _

/-- A line that has been read leaves nothing of itself. -/
theorem lineEnded_line (line : Bytes) : (session.lineEnded line).1.line = session.line := by
  rw [lineEnded]
  split
  · rw [articleLineRead]
    dsimp only
    split
    · rw [(respond_fst _).2]
    · rfl
  · rw [lineRead]
    split
    · rfl
    dsimp only
    split
    · rfl
    · rw [command, (respond_fst _).2]
      rfl

/-- What an open session has of its next line is what has come in since the last LF. -/
theorem line_of_open {input : Bytes} (hstart : session.line = [])
    (hopen : (run Peer.hear session input).1.closed = false) :
    ∃ front, input = front ++ (run Peer.hear session input).1.line ∧
      lf ∉ (run Peer.hear session input).1.line ∧ (front = [] ∨ front.getLast? = some lf) := by
  induction input using List.reverseRecOn with
  | nil => exact ⟨[], by simp [run, hstart], by simp [run, hstart], .inl rfl⟩
  | append_singleton input b ih =>
      rw [run_concat] at hopen ⊢
      generalize (run Peer.hear session input).1 = next at ih hopen ⊢
      change (next.hear b).1.closed = false at hopen
      change ∃ front, _ = front ++ (next.hear b).1.line ∧ lf ∉ (next.hear b).1.line ∧ _
      rw [hear] at hopen ⊢
      by_cases hclosed : next.closed = true
      · rw [if_pos hclosed] at hopen
        cases hclosed.symm.trans hopen
      rw [if_neg hclosed] at hopen ⊢
      obtain ⟨front, hinput, hfree, hfront⟩ := ih (Bool.eq_false_iff.mpr hclosed)
      by_cases hb : b ≠ lf
      · rw [if_pos hb]
        refine ⟨front, ?_, ?_, hfront⟩
        · rw [hinput, List.append_assoc]
        · simp [hfree, Ne.symm hb]
      · rw [if_neg hb, lineEnded_line]
        refine ⟨input ++ [b], (List.append_nil _).symm, List.not_mem_nil, .inr ?_⟩
        rw [List.getLast?_concat, not_not.mp hb]

end Sessions

/-! ### Whole inputs -/

def after (config : MockConfig) (state : MockState) (input : Bytes) : MockSession :=
  (Peer.hearAll (start config state).1 input).1

section Inputs

variable {config config' : MockConfig} {state state' : MockState} {session : MockSession}

theorem greet_emptied : Blind session.greet session.emptied.greet := by
  rw [greet, greet]
  dsimp only
  rw [write_emptied]
  rfl

theorem start_emptied : Blind (start config state) (start config.emptied state.emptied) := by
  rw [start, start, show config.emptied.serviceUnavailable = config.serviceUnavailable from rfl]
  split
  · rfl
  · exact greet_emptied

theorem start_session (config : MockConfig) (state : MockState) :
    (start config state).1.config = config ∧ (start config state).1.line = [] ∧
      (start config state).1.state.authenticated = !config.authRequired := by
  rw [start]
  split
  · exact ⟨rfl, rfl, rfl⟩
  · rw [greet]
    dsimp only
    obtain ⟨n, hn⟩ := write_fst { config, state := { state with
      authenticated := !config.authRequired } }
      (Text.utf8 s!"{config.welcomeCode.toNat} {config.welcomeMessage}\r\n")
    rw [hn]
    exact ⟨rfl, rfl, rfl⟩

/-- A login is not taken back. -/
theorem authenticated_hear_of (b : UInt8) (h : session.state.authenticated = true) :
    (session.hear b).1.state.authenticated = true := by
  rcases authenticated_hear session b with hsame | ⟨-, -, -, text, -, hstate⟩
  · exact hsame.trans h
  · rw [hstate, MockConfig.answerTo]
    exact MockConfig.authenticated_answer h _ _

structure Alike (s t : MockSession) : Prop where
  emptied : s.emptied = t.emptied
  out : s.state.authenticated = false

theorem Alike.symm {s t : MockSession} (h : Alike s t) : Alike t s :=
  ⟨h.emptied.symm, (congrArg (·.state.authenticated) h.emptied).symm.trans h.out⟩

/-- They say the same to a byte, and stay alike unless it lets the client in. -/
theorem Alike.hear {s t : MockSession} (h : Alike s t) (b : UInt8) :
    (s.hear b).1.state.authenticated = true ∨
      ((s.hear b).2 = (t.hear b).2 ∧ Alike (s.hear b).1 (t.hear b).1) := by
  have hboth : ((s.hear b).1.emptied, (s.hear b).2) = ((t.hear b).1.emptied, (t.hear b).2) := by
    rw [← show s.emptied.hear b = _ from hear_emptied h.out b,
      ← show t.emptied.hear b = _ from hear_emptied h.symm.out b, h.emptied]
  obtain ⟨hnext, hsaid⟩ := Prod.mk.inj hboth
  cases hauth : (s.hear b).1.state.authenticated with
  | true => exact .inl rfl
  | false => exact .inr ⟨hsaid, hnext, hauth⟩

/-- **Nothing is told before the login.** Servers that differ only in what they have for their
readers say the same to a client that does not get in, whatever bytes it sends. -/
theorem nothing_told_before_login (hconfig : config.emptied = config'.emptied)
    (hstate : state.emptied = state'.emptied) (input : Bytes)
    (hout : (after config state input).state.authenticated = false) :
    output config state input = output config' state' input := by
  have hstart : ((start config state).1.emptied, (start config state).2) =
      ((start config' state').1.emptied, (start config' state').2) := by
    rw [← show start config.emptied state.emptied = _ from start_emptied,
      ← show start config'.emptied state'.emptied = _ from start_emptied, hconfig, hstate]
  obtain ⟨hsession, hwelcome⟩ := Prod.mk.inj hstart
  rw [after, Peer.hearAll_eq_run] at hout
  have hkept : ∀ (s : MockSession) (b : UInt8), s.state.authenticated = true →
      (Peer.hear s b).1.state.authenticated = true := fun _ b => authenticated_hear_of b
  have hnot : ¬ (run Peer.hear (start config state).1 input).1.state.authenticated = true :=
    Bool.eq_false_iff.mp hout
  have hclosed : (start config state).1.state.authenticated = false :=
    Bool.eq_false_iff.mpr fun h => hnot (run_invariant hkept h input)
  have hrest := run_agree (R := Alike) hkept (fun _ _ b h => h.hear b) ⟨hsession, hclosed⟩ input hnot
  rw [output, output, Peer.hearAll_eq_run, Peer.hearAll_eq_run, hwelcome]
  exact congrArg _ hrest.1

/-- A client that asks first, and has the wrong password. -/
theorem nothing_told_before_login_of_article :
    output oneArticleMock { authenticated := false }
        (Text.utf8 "ARTICLE <a@b>\r\nAUTHINFO PASS guess\r\n") =
      output oneArticleMock.emptied { authenticated := false }
        (Text.utf8 "ARTICLE <a@b>\r\nAUTHINFO PASS guess\r\n") := by
  have hout : (after oneArticleMock { authenticated := false }
      (Text.utf8 "ARTICLE <a@b>\r\nAUTHINFO PASS guess\r\n")).state.authenticated = false := by
    decide +kernel
  exact nothing_told_before_login rfl rfl _ hout

/-- Behind `front` the client has sent `line` and then `ending`. The session takes this for a
command, and not for a line of an article; it is the password, and the limit on attempts lets
it through. -/
structure LetsIn (config : MockConfig) (state : MockState) (front line ending : Bytes) : Prop where
  starts : front = [] ∨ front.getLast? = some lf
  unbroken : lf ∉ line
  listens : (after config state (front ++ line)).posting = none
  admits : ∃ text, Text.fromUtf8 (line ++ ending) = some text ∧
    config.Admits (after config state (front ++ line)).state (Text.splitn 3 ' ' (Text.trim text))

/-- The line that an open session has before it is let in. -/
theorem letsIn_of_answer {input ending : Bytes} {text : String}
    (hout : (after config state input).state.authenticated = false)
    (hopen : (after config state input).closed = false)
    (hposting : (after config state input).posting = none)
    (htext : Text.fromUtf8 ((after config state input).line ++ ending) = some text)
    (hin : ((after config state input).config.answerTo (after config state input).state
      (Text.trim text)).state.authenticated = true) :
    ∃ front line, input = front ++ line ∧ LetsIn config state front line ending := by
  obtain ⟨hconfig, hline, -⟩ := start_session config state
  have hafter : after config state input = (run Peer.hear (start config state).1 input).1 := by
    rw [after, Peer.hearAll_eq_run]
  have hkept : (after config state input).config = config := by
    rw [hafter]
    refine run_invariant (P := fun s : MockSession => s.config = config) ?_ hconfig input
    exact fun s b h => (hear_counts s b).config.trans h
  obtain ⟨front, hsplit, hfree, hfront⟩ := line_of_open hline
    (hafter ▸ hopen : (run Peer.hear (start config state).1 input).1.closed = false)
  rw [← hafter] at hsplit hfree
  have hadmits : config.Admits (after config state input).state
      (Text.splitn 3 ' ' (Text.trim text)) := by
    rw [MockConfig.answerTo, hkept] at hin
    exact MockConfig.admits_of_answer hout hin
  generalize (after config state input).line = line at hsplit hfree htext
  subst hsplit
  exact ⟨front, line, rfl, hfront, hfree, hposting, text, htext, hadmits⟩

/-- **Only the password lets a client in.** Where a login is required, a session that has been
logged in by its input, or by what there was of a line when the client ended its stream, has
been so by one line with the password: a line of its own, not one of an article, and at a
moment when the limit on attempts had let it through. -/
theorem logged_in_by_password (hauth : config.authRequired = true) (input : Bytes)
    (hin : (after config state input).finish.1.state.authenticated = true) :
    (∃ front line rest, input = front ++ line ++ [lf] ++ rest ∧
      LetsIn config state front line [lf]) ∨
    ((after config state input).state.authenticated = false ∧
      ∃ front line, input = front ++ line ∧ LetsIn config state front line []) := by
  obtain ⟨-, -, hstart⟩ := start_session config state
  rw [hauth, Bool.not_true] at hstart
  cases hbefore : (after config state input).state.authenticated with
  | true =>
      left
      rw [after, Peer.hearAll_eq_run] at hbefore
      obtain ⟨before, b, rest, rfl, hout, hat⟩ := exists_step_of_run
        (P := fun s : MockSession => s.state.authenticated = true)
        (Bool.eq_false_iff.mp hstart) hbefore
      have hafter : after config state before = (run Peer.hear (start config state).1 before).1 := by
        rw [after, Peer.hearAll_eq_run]
      rw [← hafter] at hout hat
      have hadmitted : ((after config state before).hear b).1.state.authenticated = true := hat
      rcases authenticated_hear (after config state before) b with
        hsame | ⟨rfl, hopen, hposting, text, htext, hstate⟩
      · exact absurd (hsame.symm.trans hadmitted) hout
      · rw [hstate] at hadmitted
        obtain ⟨front, line, rfl, hletsIn⟩ := letsIn_of_answer
          (Bool.eq_false_iff.mpr hout) hopen hposting htext hadmitted
        exact ⟨front, line, rest, by simp, hletsIn⟩
  | false =>
      refine .inr ⟨rfl, ?_⟩
      rcases authenticated_finish (after config state input) with
        hsame | ⟨hopen, hposting, text, htext, hstate⟩
      · cases hsame.symm.trans hin |>.symm.trans hbefore
      · rw [hstate] at hin
        exact letsIn_of_answer hbefore hopen hposting (by rwa [List.append_nil]) hin

/-- The client ends its stream behind the password, without a line end. -/
theorem logged_in_by_password_of_reader :
    let input := Text.utf8 "STAT 1\r\nAUTHINFO PASS secret"
    (∃ front line rest, input = front ++ line ++ [lf] ++ rest ∧
      LetsIn oneArticleMock { authenticated := false } front line [lf]) ∨
    ((after oneArticleMock { authenticated := false } input).state.authenticated = false ∧
      ∃ front line, input = front ++ line ∧
        LetsIn oneArticleMock { authenticated := false } front line []) :=
  logged_in_by_password rfl _ (by decide +kernel)

end Inputs

end MockSession

end NzbNntp
