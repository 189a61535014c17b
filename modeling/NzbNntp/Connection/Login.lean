import NzbNntp.Connection.Transcript

/-!
The login of `connect`. A run of it can be left at every wait, so what holds at each
of its endings holds at each moment: what has been written and heard by then, and that
`Ready` comes after the server has accepted.
-/

namespace NzbNntp

open Interruptible

/-! ### The course of a login -/

/-- The codes of a greeting, and of a reply that asks for the password. -/
def greetings : List Nat := [200, 201]
def challenges : List Nat := [381, 480]

inductive Authenticated (config : ServerConfig) : List Entry → Prop
  | anonymous {greeting : NntpResponse} : config.username = none → greeting.code ∈ greetings →
      Authenticated config [.heard greeting]
  | user {username : String} {greeting reply : NntpResponse} : config.username = some username →
      greeting.code ∈ greetings → reply.code = 281 →
      Authenticated config [.heard greeting, .wrote (userCommand username), .heard reply]
  | password {username password : String} {greeting challenge reply : NntpResponse} :
      config.username = some username → config.password = some password →
      greeting.code ∈ greetings → challenge.code ∈ challenges → reply.code = 281 →
      Authenticated config
        [.heard greeting, .wrote (userCommand username), .heard challenge,
          .wrote (passCommand password), .heard reply]

/-- The transcript of `connect` at some moment, and the state then. What the
negotiation hears is not in it. -/
inductive Login (config : ServerConfig) : ConnectionState → List Entry → Prop
  | silent {s : ConnectionState} {replies : List NntpResponse} : s ≠ .ready →
      Login config s (replies.map .heard)
  | user {s : ConnectionState} {username : String} {greeting : NntpResponse}
      {replies : List NntpResponse} : s ≠ .ready → config.username = some username →
      greeting.code ∈ greetings →
      Login config s ([.heard greeting, .wrote (userCommand username)] ++ replies.map .heard)
  | password {s : ConnectionState} {username password : String}
      {greeting challenge : NntpResponse} {replies : List NntpResponse} : s ≠ .ready →
      config.username = some username → config.password = some password →
      greeting.code ∈ greetings → challenge.code ∈ challenges →
      Login config s
        ([.heard greeting, .wrote (userCommand username), .heard challenge,
          .wrote (passCommand password)] ++ replies.map .heard)
  | negotiation {s : ConnectionState} {log : List Entry} {cmds : List String} :
      Authenticated config log → cmds ⊆ negotiationCommands →
      Login config s (log ++ cmds.map .wrote)

theorem userCommand_ne_passCommand (username password : String) :
    userCommand username ≠ passCommand password := by
  intro h
  have hverb := congrArg (fun cmd => cmd.toList.take 10) h
  simp [userCommand, passCommand] at hverb

theorem passCommand_not_mem_negotiationCommands (password : String) :
    passCommand password ∉ negotiationCommands := by
  intro h
  have hverb := List.mem_map_of_mem (f := fun cmd => cmd.toList.head?) h
  simp [passCommand, negotiationCommands] at hverb

section Course

variable {config : ServerConfig} {s : ConnectionState} {log : List Entry}

theorem Login.leave (h : Login config s log) {s' : ConnectionState} (hs : s' ≠ .ready) :
    Login config s' log := by
  cases h with
  | silent _ => exact .silent hs
  | user _ husername hgreeting => exact .user hs husername hgreeting
  | password _ husername hpassword hgreeting hchallenge =>
      exact .password hs husername hpassword hgreeting hchallenge
  | negotiation hauth hcmds => exact .negotiation hauth hcmds

theorem Authenticated.greeting (h : Authenticated config log) :
    ∃ greeting later, log = .heard greeting :: later ∧ greeting.code ∈ greetings := by
  cases h with
  | anonymous _ hgreeting => exact ⟨_, _, rfl, hgreeting⟩
  | user _ hgreeting _ => exact ⟨_, _, rfl, hgreeting⟩
  | password _ _ hgreeting _ _ => exact ⟨_, _, rfl, hgreeting⟩

theorem Login.greeting (h : Login config s log) :
    (∃ replies : List NntpResponse, log = replies.map .heard) ∨
      ∃ greeting later, log = .heard greeting :: later ∧ greeting.code ∈ greetings := by
  cases h with
  | silent _ => exact .inl ⟨_, rfl⟩
  | user _ _ hgreeting => exact .inr ⟨_, _, rfl, hgreeting⟩
  | password _ _ _ hgreeting _ => exact .inr ⟨_, _, rfl, hgreeting⟩
  | negotiation hauth _ =>
      obtain ⟨greeting, later, rfl, hgreeting⟩ := hauth.greeting
      exact .inr ⟨greeting, _, rfl, hgreeting⟩

/-- No command before the greeting. -/
theorem Login.greeted (h : Login config s log) {before after : List Entry} {cmd : String}
    (hlog : log = before ++ .wrote cmd :: after) :
    ∃ greeting later, before = .heard greeting :: later ∧ greeting.code ∈ greetings := by
  rcases h.greeting with ⟨replies, hreplies⟩ | ⟨greeting, later, hlater, hgreeting⟩
  · have hmem : Entry.wrote cmd ∈ replies.map Entry.heard := by
      rw [← hreplies, hlog]
      simp
    simp at hmem
  · rw [hlog] at hlater
    cases before with
    | nil => cases hlater
    | cons first before =>
        obtain rfl : first = .heard greeting := (List.cons.inj hlater).1
        exact ⟨greeting, before, rfl, hgreeting⟩

/-- The commands of the login go out in order, and once each. -/
theorem Login.commands (h : Login config s log) :
    ∃ login cmds, commandsOf log = login ++ cmds ∧ login <+: loginCommands config ∧
      cmds ⊆ negotiationCommands := by
  have hloginCommands : ∀ {username}, config.username = some username →
      loginCommands config = userCommand username :: passwordCommands config := by
    intro username husername
    rw [loginCommands, husername]
  have hpasswordCommands : ∀ {password}, config.password = some password →
      passwordCommands config = [passCommand password] := by
    intro password hpassword
    rw [passwordCommands, hpassword]
    rfl
  cases h with
  | silent _ => exact ⟨[], [], by simp, List.nil_prefix, List.nil_subset _⟩
  | @user username _ _ _ husername _ =>
      refine ⟨[userCommand username], [], ?_, ?_, List.nil_subset _⟩
      · rw [commandsOf_append, commandsOf_heard]
        rfl
      · rw [hloginCommands husername]
        exact ⟨_, rfl⟩
  | @password username password _ _ _ _ husername hpassword _ _ =>
      refine ⟨[userCommand username, passCommand password], [], ?_, ?_, List.nil_subset _⟩
      · rw [commandsOf_append, commandsOf_heard]
        rfl
      · rw [hloginCommands husername, hpasswordCommands hpassword]
  | @negotiation log cmds hauth hcmds =>
      refine ⟨commandsOf log, cmds, ?_, ?_, hcmds⟩
      · rw [commandsOf_append, commandsOf_wrote]
      · cases hauth with
        | anonymous _ _ => exact List.nil_prefix
        | user husername _ _ =>
            rw [hloginCommands husername]
            exact ⟨_, rfl⟩
        | password husername hpassword _ _ _ =>
            rw [hloginCommands husername, hpasswordCommands hpassword]
            exact List.prefix_refl _

/-- The password goes out where the reply to `AUTHINFO USER` has asked for it. -/
theorem Login.challenged (h : Login config s log) {username password : String}
    (husername : config.username = some username) (hpassword : config.password = some password)
    {before after : List Entry} (hlog : log = before ++ .wrote (passCommand password) :: after) :
    ∃ greeting challenge, before =
        [.heard greeting, .wrote (userCommand username), .heard challenge] ∧
      challenge.code ∈ challenges := by
  have hmem : Entry.wrote (passCommand password) ∈ log := by simp [hlog]
  have huser := fun username => (userCommand_ne_passCommand username password).symm
  have hother : ∀ cmds, cmds ⊆ negotiationCommands → passCommand password ∉ cmds :=
    fun cmds hcmds hin => passCommand_not_mem_negotiationCommands password (hcmds hin)
  have hsplit : ∀ {greeting challenge : NntpResponse} {later : List Entry},
      challenge.code ∈ challenges → .wrote (passCommand password) ∉ later →
      log = [.heard greeting, .wrote (userCommand username), .heard challenge] ++
        .wrote (passCommand password) :: later →
      ∃ greeting challenge, before =
          [.heard greeting, .wrote (userCommand username), .heard challenge] ∧
        challenge.code ∈ challenges := by
    intro greeting challenge later hchallenge hlater hlog'
    rw [hlog'] at hlog
    obtain ⟨hbefore, -, -⟩ :=
      (List.append_cons_inj_of_notMem (by simp [huser]) hlater).mp hlog
    exact ⟨greeting, challenge, hbefore.symm, hchallenge⟩
  cases h with
  | silent _ => simp at hmem
  | user _ _ _ => simp [huser] at hmem
  | password _ husername' hpassword' _ hchallenge =>
      obtain rfl := Option.some.inj (husername.symm.trans husername')
      obtain rfl := Option.some.inj (hpassword.symm.trans hpassword')
      exact hsplit hchallenge (by simp) rfl
  | @negotiation _ cmds hauth hcmds =>
      cases hauth with
      | anonymous hnone _ =>
          rw [hnone] at husername
          cases husername
      | user _ _ _ => simp [huser, hother cmds hcmds] at hmem
      | password husername' hpassword' _ hchallenge _ =>
          obtain rfl := Option.some.inj (husername.symm.trans husername')
          obtain rfl := Option.some.inj (hpassword.symm.trans hpassword')
          exact hsplit hchallenge (by simp [hother cmds hcmds]) rfl

theorem Login.ready (h : Login config .ready log) :
    ∃ first later, log = first ++ later ∧ Authenticated config first := by
  cases h with
  | silent hs => exact absurd rfl hs
  | user hs _ _ => exact absurd rfl hs
  | password hs _ _ _ _ => exact absurd rfl hs
  | negotiation hauth _ => exact ⟨_, _, rfl, hauth⟩

end Course

/-! ### Dialling -/

variable {π : Type} {config : ServerConfig} {dial : Dial π}

def Dialling (w : World π) : Prop := w.conn.state ≠ .ready ∧ w.conn.transport = none

/-- A session begins here: over TLS if that is configured, and then the handshake has
succeeded. -/
def Opened (config : ServerConfig) (dial : Dial π) (w : World π) : Prop :=
  (config.ssl = true → dial.handshake = .ok ()) ∧
    w.conn.transport = some { tls := config.ssl, peer := dial.peer, unread := dial.greeting }

theorem Dialling.setState {w : World π} (h : Dialling w) {s : ConnectionState} (hs : s ≠ .ready) :
    Dialling (w.setState s) := ⟨hs, h.2⟩

theorem Dialling.setError (w : World π) (h : Dialling w) : Dialling (w.setState .error) :=
  h.setState (by decide)

/-- A handshake that returns has succeeded. -/
theorem handshake_of_tlsHandshake {w : World π} :
    wp (tlsHandshake config dial) (returns fun _ => dial.handshake = .ok ()) w := by
  refine returns_seq (P := fun _ => True) (wp_trivial _ w) fun _ w₁ _ => ?_
  cases dial.serverName with
  | error e => trivial
  | ok _ =>
      refine returns_seq (P := fun _ => True) (wp_trivial _ w₁) fun _ w₂ _ => ?_
      cases dial.handshake with
      | error e => trivial
      | ok _ => exact rfl

theorem wp_tlsHandshake {w : World π} (h : Dialling w) :
    wp (tlsHandshake config dial)
      ⟨fun _ w' => Dialling w' ∧ dial.handshake = .ok (), fun _ => Dialling, Dialling⟩ w :=
  wp_mono (wp_and (preserves_tlsHandshake (fun _ h => h) Dialling.setError w h)
    handshake_of_tlsHandshake) (fun _ _ h => h) (fun _ _ h => h.1) (fun _ h => h.1)

theorem wp_openTransport {w : World π} (h : Dialling w) :
    wp (openTransport config dial)
      ⟨fun _ w' => w'.conn.state ≠ .ready ∧ Opened config dial w', fun _ => Dialling, Dialling⟩
      w := by
  rw [openTransport]
  split
  · exact wp_seq (wp_tlsHandshake h) (fun _ w₁ h₁ => ⟨h₁.1.1, fun _ => h₁.2, rfl⟩)
      (fun _ _ h => h) (fun _ h => h)
  · rename_i hplain
    exact ⟨h.1, fun hssl => absurd hssl hplain, rfl⟩

/-! ### The session -/

section Session

variable [Peer π] {w₀ w : World π}

def Talks (config : ServerConfig) (w₀ w : World π) : Prop :=
  ∃ s log, Login config s log ∧ Recorded w₀ log s w

def Negotiates (config : ServerConfig) (w₀ w : World π) : Prop :=
  ∃ log cmds, Authenticated config log ∧ cmds ⊆ negotiationCommands ∧
    Recorded w₀ (log ++ cmds.map .wrote) .ready w

theorem Negotiates.talks (h : Negotiates config w₀ w) : Talks config w₀ w := by
  obtain ⟨log, cmds, hauth, hcmds, hrecorded⟩ := h
  exact ⟨_, _, .negotiation hauth hcmds, hrecorded⟩

theorem negotiates_of_authenticated {log : List Entry} (hauth : Authenticated config log)
    (h : Recorded w₀ log .ready w) : Negotiates config w₀ w := by
  refine ⟨log, [], hauth, List.nil_subset _, ?_⟩
  rwa [List.map_nil, List.append_nil]

/-- What leaves every transcript alone leaves the negotiation alone. -/
theorem Negotiates.imp {w' : World π} (h : Negotiates config w₀ w)
    (hlog : ∀ log, Recorded w₀ log .ready w → Recorded w₀ log .ready w') :
    Negotiates config w₀ w' := by
  obtain ⟨log, cmds, hauth, hcmds, hrecorded⟩ := h
  exact ⟨log, cmds, hauth, hcmds, hlog _ hrecorded⟩

instance : ReadStable (Negotiates config w₀) where
  readUntilLf w t ht h := h.imp fun _ => ReadStable.readUntilLf w t ht
  flush w t ht h := h.imp fun _ => ReadStable.flush w t ht
  lineScratch w line h := h.imp fun _ => ReadStable.lineScratch w line
  bodyPool w pool h := h.imp fun _ => ReadStable.bodyPool w pool
  capabilities w caps hcaps h := h.imp fun _ => ReadStable.capabilities w caps hcaps

theorem admits_negotiates {cmd : String} (hcmd : cmd ∈ negotiationCommands) :
    Admits (Negotiates config w₀) (commandLine cmd) := by
  rintro w t ht ⟨log, cmds, hauth, hcmds, hrecorded⟩
  refine ⟨log, cmds ++ [cmd], hauth, List.append_subset.mpr ⟨hcmds, by simpa using hcmd⟩, ?_⟩
  rw [List.map_append, ← List.append_assoc]
  exact ⟨hrecorded.transcript.wrote cmd ht, hrecorded.state, rfl⟩

theorem preserves_negotiate_negotiates :
    Preserves (Negotiates config w₀) (negotiate config : Nntp π Unit) :=
  preserves_negotiate config (fun _ => admits_negotiates) fun _ h =>
    h.imp fun _ h => ⟨h.transcript.aside rfl rfl, h.state, h.connected⟩

/-- The postcondition of a part of the login: what ends without a return is a login
that has come this far. -/
def loggingIn {α : Type} (config : ServerConfig) (w₀ : World π) (Q : α → World π → Prop) :
    Post NntpError (World π) α :=
  ⟨Q, fun _ => Talks config w₀, Talks config w₀⟩

/-- A reply that does not let the login go on. -/
theorem wp_failIn_error {s : ConnectionState} {log : List Entry} {e : NntpError} {α : Type}
    {Q : α → World π → Prop} (hlogin : Login config .error log) (h : Recorded w₀ log s w) :
    wp (failIn .error e) (loggingIn config w₀ Q) w :=
  ⟨_, _, hlogin, h.setState .error⟩

theorem wp_readWelcome {s : ConnectionState} (hs : s ≠ .ready) (h : Recorded w₀ [] s w) :
    wp readWelcome
      (loggingIn config w₀ fun _ w' => ∃ greeting : NntpResponse, greeting.code ∈ greetings ∧
        Recorded w₀ [.heard greeting] s w') w := by
  have hsilent : ∀ w' : World π, Recorded w₀ [] s w' → Talks config w₀ w' :=
    fun w' h' => ⟨s, [], @Login.silent config s [] hs, h'⟩
  refine wp_seq (wp_readResponseLine_recorded h) (fun welcome w₁ h₁ => ?_) (fun _ => hsilent)
    hsilent
  split
  case h_1 hcode => exact ⟨welcome, by simp [greetings, hcode], h₁⟩
  case h_2 hcode => exact ⟨welcome, by simp [greetings, hcode], h₁⟩
  all_goals exact wp_failIn_error (@Login.silent config _ [welcome] (by decide)) h₁

/-- One turn of the login: a command, and the reply to it. -/
theorem wp_loginTurn {cmd : String} {log : List Entry} {k : NntpResponse → Nntp π Unit}
    {Q : Unit → World π → Prop}
    (hlogin : ∀ s (replies : List NntpResponse), s ≠ .ready →
      Login config s (log ++ [.wrote cmd] ++ replies.map .heard))
    (hk : ∀ reply w', Recorded w₀ (log ++ [.wrote cmd] ++ [.heard reply]) .authenticating w' →
      wp (k reply) (loggingIn config w₀ Q) w')
    (h : Recorded w₀ log .authenticating w) :
    wp (do
      sendCommand cmd
      let reply ← readResponseLine
      k reply) (loggingIn config w₀ Q) w := by
  have hwaiting : ∀ w' : World π, Recorded w₀ (log ++ [.wrote cmd]) .authenticating w' →
      Talks config w₀ w' := by
    intro w' h'
    refine ⟨_, _, hlogin .authenticating [] (by decide), ?_⟩
    rwa [List.map_nil, List.append_nil]
  refine wp_seq (wp_sendCommand_recorded h) (fun _ w₁ h₁ => ?_) (fun _ => hwaiting) hwaiting
  exact wp_seq (wp_readResponseLine_recorded h₁) (fun reply w₂ h₂ => hk reply w₂ h₂)
    (fun _ => hwaiting) hwaiting

theorem wp_sendPassword {username : String} {greeting challenge : NntpResponse}
    (husername : config.username = some username) (hgreeting : greeting.code ∈ greetings)
    (hchallenge : challenge.code ∈ challenges)
    (h : Recorded w₀ [.heard greeting, .wrote (userCommand username), .heard challenge]
      .authenticating w) :
    wp (sendPassword config) (loggingIn config w₀ fun _ => Negotiates config w₀) w := by
  rw [sendPassword]
  cases hpassword : config.password with
  | none =>
      have hlogin : Login config .authenticating ([.heard greeting,
          .wrote (userCommand username)] ++ [challenge].map .heard) :=
        .user (by decide) husername hgreeting
      exact ⟨_, _, hlogin, h⟩
  | some password =>
      have hlogin : ∀ s (replies : List NntpResponse), s ≠ .ready → Login config s
          ([.heard greeting, .wrote (userCommand username), .heard challenge] ++
            [.wrote (passCommand password)] ++ replies.map .heard) :=
        fun s replies hs => .password hs husername hpassword hgreeting hchallenge
      refine wp_loginTurn hlogin (fun reply w' h' => ?_) h
      split
      case h_1 hcode =>
        exact negotiates_of_authenticated
          (.password husername hpassword hgreeting hchallenge hcode) (h'.setState .ready)
      all_goals exact wp_failIn_error (hlogin .error [reply] (by decide)) h'

theorem wp_authenticate {s : ConnectionState} {greeting : NntpResponse}
    (hgreeting : greeting.code ∈ greetings) (h : Recorded w₀ [.heard greeting] s w) :
    wp (authenticate config) (loggingIn config w₀ fun _ => Negotiates config w₀) w := by
  rw [authenticate]
  apply (wp_bind _ _ w).mpr
  have h₀ := h.setState .authenticating
  cases husername : config.username with
  | none => exact ⟨_, _, @Login.silent config _ [greeting] (by decide), h₀⟩
  | some username =>
      have hlogin : ∀ s (replies : List NntpResponse), s ≠ .ready → Login config s
          ([.heard greeting] ++ [.wrote (userCommand username)] ++ replies.map .heard) :=
        fun s replies hs => .user hs husername hgreeting
      refine wp_loginTurn hlogin (fun reply w' h' => ?_) h₀
      split
      case h_1 hcode =>
        exact negotiates_of_authenticated (.user husername hgreeting hcode) (h'.setState .ready)
      case h_2 hcode =>
        exact wp_sendPassword husername hgreeting (by simp [challenges, hcode]) h'
      case h_3 hcode =>
        exact wp_sendPassword husername hgreeting (by simp [challenges, hcode]) h'
      all_goals exact wp_failIn_error (hlogin .error [reply] (by decide)) h'

/-- The login has come this far, or the server has not been reached. -/
def LoginStands (config : ServerConfig) (dial : Dial π) (w : World π) : Prop :=
  Dialling w ∨ ∃ w₀ w₁ log, Opened config dial w₀ ∧ Transcript w₀ log w₁ ∧
    w.conn.transport = w₁.conn.transport ∧ Login config w.conn.state log

theorem LoginStands.of_talks (hopened : Opened config dial w₀) (h : Talks config w₀ w) :
    LoginStands config dial w := by
  obtain ⟨s, log, hlogin, hrecorded⟩ := h
  obtain rfl := hrecorded.state
  exact .inr ⟨w₀, w, log, hopened, hrecorded.transcript, rfl, hlogin⟩

/-- The time limit of `connect` does not make the connection `Ready`. -/
theorem LoginStands.elapsed (h : LoginStands config dial w) :
    LoginStands config dial (w.tick.setState .error) := by
  rcases h with h | ⟨w₀, w₁, log, hopened, htranscript, htransport, hlogin⟩
  · exact .inl ⟨nofun, h.2⟩
  · exact .inr ⟨w₀, w₁, log, hopened, htranscript, htransport, hlogin.leave nofun⟩

theorem wp_establish (h : w.conn.transport = none) :
    wp (establish config dial)
      ⟨fun _ w' => ∃ w₀, Opened config dial w₀ ∧ Negotiates config w₀ w',
        fun _ => LoginStands config dial, LoginStands config dial⟩ w := by
  have hdial : Dialling (w.setState .connecting) := ⟨nofun, h⟩
  rw [establish]
  apply (wp_bind _ _ w).mpr
  refine wp_seq (preserves_openStream (fun _ h => h) Dialling.setError _ hdial) (fun _ w₁ h₁ => ?_)
    (fun _ _ h => .inl h)
    (fun _ h => .inl h)
  refine wp_seq (wp_openTransport h₁) ?_ (fun _ _ h => .inl h) (fun _ h => .inl h)
  rintro _ w₂ ⟨hs, hopened⟩
  have hstands := fun w' => LoginStands.of_talks (w := w') hopened
  have hbegin : Recorded w₂ [] w₂.conn.state w₂ := ⟨.opened, rfl, by rw [hopened.2]; rfl⟩
  refine wp_seq (wp_readWelcome hs hbegin) ?_ (fun _ => hstands) hstands
  rintro _ w₃ ⟨greeting, hgreeting, h₃⟩
  split
  · exact wp_mono (wp_authenticate hgreeting h₃) (fun _ _ h' => ⟨w₂, hopened, h'⟩)
      (fun _ => hstands) hstands
  · rename_i hnone
    exact ⟨w₂, hopened, negotiates_of_authenticated
      (.anonymous (by simpa using hnone) hgreeting) (h₃.setState .ready)⟩

theorem wp_connectInner (h : w.conn.transport = none) :
    wp (connectInner config dial)
      ⟨fun _ w' => w'.conn.state = .ready ∧ LoginStands config dial w',
        fun _ => LoginStands config dial, LoginStands config dial⟩ w := by
  refine wp_seq (wp_establish h) ?_ (fun _ _ h => h) (fun _ h => h)
  rintro _ w₁ ⟨w₀, hopened, h₁⟩
  have hstands : ∀ w' : World π, Negotiates config w₀ w' → LoginStands config dial w' :=
    fun _ h' => .of_talks hopened h'.talks
  refine wp_mono (preserves_negotiate_negotiates w₁ h₁) (fun _ w₂ h₂ => ?_) (fun _ => hstands)
    hstands
  obtain ⟨_, _, _, _, hrecorded⟩ := id h₂
  exact ⟨hrecorded.state, hstands w₂ h₂⟩

/-! ### Safety -/

/-- What a transcript of `connect` keeps to, with the connection in state `s`. -/
structure SafeLogin (config : ServerConfig) (log : List Entry) (s : ConnectionState) : Prop where
  /-- no command is written before a greeting is heard -/
  greeted : ∀ before cmd after, log = before ++ .wrote cmd :: after →
    ∃ greeting later, before = .heard greeting :: later ∧ greeting.code ∈ greetings
  /-- the commands of the login are written first, in order and once each -/
  commands : ∃ login cmds, commandsOf log = login ++ cmds ∧ login <+: loginCommands config ∧
    cmds ⊆ negotiationCommands
  /-- the password is written where the reply to `AUTHINFO USER` has asked for it -/
  challenged : ∀ username password before after, config.username = some username →
    config.password = some password → log = before ++ .wrote (passCommand password) :: after →
    ∃ greeting challenge, before =
        [.heard greeting, .wrote (userCommand username), .heard challenge] ∧
      challenge.code ∈ challenges
  /-- `Ready` comes after the server has accepted the login -/
  accepted : s = .ready → ∃ first later, log = first ++ later ∧ Authenticated config first

/-- There is no transport and the state is not `Ready`, or the session has a safe
transcript, and its wire holds the commands of the transcript and nothing else. -/
def LoginSafe (config : ServerConfig) (dial : Dial π) (w : World π) : Prop :=
  Dialling w ∨ ∃ w₀ w₁ t log, Opened config dial w₀ ∧ Transcript w₀ log w₁ ∧
    w₁.conn.transport = some t ∧ w.conn.transport = some t ∧ t.tls = config.ssl ∧
    PartsOf (commandsOf log) t.wire ∧ SafeLogin config log w.conn.state

theorem Login.safe {log : List Entry} {s : ConnectionState} (h : Login config s log) :
    SafeLogin config log s where
  greeted _ _ _ := h.greeted
  commands := h.commands
  challenged _ _ _ _ husername hpassword := h.challenged husername hpassword
  accepted := by
    rintro rfl
    exact h.ready

theorem LoginStands.safe (h : LoginStands config dial w) : LoginSafe config dial w := by
  rcases h with h | ⟨w₀, w₁, log, hopened, htranscript, htransport, hlogin⟩
  · exact .inl h
  · obtain ⟨t, ht, htls, bytes, hwire, hparts⟩ := htranscript.carries hopened.2
    refine .inr ⟨w₀, w₁, t, log, hopened, htranscript, ht, htransport.trans ht, htls, ?_, hlogin.safe⟩
    rw [hwire]
    exact hparts

/-- **The login is safe.** At every moment of a `connect` from a fresh connection,
whatever the server does and whichever waits fail, end or are given up: nothing is
written before a greeting, and only over TLS if that is configured; `AUTHINFO USER`
and `AUTHINFO PASS` are written once at most, the second where the reply to the first
has asked for it; and with a username configured the connection is `Ready` only after
an acceptance. -/
theorem connect_login_safe (config : ServerConfig) (dial : Dial π) (serverId : String)
    (events : List IoEvent) :
    wp (connect config dial)
      ⟨fun _ w => w.conn.state = .ready ∧ LoginSafe config dial w, fun _ => LoginSafe config dial,
        LoginSafe config dial⟩ { conn := .new serverId, events } :=
  wp_mono (wp_connect (wp_connectInner rfl) fun _ _ => LoginStands.elapsed)
    (fun _ _ h => ⟨h.1, h.2.safe⟩) (fun _ _ h => h.safe) (fun _ h => h.safe)

end Session

end NzbNntp
