import NzbNntp.Connection.Login
import NzbNntp.Mock.Queries

/-!
A client that connects to the mock server: the banner, the login and the exchanges that
negotiate features. Of the credentials the server looks at the password alone.
-/

namespace NzbNntp

open Interruptible Delimited

/-! ### What a login comes to -/

namespace MockConfig

variable (mock : MockConfig)

def opening (state : MockState) : MockState := { state with authenticated := !mock.authRequired }

/-- What the client is told, and the state of the session then. -/
def login (config : ServerConfig) (state : MockState) : NntpResult Unit × MockState :=
  match config.username, config.password with
  | none, _ => (.ok (), state)
  | some _, password =>
      if mock.failAuth then
        (.error (.auth "USER rejected (482): Authentication rejected"), state)
      else
        match password with
        | none => (.error (.auth "Server requires password but none configured"), state)
        | some password =>
            let limited := rateLimited state
            if limited.1 then
              (.error (.auth "PASS rejected (481): Authentication rate-limited"), limited.2)
            else if mock.validCredentials.all (·.2 = password) then
              (.ok (), { limited.2 with authenticated := true })
            else (.error (.auth "PASS rejected (481): Authentication failed"), limited.2)

structure Welcomes : Prop where
  available : mock.serviceUnavailable = false
  code : mock.welcomeCode = 200 ∨ mock.welcomeCode = 201
  message : Message mock.welcomeMessage

end MockConfig

structure ServerConfig.Legible (config : ServerConfig) : Prop where
  username : ∀ username, config.username = some username → Phrase username
  password : ∀ password, config.password = some password → Phrase password

/-- Dialling gives the stream of a new session, which is not encrypted. -/
structure Dial.Reaches (dial : Dial MockSession) (config : ServerConfig) (mock : MockConfig)
    (state : MockState) : Prop where
  tcp : dial.tcp = .ok ()
  proxy : ∀ url, proxyUrl config = some url → ∃ proxy, parseSocks5Url url = .ok proxy
  plain : config.ssl = false
  session : (dial.peer, dial.greeting) = MockSession.start mock state

/-- A login ends with the result, and with the session in its state. -/
def logsIn (mock : MockConfig) (login : NntpResult Unit × MockState) :
    Post NntpError (World MockSession) Unit where
  ok _ w := login.1 = .ok () ∧ Facing mock login.2 none .ready [] w
  err e w := login.1 = .error e ∧ ∃ s, s ≠ .ready ∧ Facing mock login.2 none s [] w
  dropped _ := False

section Logins

variable {mock : MockConfig} {state : MockState} {config : ServerConfig} {dial : Dial MockSession}
  {w : World MockSession}

/-! ### Dialling -/

theorem serving_start (state : MockState) (hfaults : mock.faults.Absent)
    (hwelcomes : mock.Welcomes) :
    ∃ session, MockSession.start mock state =
        (session, statusBytes mock.welcomeCode.toNat mock.welcomeMessage) ∧
      Serving mock (mock.opening state) none session := by
  have hbytes : Text.utf8 s!"{mock.welcomeCode.toNat} {mock.welcomeMessage}\r\n" =
      statusBytes mock.welcomeCode.toNat mock.welcomeMessage := by
    have hdigits : toString mock.welcomeCode.toNat = threeDigits mock.welcomeCode.toNat := by
      rcases hwelcomes.code with hcode | hcode
      · rw [hcode]
        decide
      · rw [hcode]
        decide
    refine utf8_eq_statusBytes ?_
    rw [← hdigits]
    simp
  rw [MockSession.start, hwelcomes.available, if_neg Bool.false_ne_true, MockSession.greet]
  dsimp only
  rw [hbytes, MockSession.write, if_neg Bool.false_ne_true]
  dsimp only
  rw [hfaults.silentClose]
  exact ⟨_, rfl, rfl, rfl, rfl, rfl, rfl, rfl⟩

theorem wp_awaitDial_quiet (h : Quiet w) :
    wp awaitDial (gives () fun w' => w' = w.tick) w := by
  unfold wp
  rw [awaitDial, h.nextEvent]
  exact ⟨rfl, rfl⟩

theorem wp_openStream_quiet (hreaches : dial.Reaches config mock state) (h : Quiet w) :
    wp (openStream config dial) (gives () fun w' => w' = w.tick) w := by
  have htcp : ∀ message : String → String,
      wp (connectTcp dial message) (gives () fun w' => w' = w.tick) w := by
    intro message
    refine wp_gives_seq (wp_awaitDial_quiet h) ?_
    rintro _ rfl
    rw [hreaches.tcp]
    exact ⟨rfl, rfl⟩
  rw [openStream]
  split
  · rename_i url hurl
    obtain ⟨proxy, hproxy⟩ := hreaches.proxy url hurl
    rw [hproxy]
    exact htcp _
  · exact htcp _

theorem wp_openTransport_facing (hreaches : dial.Reaches config mock state)
    (hfaults : mock.faults.Absent) (hwelcomes : mock.Welcomes) (hquiet : Quiet w)
    (hplain : Compresses false w) :
    wp (openTransport config dial) (gives () (Facing mock (mock.opening state) none w.conn.state
      (statusBytes mock.welcomeCode.toNat mock.welcomeMessage))) w := by
  obtain ⟨session, hstart, hserving⟩ := serving_start state hfaults hwelcomes
  obtain ⟨hpeer, hgreeting⟩ := Prod.mk.inj (hreaches.session.trans hstart)
  rw [openTransport, hreaches.plain, if_neg Bool.false_ne_true]
  refine ⟨rfl, hquiet, rfl, hplain, _, rfl, rfl, hgreeting, ?_⟩
  rwa [← hpeer] at hserving

theorem wp_readWelcome_facing {s : ConnectionState} (hwelcomes : mock.Welcomes)
    (h : Facing mock state none s (statusBytes mock.welcomeCode.toNat mock.welcomeMessage) w) :
    wp readWelcome (gives () (Facing mock state none s [])) w := by
  rw [← List.append_nil (statusBytes _ _)] at h
  have hcode : mock.welcomeCode.toNat = 200 ∨ mock.welcomeCode.toNat = 201 := by
    rcases hwelcomes.code with hcode | hcode
    · exact .inl (by rw [hcode]; rfl)
    · exact .inr (by rw [hcode]; rfl)
  have hstatus := wp_statusLine_facing (by omega) hwelcomes.message h
  rw [readWelcome]
  refine wp_gives_seq hstatus fun w' h' => ?_
  rcases hcode with hcode | hcode
  · rw [hcode]
    exact ⟨rfl, h'⟩
  · rw [hcode]
    exact ⟨rfl, h'⟩

/-! ### Logging in -/

/-- A command, and the one line that answers it. -/
theorem wp_turn_facing {α : Type} (code : Nat) (message : String) {cmd text : String}
    {state' : MockState} {s : ConnectionState} {k : NntpResponse → Nntp MockSession α}
    {Q : Post NntpError (World MockSession) α} (hfaults : mock.faults.Absent) (hcmd : Phrase cmd)
    (hanswer : mock.answerTo state cmd = MockConfig.reply state' text) (hcode : code ≤ 999)
    (hmessage : Message message)
    (htext : text.toList = (threeDigits code ++ " " ++ message ++ "\r\n").toList)
    (h : Facing mock state none s [] w)
    (hk : ∀ w', Facing mock state' none s [] w' → wp (k { code, message }) Q w') :
    wp (sendCommand cmd >>= fun _ => readResponseLine >>= k) Q w := by
  have hsend := wp_sendCommand_facing hcmd hfaults hanswer
    (show AfterCommand.counts.reading = some none from rfl) h
  refine wp_gives_seq hsend fun w₁ h₁ => ?_
  rw [MockConfig.reply, List.flatten_singleton, utf8_eq_statusBytes htext,
    ← List.append_nil (statusBytes _ _)] at h₁
  exact wp_gives_seq (wp_statusLine_facing hcode hmessage h₁) hk

theorem answerTo_authinfo {sub cmd : String} (hsub : Text.IsVerb sub) (text : String)
    (hcmd : cmd = "AUTHINFO" ++ " " ++ (sub ++ " " ++ text)) :
    mock.answerTo state cmd = mock.onAuthinfo state ["AUTHINFO", sub, text] := by
  have hverb : Text.IsVerb "AUTHINFO" := by decide
  have hsplit : Text.splitn 3 ' ' cmd = ["AUTHINFO", sub, text] := by
    rw [hcmd]
    refine (Text.splitn_cons hverb.word _).trans ?_
    exact congrArg _ ((Text.splitn_cons hsub.word text).trans
      (by simp [Text.splitn, Text.splitnChars, Text.IsVerb.word]))
  rw [MockConfig.answerTo, hsplit, MockConfig.verb, List.headD_cons,
    Text.toUppercase_of_upper fun c hc => (hverb.2 c hc).2]
  simp [MockConfig.answer]

theorem subcommand_eq {sub text : String} (hsub : Text.IsVerb sub) :
    mock.subcommand ["AUTHINFO", sub, text] = sub := by
  rw [MockConfig.subcommand]
  exact Text.toUppercase_of_upper fun c hc => (hsub.2 c hc).2

/-- What is said to a password. -/
theorem onAuthinfo_pass (hfail : mock.failAuth = false) (password : String) :
    mock.onAuthinfo state ["AUTHINFO", "PASS", password] =
      let limited := MockConfig.rateLimited state
      if limited.1 then MockConfig.reply limited.2 "481 Authentication rate-limited\r\n"
      else if mock.validCredentials.all (·.2 = password) then
        MockConfig.reply { limited.2 with authenticated := true } "281 Authentication accepted\r\n"
      else MockConfig.reply limited.2 "481 Authentication failed\r\n" := by
  rw [MockConfig.onAuthinfo, subcommand_eq (by decide)]
  dsimp only
  rw [if_neg (by decide), if_pos rfl, hfail]
  cases mock.validCredentials with
  | none => rfl
  | some credentials =>
      obtain ⟨user, valid⟩ := credentials
      by_cases h : password = valid
      · simp [h]
      · simp [h, Ne.symm h]

theorem wp_refused_facing {state' : MockState} {s : ConnectionState} {e : NntpError}
    (h : Facing mock state' none s [] w) :
    wp (failIn .error e) (logsIn mock (.error e, state')) w :=
  ⟨rfl, .error, by decide, h.setState .error⟩

/-- The password is sent, and decides the login. -/
theorem wp_sendPassword_facing {username : String} (hfaults : mock.faults.Absent)
    (hlegible : config.Legible) (husername : config.username = some username)
    (hfail : mock.failAuth = false) (h : Facing mock state none .authenticating [] w) :
    wp (sendPassword config) (logsIn mock (mock.login config state)) w := by
  have hsub : Text.IsVerb "PASS" := by decide
  rw [sendPassword, MockConfig.login, husername, hfail]
  cases hpassword : config.password with
  | none => exact ⟨rfl, .authenticating, by decide, h⟩
  | some password =>
      have htext : passCommand password = "AUTHINFO" ++ " " ++ ("PASS" ++ " " ++ password) := by
        rw [← String.toList_inj, passCommand]
        simp
      have hcmd : Phrase (passCommand password) := by
        rw [htext]
        exact .cons (show Text.IsVerb "AUTHINFO" by decide).word
          (.cons hsub.word (hlegible.password password hpassword))
      have hanswer : mock.answerTo state (passCommand password) = _ :=
        (answerTo_authinfo hsub password htext).trans (onAuthinfo_pass hfail password)
      dsimp only at hanswer ⊢
      by_cases hlimited : (MockConfig.rateLimited state).1 = true
      · rw [if_pos hlimited] at hanswer ⊢
        exact wp_turn_facing 481 "Authentication rate-limited" hfaults hcmd hanswer (by decide)
          ⟨by decide, by decide⟩ (by decide) h fun w' h' => wp_refused_facing h'
      rw [if_neg hlimited] at hanswer ⊢
      by_cases hvalid : mock.validCredentials.all (·.2 = password) = true
      · rw [if_pos hvalid] at hanswer ⊢
        exact wp_turn_facing 281 "Authentication accepted" hfaults hcmd hanswer (by decide)
          ⟨by decide, by decide⟩ (by decide) h fun w' h' => ⟨rfl, h'.setState .ready⟩
      · rw [if_neg hvalid] at hanswer ⊢
        exact wp_turn_facing 481 "Authentication failed" hfaults hcmd hanswer (by decide)
          ⟨by decide, by decide⟩ (by decide) h fun w' h' => wp_refused_facing h'

theorem wp_authenticate_facing {username : String} (hfaults : mock.faults.Absent)
    (hlegible : config.Legible) (husername : config.username = some username)
    {s : ConnectionState} (h : Facing mock state none s [] w) :
    wp (authenticate config) (logsIn mock (mock.login config state)) w := by
  have hsub : Text.IsVerb "USER" := by decide
  have htext : userCommand username = "AUTHINFO" ++ " " ++ ("USER" ++ " " ++ username) := by
    rw [← String.toList_inj, userCommand]
    simp
  have hcmd : Phrase (userCommand username) := by
    rw [htext]
    exact .cons (show Text.IsVerb "AUTHINFO" by decide).word
      (.cons hsub.word (hlegible.username username husername))
  have hanswer : mock.answerTo state (userCommand username) = _ :=
    answerTo_authinfo hsub username htext
  rw [MockConfig.onAuthinfo, subcommand_eq hsub] at hanswer
  dsimp only at hanswer
  rw [if_pos rfl] at hanswer
  rw [authenticate, husername]
  refine (wp_bind (setState .authenticating) _ w).mpr ?_
  have hstart := h.setState .authenticating
  cases hfail : mock.failAuth with
  | true =>
      rw [hfail, if_pos rfl] at hanswer
      have hlogin : mock.login config state =
          (.error (.auth "USER rejected (482): Authentication rejected"), state) := by
        rw [MockConfig.login, husername, hfail]
        rfl
      rw [hlogin]
      exact wp_turn_facing 482 "Authentication rejected" hfaults hcmd hanswer (by decide)
        ⟨by decide, by decide⟩ (by decide) hstart fun w' h' => wp_refused_facing h'
  | false =>
      rw [hfail, if_neg Bool.false_ne_true] at hanswer
      exact wp_turn_facing 381 "Password required" hfaults hcmd hanswer (by decide)
        ⟨by decide, by decide⟩ (by decide) hstart
        fun w' h' => wp_sendPassword_facing hfaults hlegible husername hfail h'

/-! ### What follows the login -/

/-- A list of capabilities goes out as a block does. -/
theorem exists_capabilityLines (state : MockState)
    (hsupported : mock.capabilitiesUnsupported = false) :
    ∃ lines : List Bytes, (∀ line ∈ lines, lf ∉ line) ∧
      (mock.onCapabilities state).writes.flatten =
        statusBytes 101 "Capability list:" ++ postedBytes lines := by
  rw [MockConfig.onCapabilities, hsupported, if_neg Bool.false_ne_true]
  dsimp only
  cases mock.capabilitiesModeReader with
  | true =>
      exact ⟨["VERSION 2", "MODE-READER", "IHAVE",
        "IMPLEMENTATION nzb-nntp-testutil 1.0"].map Text.utf8, by decide, by decide⟩
  | false =>
      exact ⟨["VERSION 2", "READER", "POST", "HDR", "OVER MSGID",
        "LIST ACTIVE NEWSGROUPS OVERVIEW.FMT",
        "IMPLEMENTATION nzb-nntp-testutil 1.0"].map Text.utf8, by decide, by decide⟩

theorem Facing.setCapabilities {posting : Option Bytes} {s : ConnectionState} {owed : Bytes}
    (h : Facing mock state posting s owed w) (caps : NntpCapabilities) :
    wp (setCapabilities caps) (gives () (Facing mock state posting s owed)) w :=
  ⟨rfl, h.quiet, h.status, h.plain, h.linked⟩

theorem wp_queryCapabilities_facing (hfaults : mock.faults.Absent)
    (h : Facing mock state none .ready [] w) :
    wp queryCapabilities (gives () (Facing mock state none .ready [])) w := by
  have hverb : Text.IsVerb "CAPABILITIES" := by decide
  have hanswer : mock.answerTo state "CAPABILITIES" = mock.onCapabilities state := by
    rw [answerTo_verb mock state hverb]
    simp [MockConfig.answer]
  rw [queryCapabilities, wp_bind_of_ok (requireReady_of_ready h.status)]
  cases hunsupported : mock.capabilitiesUnsupported with
  | true =>
      rw [MockConfig.onCapabilities, hunsupported, if_pos rfl] at hanswer
      exact wp_turn_facing 500 "Unknown command" hfaults hverb.alone hanswer (by decide)
        ⟨by decide, by decide⟩ (by decide) h fun w' h' => h'.setCapabilities _
  | false =>
      obtain ⟨lines, hfree, hwrites⟩ := exists_capabilityLines state hunsupported
      have hafter : (mock.onCapabilities state).after.reading = some none := by
        rw [MockConfig.onCapabilities, hunsupported]
        rfl
      have hstate : (mock.onCapabilities state).state = state := by
        rw [MockConfig.onCapabilities, hunsupported]
        rfl
      refine wp_gives_seq (wp_sendCommand_facing hverb.alone hfaults hanswer hafter h)
        fun w₁ h₁ => ?_
      rw [hstate, hwrites] at h₁
      refine wp_gives_seq (wp_statusLine_facing (by decide)
        (show Message "Capability list:" from ⟨by decide, by decide⟩) h₁) fun w₂ h₂ => ?_
      rw [← List.append_nil (postedBytes _)] at h₂
      exact wp_gives_seq (wp_block_facing hfree h₂) fun w₃ h₃ => h₃.setCapabilities _

theorem wp_enterReaderMode_facing (hfaults : mock.faults.Absent)
    (h : Facing mock state none .ready [] w) :
    wp enterReaderMode (gives () (Facing mock state none .ready [])) w := by
  have hmode : Text.IsVerb "MODE" := by decide
  have hreader : Text.IsVerb "READER" := by decide
  have hanswer : mock.answerTo state "MODE READER" =
      MockConfig.reply state "200 Reader mode, posting allowed\r\n" := by
    refine (answerTo_word mock state hmode hreader.word).trans ?_
    have hsub : mock.subcommand ["MODE", "READER"] = "READER" :=
      Text.toUppercase_of_upper fun c hc => (hreader.2 c hc).2
    simp [MockConfig.answer, MockConfig.onMode, Text.IsVerb.word, hsub]
  rw [enterReaderMode, wp_bind_of_ok (requireReady_of_ready h.status)]
  refine wp_turn_facing 200 "Reader mode, posting allowed" hfaults (hmode.command hreader.word)
    hanswer (by decide) ⟨by decide, by decide⟩ (by decide) h fun w' h' => ?_
  exact (wp_bind Comp.get _ w').mpr (h'.setCapabilities _)

theorem wp_negotiate_facing (hfaults : mock.faults.Absent) (hcompress : config.compress = false)
    (h : Facing mock state none .ready [] w) :
    wp (negotiate config) (gives () (Facing mock state none .ready [])) w := by
  have hprobe : wp probeCapabilities (gives () (Facing mock state none .ready [])) w := by
    rw [probeCapabilities, wp_bind, wp_attempt]
    refine wp_mono (wp_queryCapabilities_facing hfaults h) ?_ (fun _ _ h => h.elim) (fun _ h => h)
    rintro _ w₁ ⟨rfl, h₁⟩
    exact ⟨rfl, h₁⟩
  have hswitch : ∀ w₁, Facing mock state none .ready [] w₁ →
      wp switchToReaderMode (gives () (Facing mock state none .ready [])) w₁ := by
    intro w₁ h₁
    rw [switchToReaderMode, wp_bind, wp_get]
    dsimp only
    split
    · rw [wp_bind, wp_attempt]
      refine wp_mono (wp_enterReaderMode_facing hfaults h₁) ?_ (fun _ _ h => h.elim) (fun _ h => h)
      rintro _ w₂ ⟨rfl, h₂⟩
      exact ⟨rfl, h₂⟩
    · exact ⟨rfl, h₁⟩
  rw [negotiate, compressIfConfigured, hcompress, if_neg Bool.false_ne_true]
  exact wp_gives_seq hprobe fun w₁ h₁ => wp_gives_seq (hswitch w₁ h₁) fun w₂ h₂ => ⟨rfl, h₂⟩

/-! ### The whole connect -/

theorem wp_establish_facing (hreaches : dial.Reaches config mock state)
    (hfaults : mock.faults.Absent) (hwelcomes : mock.Welcomes) (hlegible : config.Legible)
    (hquiet : Quiet w) (hplain : Compresses false w) :
    wp (establish config dial) (logsIn mock (mock.login config (mock.opening state))) w := by
  rw [establish]
  refine (wp_bind (setState .connecting) _ w).mpr ?_
  refine wp_gives_seq (wp_openStream_quiet hreaches hquiet) ?_
  rintro _ rfl
  refine wp_gives_seq (wp_openTransport_facing hreaches hfaults hwelcomes hquiet.tick hplain)
    fun w₁ h₁ => ?_
  refine wp_gives_seq (wp_readWelcome_facing hwelcomes h₁) fun w₂ h₂ => ?_
  cases husername : config.username with
  | none =>
      have hlogin : mock.login config (mock.opening state) = (.ok (), mock.opening state) := by
        rw [MockConfig.login, husername]
      rw [hlogin]
      exact ⟨rfl, h₂.setState .ready⟩
  | some username => exact wp_authenticate_facing hfaults hlegible husername h₂

/-- A client that reaches the server is logged in, or is told why it is not. -/
theorem wp_connect_facing (hreaches : dial.Reaches config mock state)
    (hfaults : mock.faults.Absent) (hwelcomes : mock.Welcomes) (hlegible : config.Legible)
    (hcompress : config.compress = false) (hquiet : Quiet w) (hplain : Compresses false w) :
    wp (connect config dial) (logsIn mock (mock.login config (mock.opening state))) w := by
  refine wp_connect ?_ fun _ _ h => h.elim
  have hestablish := wp_establish_facing hreaches hfaults hwelcomes hlegible hquiet hplain
  rw [connectInner]
  refine wp_seq hestablish ?_ (fun _ _ h => h) (fun _ h => h)
  rintro _ w₁ ⟨hlogin, h₁⟩
  refine wp_mono (wp_negotiate_facing hfaults hcompress h₁) ?_ (fun _ _ h => h.elim) (fun _ h => h)
  rintro _ w₂ ⟨-, h₂⟩
  exact ⟨hlogin, h₂⟩

end Logins

end NzbNntp
