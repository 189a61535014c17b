import NzbNntp.Connection.Replies
import NzbNntp.Connection.Login

/-!
How a `connect` fails. Most exits of `connect_inner` and `authenticate` mark the
connection `Error` before they return. A bare `?` does not: it leaves the state at
`Connecting` or `Authenticating`. The conditions here say, over the configuration, what
dialling gives, the events and the replies on the stream, when such an exit is taken.
-/

namespace NzbNntp

open Interruptible

/-! ### Bare exits -/

section Conditions

variable {π : Type} [Peer π]

def Kept (w : World π) : Prop := ∀ n, w.nextEvent ≠ .dropped n

/-- The operation fails, or its time limit expires. -/
def IoEvent.breaks : IoEvent → Bool
  | .fails _ _ | .elapsed _ => true
  | _ => false

def SendBreaks (w : World π) : Prop :=
  w.nextEvent.breaks = true ∨ w.nextEvent.completes = true ∧ w.tick.nextEvent.breaks = true

/-- The wait for a status line fails, or ends with a line that is none. -/
def ReplyBreaks (w : World π) : Prop := Kept w ∧ ¬ StatusReadable w

def ExchangeBreaks (cmd : String) (w : World π) : Prop :=
  SendBreaks w ∨ ∃ w₁, Sent (commandLine cmd) w w₁ ∧ ReplyBreaks w₁

/-- The bare exits of `authenticate` once the password is asked for. -/
def PasswordBreaks (config : ServerConfig) (w : World π) : Prop :=
  config.password = none ∨
    ∃ password, config.password = some password ∧ ExchangeBreaks (passCommand password) w

def LoginBreaks (config : ServerConfig) (w : World π) : Prop :=
  ∃ username, config.username = some username ∧
    (ExchangeBreaks (userCommand username) w ∨
      ∃ challenge w₁, Queried (userCommand username) w challenge w₁ ∧
        challenge.code ∈ challenges ∧ PasswordBreaks config w₁)

def SessionBreaks (config : ServerConfig) (w : World π) : Prop :=
  ReplyBreaks w ∨
    ∃ greeting t, NextStatus w greeting t ∧ greeting.code ∈ greetings ∧
      LoginBreaks config ((w.setTransport t).tick.setState .authenticating)

def BadFingerprint (config : ServerConfig) : Prop :=
  ∃ hex, config.trustedFingerprint = some hex ∧ parseFingerprint hex = none

def Dials (config : ServerConfig) (dial : Dial π) (w : World π) : Prop :=
  (∀ url, proxyUrl config = some url → ∃ proxy, parseSocks5Url url = .ok proxy) ∧ Kept w ∧
    dial.tcp = .ok ()

/-- TLS is configured, and its set-up is refused before the handshake. -/
def SetupBreaks (config : ServerConfig) (dial : Dial π) : Prop :=
  config.ssl = true ∧ (BadFingerprint config ∨ ∃ e, dial.serverName = .error e)

def Opens (config : ServerConfig) (dial : Dial π) (w : World π) : Prop :=
  config.ssl = true → ¬ BadFingerprint config ∧ dial.serverName = .ok () ∧ Kept w ∧
    dial.handshake = .ok ()

/-- The connection with its transport, which has taken the handshake's event over TLS. -/
def opened (config : ServerConfig) (dial : Dial π) (w : World π) : World π :=
  (if config.ssl then w.tick else w).setTransport
    { tls := config.ssl, peer := dial.peer, unread := dial.greeting }

def EndsBare (config : ServerConfig) (dial : Dial π) (w : World π) : Prop :=
  Dials config dial w ∧
    (SetupBreaks config dial ∨
      Opens config dial w.tick ∧
        SessionBreaks config (opened config dial (w.setState .connecting).tick))

end Conditions

/-! ### The operations -/

section Operations

variable {π : Type} {w w' : World π}

/-- The computation fails with the state not set to `Error`. -/
abbrev BareExit {α : Type} (x : Nntp π α) (w : World π) : Prop :=
  FailsIn (fun w' => w'.conn.state ≠ .error) x w

theorem bareExit_failIn {α : Type} {e : NntpError} :
    ¬ BareExit (failIn .error e : Nntp π α) w := by
  rintro ⟨_, _, h, hne⟩
  cases h
  exact hne rfl

theorem bareExit_setState_bind {α : Type} {s : ConnectionState} {x : Nntp π α} :
    BareExit (do setState s; x) w ↔ BareExit x (w.setState s) := by
  rw [BareExit, failsIn_bind]
  constructor
  · rintro (h | ⟨_, _, h, hx⟩)
    · exact absurd h (failsIn_modify _)
    · cases h
      exact hx
  · exact fun h => .inr ⟨(), _, rfl, h⟩

theorem readUntilLf_dropped_iff {t : Transport π} {ev : IoEvent} :
    (t.readUntilLf ev).1 = .dropped ↔ ∃ n, ev = .dropped n := by
  have hawait : ∀ t : Transport π, t.awaitLine.1 ≠ .dropped := by
    intro t
    unfold Transport.awaitLine
    split
    · exact nofun
    · dsimp only
      split <;> exact nofun
  cases ev with
  | ready => simpa [Transport.readUntilLf] using hawait t
  | eof n => simpa [Transport.readUntilLf] using hawait (t.endStream n)
  | fails error n => simp [Transport.readUntilLf, Transport.giveUp]
  | elapsed n => simp [Transport.readUntilLf, Transport.giveUp]
  | dropped n => simp [Transport.readUntilLf, Transport.giveUp]

/-- Only an operation that is dropped drops its caller. -/
theorem wp_readResponseLine_kept {t : Transport π} (ht : w.conn.transport = some t) :
    wp readResponseLine
      ⟨fun _ _ => StatusReadable w, fun _ w' => ReplyBreaks w ∧ w'.conn.state = w.conn.state,
        fun _ => ¬ ReplyBreaks w⟩ w := by
  have hkept : wp (readResponseLine : Nntp π _)
      ⟨fun _ _ => True, fun _ _ => Kept w, fun _ => ¬ Kept w⟩ w := by
    simp only [readResponseLine, wp_bind, wp_onTransport ht]
    have hdropped := @readUntilLf_dropped_iff π t w.nextEvent
    have hkept : (t.readUntilLf w.nextEvent).1 ≠ .dropped → Kept w :=
      fun h n hev => h (hdropped.mpr ⟨n, hev⟩)
    cases he : (t.readUntilLf w.nextEvent).1 with
    | dropped =>
        obtain ⟨n, hev⟩ := hdropped.mp he
        exact fun h => h n hev
    | failed error => exact hkept (by simp [he])
    | elapsed => exact hkept (by simp [he])
    | done =>
        have hkept := hkept (by simp [he])
        simp only [settle, wp_pure]
        split
        · exact hkept
        · split
          · exact hkept
          · rw [wp_ofExcept]
            exact ⟨fun _ _ => trivial, fun _ _ => hkept⟩
  have hstate : Preserves (OfStatus fun s _ => s = w.conn.state) (readResponseLine : Nntp π _) :=
    preserves_readResponseLine
  refine wp_mono (wp_and (wp_and (wp_readResponseLine_iff w) hkept) (hstate w rfl))
    (fun _ _ h => h.1.1) ?_ ?_
  · exact fun _ _ h => ⟨⟨h.1.2, h.1.1⟩, h.2⟩
  · exact fun _ h hbreaks => h.1.2 hbreaks.1

theorem bareExit_iff_of_wp {α : Type} {x : Nntp π α} {bare : Prop}
    (h : wp x ⟨fun _ _ => ¬ bare, fun _ w' => w'.conn.state ≠ .error ↔ bare, fun _ => ¬ bare⟩ w) :
    BareExit x w ↔ bare := by
  constructor
  · rintro ⟨e, w', hrun, hs⟩
    exact (wp_err h hrun).mp hs
  · intro hbare
    obtain ⟨e, w', hrun, hfail⟩ := exists_err_of_wp (wp_mono h (fun _ _ h => absurd hbare h)
      (fun _ _ h => h) (fun _ h => absurd hbare h))
    exact ⟨e, w', hrun, hfail.mpr hbare⟩

theorem bareExit_readResponseLine {t : Transport π} (hs : w.conn.state ≠ .error)
    (ht : w.conn.transport = some t) :
    BareExit readResponseLine w ↔ ReplyBreaks w := by
  apply bareExit_iff_of_wp
  refine wp_mono (wp_readResponseLine_kept ht) (fun _ _ h => fun hbreaks => hbreaks.2 h)
    (fun _ w' h => iff_of_true ?_ h.1) (fun _ h => h)
  rw [h.2]
  exact hs

theorem wp_flush_breaks {t : Transport π} (ht : w.conn.transport = some t) :
    wp (flush : Nntp π Unit)
      ⟨fun _ _ => ¬ w.nextEvent.breaks = true,
        fun _ w' => w.nextEvent.breaks = true ∧ w'.conn.state = w.conn.state,
        fun _ => ¬ w.nextEvent.breaks = true⟩ w := by
  simp only [flush, wp_bind, wp_onTransport ht, wp_get]
  cases w.nextEvent with
  | ready => exact Bool.false_ne_true
  | eof n => exact Bool.false_ne_true
  | fails error n => exact ⟨rfl, rfl⟩
  | elapsed n => exact ⟨rfl, rfl⟩
  | dropped n => exact Bool.false_ne_true

variable [Peer π] {cmd : String}

theorem sendCommand_eq_ok_iff : sendCommand cmd w = .ok () w' ↔ Sent (commandLine cmd) w w' := by
  constructor
  · exact wp_ok (wp_sendCommand_sent cmd w)
  · intro h
    obtain ⟨_, _, hrun, rfl⟩ := exists_ok_of_wp (wp_sendCommand_of_sent h)
    exact hrun

theorem wp_sendCommandNoFlush_breaks {t : Transport π} (ht : w.conn.transport = some t) :
    wp (sendCommandNoFlush cmd)
      ⟨fun _ w' => w.nextEvent.completes = true ∧ w'.conn.state = w.conn.state ∧
          w'.events = w.tick.events ∧ ∃ t', w'.conn.transport = some t',
        fun _ w' => w.nextEvent.breaks = true ∧ w'.conn.state = w.conn.state,
        fun _ => w.nextEvent.completes = false ∧ w.nextEvent.breaks = false⟩ w := by
  simp only [sendCommandNoFlush, wp_bind, wp_onTransport ht, wp_get]
  cases w.nextEvent with
  | ready => exact ⟨rfl, rfl, rfl, _, rfl⟩
  | eof n => exact ⟨rfl, rfl, rfl, _, rfl⟩
  | fails error n => exact ⟨rfl, rfl⟩
  | elapsed n => exact ⟨rfl, rfl⟩
  | dropped n => exact ⟨rfl, rfl⟩

theorem bareExit_sendCommand {t : Transport π} (hs : w.conn.state ≠ .error)
    (ht : w.conn.transport = some t) : BareExit (sendCommand cmd) w ↔ SendBreaks w := by
  apply bareExit_iff_of_wp
  rw [SendBreaks]
  refine wp_seq (wp_sendCommandNoFlush_breaks ht) ?_ ?_ ?_
  · rintro _ w₁ ⟨hcompletes, hs₁, hevents, t₁, ht₁⟩
    have hbreaks : w.nextEvent.breaks = false := by
      cases hev : w.nextEvent with
      | ready | eof n => rfl
      | fails error n | elapsed n | dropped n => rw [hev] at hcompletes; cases hcompletes
    have hnext : w₁.nextEvent = w.tick.nextEvent :=
      congrArg (fun events : List IoEvent => events.headD .ready) hevents
    have hiff : w.nextEvent.breaks = true ∨ w.nextEvent.completes = true ∧
        w.tick.nextEvent.breaks = true ↔ w₁.nextEvent.breaks = true := by
      simp [hbreaks, hcompletes, hnext]
    rw [hiff]
    exact wp_mono (wp_flush_breaks ht₁) (fun _ _ h => h)
      (fun _ w' h => iff_of_true (by rwa [h.2, hs₁]) h.1) (fun _ h => h)
  · exact fun _ w' h => iff_of_true (by rwa [h.2]) (.inl h.1)
  · exact fun _ h => by simp [h.1, h.2]

/-- An exchange ends bare where the command is not sent, or no status line follows. -/
theorem bareExit_ask {t : Transport π} (hs : w.conn.state ≠ .error)
    (ht : w.conn.transport = some t) : BareExit (ask cmd) w ↔ ExchangeBreaks cmd w := by
  have hreply : ∀ w₁, Sent (commandLine cmd) w w₁ →
      (BareExit readResponseLine w₁ ↔ ReplyBreaks w₁) := by
    rintro w₁ ⟨t, t₁, t₂, -, -, -, rfl⟩
    exact bareExit_readResponseLine hs rfl
  rw [ask, BareExit, failsIn_bind, ExchangeBreaks]
  apply or_congr (bareExit_sendCommand hs ht)
  constructor
  · rintro ⟨_, w₁, hsend, hbare⟩
    have hsent := sendCommand_eq_ok_iff.mp hsend
    exact ⟨w₁, hsent, (hreply w₁ hsent).mp hbare⟩
  · rintro ⟨w₁, hsent, hbreaks⟩
    exact ⟨(), w₁, sendCommand_eq_ok_iff.mpr hsent, (hreply w₁ hsent).mpr hbreaks⟩

end Operations

/-! ### The login -/

section Login

variable {π : Type} [Peer π] {config : ServerConfig} {w : World π}

theorem Queried.keeps {cmd : String} {status : NntpResponse} {w' : World π}
    (h : Queried cmd w status w') :
    w'.conn.state = w.conn.state ∧ ∃ t, w'.conn.transport = some t := by
  obtain ⟨w₁, t, ⟨_, _, _, _, _, _, rfl⟩, -, rfl⟩ := h
  exact ⟨rfl, t, rfl⟩

/-- A turn of the login: an exchange, and what follows from the reply. -/
theorem bareExit_turn {cmd : String} {k : NntpResponse → Nntp π Unit} {t : Transport π}
    (bare : NntpResponse → World π → Prop) (hs : w.conn.state ≠ .error)
    (ht : w.conn.transport = some t)
    (hk : ∀ status w₁, Queried cmd w status w₁ → (BareExit (k status) w₁ ↔ bare status w₁)) :
    BareExit (do
        sendCommand cmd
        let resp ← readResponseLine
        k resp) w ↔
      ExchangeBreaks cmd w ∨ ∃ status w₁, Queried cmd w status w₁ ∧ bare status w₁ := by
  have hask : (do
      sendCommand cmd
      let resp ← readResponseLine
      k resp : Nntp π Unit) = (do let resp ← ask cmd; k resp) := by
    rw [ask, bind_assoc]
  rw [hask, BareExit, failsIn_bind]
  apply or_congr (bareExit_ask hs ht)
  refine exists_congr fun status => exists_congr fun w₁ => ?_
  rw [ask_eq_ok_iff]
  exact and_congr_right (hk status w₁)

theorem bareExit_sendPassword {t : Transport π} (hs : w.conn.state ≠ .error)
    (ht : w.conn.transport = some t) :
    BareExit (sendPassword config) w ↔ PasswordBreaks config w := by
  rw [sendPassword, PasswordBreaks]
  cases config.password with
  | none => simp [BareExit, hs]
  | some password =>
      refine (bareExit_turn (fun _ _ => False) hs ht fun status w₁ _ => ?_).trans ?_
      · rw [iff_false]
        split
        · exact failsIn_modify _
        all_goals exact bareExit_failIn
      · simp [passCommand]

theorem bareExit_authenticate {t : Transport π} {username : String}
    (husername : config.username = some username) (ht : w.conn.transport = some t) :
    BareExit (authenticate config) w ↔ LoginBreaks config (w.setState .authenticating) := by
  have hs : (w.setState .authenticating).conn.state ≠ .error := nofun
  rw [authenticate, bareExit_setState_bind, LoginBreaks, husername]
  refine (bareExit_turn (fun status w₁ => status.code ∈ challenges ∧ PasswordBreaks config w₁)
    hs ht fun status w₁ hqueried => ?_).trans ?_
  · obtain ⟨hs₁, t₁, ht₁⟩ := hqueried.keeps
    have hpassword : BareExit (sendPassword config) w₁ ↔ PasswordBreaks config w₁ :=
      bareExit_sendPassword (hs₁.trans_ne hs) ht₁
    split
    case h_1 hcode => simp [hcode, challenges, setState]
    case h_2 hcode | h_3 hcode => simp [hcode, challenges, hpassword]
    case h_4 hcode | h_5 hcode | h_6 hcode => simp [hcode, challenges, bareExit_failIn]
    case h_7 h381 h480 _ _ _ =>
      have hno : status.code ∉ challenges := fun h => (List.mem_pair.mp h).elim h381 h480
      simp [hno, bareExit_failIn]
  · simp [userCommand]

end Login

section Connect

variable {π : Type} {config : ServerConfig} {dial : Dial π} {w w' : World π}

/-- The welcome banner lets the login begin, or ends it. -/
theorem bareExit_readWelcome {t : Transport π} (hs : w.conn.state ≠ .error)
    (ht : w.conn.transport = some t) : BareExit readWelcome w ↔ ReplyBreaks w := by
  rw [readWelcome, BareExit, failsIn_bind]
  refine Iff.trans (or_iff_left ?_) (bareExit_readResponseLine hs ht)
  rintro ⟨welcome, w₁, -, hbare⟩
  split at hbare
  case h_1 | h_2 => exact failsIn_pure _ hbare
  all_goals exact bareExit_failIn hbare

theorem readWelcome_eq_ok_iff :
    readWelcome w = .ok () w' ↔ ∃ greeting t, NextStatus w greeting t ∧
      greeting.code ∈ greetings ∧ w' = (w.setTransport t).tick := by
  constructor
  · have hwelcome : wp readWelcome
        ⟨fun _ w' => ∃ greeting t, NextStatus w greeting t ∧ greeting.code ∈ greetings ∧
          w' = (w.setTransport t).tick, fun _ _ => True, fun _ => True⟩ w := by
      refine wp_seq wp_readResponseLine_next ?_ (fun _ _ _ => trivial) (fun _ h => h)
      rintro greeting w₁ ⟨t, hnext, rfl⟩
      split
      case h_1 hcode => exact ⟨greeting, t, hnext, by simp [greetings, hcode], rfl⟩
      case h_2 hcode => exact ⟨greeting, t, hnext, by simp [greetings, hcode], rfl⟩
      all_goals trivial
    exact wp_ok hwelcome
  · rintro ⟨greeting, t, hnext, hcode, rfl⟩
    have hwelcome : wp readWelcome
        ⟨fun _ w' => w' = (w.setTransport t).tick, fun _ _ => False, fun _ => False⟩ w := by
      refine wp_seq (wp_readResponseLine_of_next hnext) ?_ (fun _ _ h => h) (fun _ h => h)
      rintro _ _ ⟨rfl, rfl⟩
      split
      case h_1 | h_2 => exact rfl
      case h_3 h502 => simp [greetings, h502] at hcode
      case h_4 h200 h201 _ => exact ((List.mem_pair.mp hcode).elim h200 h201).elim
    obtain ⟨_, _, hrun, rfl⟩ := exists_ok_of_wp hwelcome
    exact hrun

theorem wp_awaitDial :
    wp awaitDial ⟨fun _ w' => Kept w ∧ w' = w.tick, fun _ _ => False, fun _ => ¬ Kept w⟩ w := by
  rw [Kept]
  unfold wp awaitDial
  cases w.nextEvent with
  | ready | eof n | fails error n | elapsed n => exact ⟨nofun, rfl⟩
  | dropped n => exact fun h => h n rfl

/-- A step of dialling that returns where `comes` holds, and nowhere else. -/
theorem eq_ok_iff_of_wp {x : Nntp π Unit} {comes : Prop} {w₁ : World π}
    (h : wp x ⟨fun _ w' => comes ∧ w' = w₁, fun _ _ => ¬ comes, fun _ => ¬ comes⟩ w) :
    x w = .ok () w' ↔ comes ∧ w' = w₁ := by
  constructor
  · exact wp_ok h
  · rintro ⟨hcomes, rfl⟩
    obtain ⟨_, _, hrun, rfl⟩ := exists_ok_of_wp (wp_mono h (fun _ _ h => h.2)
      (fun _ _ h => h hcomes) (fun _ h => h hcomes))
    exact hrun

/-- The TCP stream comes about, or the connection is in `Error`. -/
theorem wp_openStream_kept :
    wp (openStream config dial)
      ⟨fun _ w' => Dials config dial w ∧ w' = w.tick,
        fun _ w' => ¬ Dials config dial w ∧ w'.conn.state = .error,
        fun _ => ¬ Dials config dial w⟩ w := by
  have htcp : ∀ message : String → String,
      (∀ url, proxyUrl config = some url → ∃ proxy, parseSocks5Url url = .ok proxy) →
      wp (connectTcp dial message)
        ⟨fun _ w' => Dials config dial w ∧ w' = w.tick,
          fun _ w' => ¬ Dials config dial w ∧ w'.conn.state = .error,
          fun _ => ¬ Dials config dial w⟩ w := by
    intro message hproxy
    refine wp_seq wp_awaitDial ?_ (fun _ _ h => h.elim) (fun _ h hdials => h hdials.2.1)
    rintro _ w₁ ⟨hkept, rfl⟩
    split
    · rename_i e he
      refine ⟨fun h => ?_, rfl⟩
      rw [h.2.2] at he
      cases he
    · rename_i he
      exact ⟨⟨hproxy, hkept, he⟩, rfl⟩
  rw [openStream]
  split
  · rename_i url hurl
    split
    · rename_i e he
      refine ⟨fun h => ?_, rfl⟩
      obtain ⟨proxy, hproxy⟩ := h.1 url hurl
      rw [hproxy] at he
      cases he
    · rename_i proxy hproxy
      refine htcp _ ?_
      intro url' hurl'
      obtain rfl := Option.some.inj (hurl.symm.trans hurl')
      exact ⟨proxy, hproxy⟩
  · rename_i hnone
    refine htcp _ ?_
    intro url hurl
    rw [hnone] at hurl
    cases hurl

theorem wp_buildTlsConfig :
    wp (buildTlsConfig config)
      ⟨fun _ w' => ¬ BadFingerprint config ∧ w' = w, fun _ w' => BadFingerprint config ∧ w' = w,
        fun _ => False⟩ w := by
  rw [buildTlsConfig]
  split
  · rename_i hnone
    refine ⟨?_, rfl⟩
    rintro ⟨hex, hsome, -⟩
    rw [hnone] at hsome
    cases hsome
  · rename_i hex hsome
    split
    · rename_i hbad
      exact ⟨⟨hex, hsome, by simpa using hbad⟩, rfl⟩
    · rename_i hgood
      refine ⟨?_, rfl⟩
      rintro ⟨hex', hsome', hbad⟩
      obtain rfl := Option.some.inj (hsome.symm.trans hsome')
      simp [hbad] at hgood

/-- The set-up of TLS, where a bare `?` may end it, and the handshake. -/
theorem wp_tlsHandshake_kept (hssl : config.ssl = true) :
    wp (tlsHandshake config dial)
      ⟨fun _ w' => (¬ SetupBreaks config dial ∧ Opens config dial w) ∧ w' = w.tick,
        fun _ w' => SetupBreaks config dial ∧ w' = w ∨
          ¬ SetupBreaks config dial ∧ ¬ Opens config dial w ∧ w'.conn.state = .error,
        fun _ => ¬ SetupBreaks config dial ∧ ¬ Opens config dial w⟩ w := by
  refine wp_seq wp_buildTlsConfig ?_ (fun _ _ h => .inl ⟨⟨hssl, .inl h.1⟩, h.2⟩)
    (fun _ h => h.elim)
  rintro _ _ ⟨hfingerprint, rfl⟩
  cases hname : dial.serverName with
  | error e => exact .inl ⟨⟨hssl, .inr ⟨e, hname⟩⟩, rfl⟩
  | ok _ =>
      have hsetup : ¬ SetupBreaks config dial := by
        rintro ⟨-, h | ⟨e, he⟩⟩
        · exact hfingerprint h
        · rw [hname] at he
          cases he
      refine wp_seq wp_awaitDial ?_ (fun _ _ h => h.elim)
        (fun _ h => ⟨hsetup, fun hopens => h (hopens hssl).2.2.1⟩)
      rintro _ _ ⟨hkept, rfl⟩
      cases hhandshake : dial.handshake with
      | error e =>
          refine .inr ⟨hsetup, fun hopens => ?_, rfl⟩
          rw [(hopens hssl).2.2.2] at hhandshake
          cases hhandshake
      | ok _ => exact ⟨⟨hsetup, fun _ => ⟨hfingerprint, hname, hkept, hhandshake⟩⟩, rfl⟩

theorem wp_openTransport_kept :
    wp (openTransport config dial)
      ⟨fun _ w' => (¬ SetupBreaks config dial ∧ Opens config dial w) ∧ w' = opened config dial w,
        fun _ w' => SetupBreaks config dial ∧ w' = w ∨
          ¬ SetupBreaks config dial ∧ ¬ Opens config dial w ∧ w'.conn.state = .error,
        fun _ => ¬ SetupBreaks config dial ∧ ¬ Opens config dial w⟩ w := by
  rw [openTransport]
  split
  · rename_i hssl
    refine wp_seq (wp_tlsHandshake_kept hssl) ?_ (fun _ _ h => h) (fun _ h => h)
    rintro _ _ ⟨hopens, rfl⟩
    refine ⟨hopens, ?_⟩
    rw [opened, if_pos hssl]
  · rename_i hplain
    refine ⟨⟨fun h => hplain h.1, fun hssl => absurd hssl hplain⟩, ?_⟩
    rw [opened, if_neg hplain]

theorem bareExit_seq {x y : Nntp π Unit} {bare comes : Prop} {w₁ : World π}
    (hbare : BareExit x w ↔ bare) (hcomes : ∀ w', x w = .ok () w' ↔ comes ∧ w' = w₁) :
    BareExit (do x; y) w ↔ bare ∨ comes ∧ BareExit y w₁ := by
  rw [BareExit, failsIn_bind]
  apply or_congr hbare
  constructor
  · rintro ⟨_, w', hrun, hy⟩
    obtain ⟨h, rfl⟩ := (hcomes w').mp hrun
    exact ⟨h, hy⟩
  · exact fun h => ⟨(), w₁, (hcomes w₁).mpr ⟨h.1, rfl⟩, h.2⟩

/-- A refused set-up keeps the transport from coming about. -/
theorem Opens.not_setupBreaks (h : Opens config dial w) : ¬ SetupBreaks config dial := by
  rintro ⟨hssl, hbad⟩
  obtain ⟨hfingerprint, hname, -⟩ := h hssl
  rcases hbad with hbad | ⟨e, he⟩
  · exact hfingerprint hbad
  · rw [hname] at he
    cases he

variable [Peer π]

/-- The session from its greeting on, up to the negotiation. -/
theorem bareExit_session {t : Transport π} (hs : w.conn.state ≠ .error)
    (ht : w.conn.transport = some t) :
    BareExit (do
        readWelcome
        if config.username.isSome then authenticate config else setState .ready) w ↔
      SessionBreaks config w := by
  rw [BareExit, failsIn_bind, SessionBreaks]
  apply or_congr (bareExit_readWelcome hs ht)
  constructor
  · rintro ⟨_, _, hwelcome, hbare⟩
    obtain ⟨greeting, t', hnext, hcode, rfl⟩ := readWelcome_eq_ok_iff.mp hwelcome
    refine ⟨greeting, t', hnext, hcode, ?_⟩
    cases husername : config.username with
    | none =>
        rw [husername, if_neg (by simp)] at hbare
        exact absurd hbare (failsIn_modify _)
    | some username =>
        rw [husername, if_pos Option.isSome_some] at hbare
        exact (bareExit_authenticate husername rfl).mp hbare
  · rintro ⟨greeting, t', hnext, hcode, hlogin⟩
    obtain ⟨username, husername, -⟩ := id hlogin
    refine ⟨(), _, readWelcome_eq_ok_iff.mpr ⟨greeting, t', hnext, hcode, rfl⟩, ?_⟩
    rw [husername, if_pos Option.isSome_some]
    exact (bareExit_authenticate husername rfl).mpr hlogin

theorem bareExit_establish :
    BareExit (establish config dial) w ↔ EndsBare config dial w := by
  have hdial : ∀ w' : World π, openStream config dial (w.setState .connecting) = .ok () w' ↔
      Dials config dial w ∧ w' = (w.setState .connecting).tick :=
    fun _ => eq_ok_iff_of_wp
      (wp_mono wp_openStream_kept (fun _ _ h => h) (fun _ _ h => h.1) (fun _ h => h))
  have hdialBare : ¬ BareExit (openStream config dial) (w.setState .connecting) :=
    fun ⟨_, _, hrun, hs⟩ => hs (wp_err wp_openStream_kept hrun).2
  have hopen : ∀ w' : World π, openTransport config dial (w.setState .connecting).tick = .ok () w' ↔
      (¬ SetupBreaks config dial ∧ Opens config dial w.tick) ∧
        w' = opened config dial (w.setState .connecting).tick := by
    intro w'
    apply eq_ok_iff_of_wp
    refine wp_mono wp_openTransport_kept (fun _ _ h => h) ?_ (fun _ h hopens => h.2 hopens.2)
    rintro _ _ (h | h) hopens
    · exact hopens.1 h.1
    · exact h.2.1 hopens.2
  -- Of the TLS part only the set-up ends bare; a failed handshake marks the connection.
  have hopenBare : BareExit (openTransport config dial) (w.setState .connecting).tick ↔
      SetupBreaks config dial := by
    apply bareExit_iff_of_wp
    refine wp_mono wp_openTransport_kept (fun _ _ h => h.1.1) (fun _ w' h => ?_) (fun _ h => h.1)
    rcases h with ⟨hsetup, rfl⟩ | ⟨hsetup, -, hs⟩
    · exact iff_of_true nofun hsetup
    · exact iff_of_false (not_not_intro hs) hsetup
  have hsession : BareExit (do
      readWelcome
      if config.username.isSome then authenticate config else setState .ready)
      (opened config dial (w.setState .connecting).tick) ↔
      SessionBreaks config (opened config dial (w.setState .connecting).tick) := by
    apply bareExit_session
    · rw [opened]
      split <;> exact nofun
    · rfl
  rw [establish, bareExit_setState_bind, bareExit_seq (iff_false_intro hdialBare) hdial,
    bareExit_seq hopenBare hopen, hsession, false_or, EndsBare]
  apply and_congr_right
  intro _
  constructor
  · rintro (h | ⟨hopens, hbreaks⟩)
    · exact .inl h
    · exact .inr ⟨hopens.2, hbreaks⟩
  · rintro (h | ⟨hopens, hbreaks⟩)
    · exact .inl h
    · exact .inr ⟨⟨hopens.not_setupBreaks, hopens⟩, hbreaks⟩

/-- The time limit of `connect` marks the connection, and the negotiation never fails. -/
theorem bareExit_connect :
    BareExit (connect config dial) w ↔ BareExit (establish config dial) w := by
  have hinner : BareExit (connectInner config dial) w ↔ BareExit (establish config dial) w := by
    rw [connectInner, BareExit, failsIn_bind]
    exact or_iff_left fun ⟨_, _, _, h⟩ => neverFails_negotiate.not_failsIn h
  rw [← hinner]
  constructor
  · rintro ⟨e, w', hrun, hs⟩
    have hconnect : wp (connect config dial)
        ⟨fun _ _ => True, fun e w' => connectInner config dial w = .err e w' ∨
          w'.conn.state = .error, fun _ => True⟩ w :=
      wp_connect (wp_mono (wp_run _ w) (fun _ _ _ => trivial) (fun _ _ h => .inl h)
        (fun _ _ => trivial)) fun _ _ _ => .inr rfl
    rcases wp_err hconnect hrun with hinner | herror
    · exact ⟨e, w', hinner, hs⟩
    · exact absurd herror hs
  · rintro ⟨e, w', hrun, hs⟩
    refine ⟨e, w', ?_, hs⟩
    rw [connect, hrun]

/-- **A failed connect ends in `Error`** from any state, exactly where it does not take
one of its bare exits. -/
theorem connect_fails_in_error_iff (config : ServerConfig) (dial : Dial π) (w : World π) :
    (∀ e w', connect config dial w = .err e w' → w'.conn.state = .error) ↔
      ¬ EndsBare config dial w := by
  rw [← bareExit_establish, ← bareExit_connect]
  constructor
  · rintro h ⟨e, w', hrun, hs⟩
    exact hs (h e w' hrun)
  · intro h e w' hrun
    by_contra hs
    exact h ⟨e, w', hrun, hs⟩

/-- A server that closes the stream before its greeting leaves the connection in
`Connecting`. -/
theorem connect_can_fail_in_connecting :
    ¬ ∀ (config : ServerConfig) (dial : Dial ReplyServer) (w : World ReplyServer) (e : NntpError)
      (w' : World ReplyServer), connect config dial w = .err e w' → w'.conn.state = .error := by
  intro h
  let config : ServerConfig := { host := "localhost", port := 119, ssl := false }
  let dial : Dial ReplyServer :=
    { tcp := .ok (), serverName := .ok (), handshake := .ok ()
      peer := { answer := fun _ => .bare [] (by simp) }, greeting := [] }
  let w : World ReplyServer := { conn := .new "test", events := [.ready, .eof 0] }
  have hstate := h config dial w (.connection "Server closed connection") _ rfl
  cases hstate

end Connect

end NzbNntp
