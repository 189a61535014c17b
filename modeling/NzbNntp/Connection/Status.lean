import NzbNntp.Connection.Connect
import NzbNntp.Connection.Specs

/-!
What an I/O operation does not change, however it ends. A read leaves alone what has
been written, and a write only adds to it; neither touches the state flag, whether
there is a transport, or whether compression is on. Only the code around the
operations sets these, so conditions on them pass through every reader and writer.
-/

namespace NzbNntp

open Interruptible

variable {π : Type}

/-- A condition on the state flag and on whether there is a transport. -/
def OfStatus (P : ConnectionState → Bool → Prop) (w : World π) : Prop :=
  P w.conn.state w.conn.transport.isSome

def OfCompression (P : Bool → Prop) (w : World π) : Prop := P w.conn.compressEnabled

/-- A condition that none of the I/O operations touches: what they change is the
transport that there is, the buffers and the capabilities, which always enable the
content commands. -/
class IoStable (P : World π → Prop) : Prop where
  transport : ∀ w t t', w.conn.transport = some t → P w → P (w.setTransport t').tick
  lineScratch : ∀ w line, P w → P (w.setLineScratch line)
  bodyPool : ∀ w pool, P w → P { w with conn := { w.conn with bodyPool := pool } }
  capabilities : ∀ w (caps : NntpCapabilities), caps.HasContent → P w →
    P { w with conn := { w.conn with capabilities := caps } }

instance {P : ConnectionState → Bool → Prop} : IoStable (OfStatus P : World π → Prop) where
  transport w t t' ht h := by
    rw [OfStatus, ht] at h
    exact h
  lineScratch _ _ h := h
  bodyPool _ _ h := h
  capabilities _ _ _ h := h

instance {P : Bool → Prop} : IoStable (OfCompression P : World π → Prop) where
  transport _ _ _ _ h := h
  lineScratch _ _ h := h
  bodyPool _ _ h := h
  capabilities _ _ _ h := h

/-! ### Reads and writes -/

/-- What a read makes of a transport: bytes may have been taken, nothing has been
written. -/
structure Transport.ReadsTo (t t' : Transport π) : Prop where
  tls : t'.tls = t.tls
  wire : t'.wire = t.wire
  taken : t.taken <+: t'.taken

/-- What a write of `data` makes of a transport: some of it has been written. -/
structure Transport.WritesTo (data : Bytes) (t t' : Transport π) : Prop where
  tls : t'.tls = t.tls
  wire : ∃ n, t'.wire = t.wire ++ data.take n
  taken : t'.taken = t.taken

namespace Transport.ReadsTo

theorem refl (t : Transport π) : t.ReadsTo t := ⟨rfl, rfl, List.prefix_refl _⟩

theorem endStream (t : Transport π) (n : Nat) : t.ReadsTo (t.endStream n) :=
  ⟨rfl, rfl, List.prefix_refl _⟩

theorem take (t : Transport π) (n : Nat) : t.ReadsTo (t.take n) :=
  ⟨rfl, rfl, List.prefix_append _ _⟩

theorem trans {t t' t'' : Transport π} (h : t.ReadsTo t') (h' : t'.ReadsTo t'') :
    t.ReadsTo t'' :=
  ⟨h'.tls.trans h.tls, h'.wire.trans h.wire, h.taken.trans h'.taken⟩

theorem awaitLine (t : Transport π) : t.ReadsTo t.awaitLine.2.2 := by
  unfold Transport.awaitLine
  split
  · exact .take t _
  · exact .take t _

theorem readUntilLf (t : Transport π) (ev : IoEvent) : t.ReadsTo (t.readUntilLf ev).2.2 := by
  cases ev with
  | ready => exact .awaitLine t
  | eof n => exact (ReadsTo.endStream t n).trans (.awaitLine _)
  | fails error n => exact .take t _
  | elapsed n => exact .take t _
  | dropped n => exact .take t _

theorem flush (t : Transport π) (ev : IoEvent) : t.ReadsTo (t.flush ev).2 := by
  cases ev with
  | eof n => exact .endStream t n
  | ready | fails error n | elapsed n | dropped n => exact .refl t

end Transport.ReadsTo

theorem available_isPrefix (t : Transport π) : t.available <+: t.unread := by
  unfold Transport.available
  split
  · exact List.prefix_refl _
  · exact List.take_prefix _ _

theorem taken_take {t : Transport π} {bytes : Bytes} (h : bytes <+: t.available) :
    (t.take bytes.length).taken = t.taken ++ bytes := by
  have hunread := h.trans (available_isPrefix t)
  rw [Transport.take, ← List.prefix_iff_eq_take.mp hunread]

theorem taken_awaitLine (t : Transport π) :
    t.awaitLine.2.2.taken = t.taken ++ t.awaitLine.2.1 := by
  unfold Transport.awaitLine
  split
  · rename_i line rest hbreak
    obtain ⟨text, -, rfl, havail⟩ := Delimited.breakAfter_eq_some.mp hbreak
    refine taken_take ⟨rest, ?_⟩
    rw [havail, List.append_assoc]
    rfl
  · exact taken_take (List.prefix_refl _)

theorem taken_giveUp (t : Transport π) (n : Nat) (e : IoEnd) :
    (t.giveUp n e).2.2.taken = t.taken ++ (t.giveUp n e).2.1 :=
  taken_take ((List.take_prefix _ _).trans (List.takeWhile_prefix _))

/-- What a wait for a line has taken is the line, or the part of it that has come. -/
theorem taken_readUntilLf (t : Transport π) (ev : IoEvent) :
    (t.readUntilLf ev).2.2.taken = t.taken ++ (t.readUntilLf ev).2.1 := by
  cases ev with
  | ready => exact taken_awaitLine t
  | eof n => exact taken_awaitLine (t.endStream n)
  | fails error n => exact taken_giveUp t n _
  | elapsed n => exact taken_giveUp t n _
  | dropped n => exact taken_giveUp t n _

theorem Transport.WritesTo.writeAll [Peer π] (t : Transport π) (data : Bytes) (ev : IoEvent) :
    t.WritesTo data (t.writeAll data ev).2 := by
  cases ev with
  | ready => exact ⟨rfl, ⟨data.length, by rw [List.take_length]; rfl⟩, rfl⟩
  | eof n => exact ⟨rfl, ⟨data.length, by rw [List.take_length]; rfl⟩, rfl⟩
  | fails error n => exact ⟨rfl, ⟨n, rfl⟩, rfl⟩
  | elapsed n => exact ⟨rfl, ⟨n, rfl⟩, rfl⟩
  | dropped n => exact ⟨rfl, ⟨n, rfl⟩, rfl⟩

/-- A condition that no read touches: what reads change is how much has been taken,
and the buffers and the capabilities. -/
class ReadStable (P : World π → Prop) : Prop where
  readUntilLf : ∀ w t, w.conn.transport = some t → P w →
    P (w.setTransport (t.readUntilLf w.nextEvent).2.2).tick
  flush : ∀ w t, w.conn.transport = some t → P w → P (w.setTransport (t.flush w.nextEvent).2).tick
  lineScratch : ∀ w line, P w → P (w.setLineScratch line)
  bodyPool : ∀ w pool, P w → P { w with conn := { w.conn with bodyPool := pool } }
  capabilities : ∀ w (caps : NntpCapabilities), caps.HasContent → P w →
    P { w with conn := { w.conn with capabilities := caps } }

/-- It is enough to know what a read makes of a transport. -/
theorem ReadStable.of_readsTo {P : World π → Prop}
    (transport : ∀ w t t', w.conn.transport = some t → t.ReadsTo t' → P w →
      P (w.setTransport t').tick)
    (lineScratch : ∀ w line, P w → P (w.setLineScratch line))
    (bodyPool : ∀ w pool, P w → P { w with conn := { w.conn with bodyPool := pool } })
    (capabilities : ∀ w (caps : NntpCapabilities), caps.HasContent → P w →
      P { w with conn := { w.conn with capabilities := caps } }) :
    ReadStable P where
  readUntilLf w t ht := transport w t _ ht (.readUntilLf t w.nextEvent)
  flush w t ht := transport w t _ ht (.flush t w.nextEvent)
  lineScratch := lineScratch
  bodyPool := bodyPool
  capabilities := capabilities

instance {P : World π → Prop} [IoStable P] : ReadStable P :=
  .of_readsTo (fun w t t' ht _ h => IoStable.transport w t t' ht h) IoStable.lineScratch
    IoStable.bodyPool IoStable.capabilities

def Admits [Peer π] (P : World π → Prop) (data : Bytes) : Prop :=
  ∀ w t, w.conn.transport = some t → P w →
    P (w.setTransport (t.writeAll data w.nextEvent).2).tick

theorem admits_of_ioStable [Peer π] {P : World π → Prop} [IoStable P] (data : Bytes) :
    Admits P data :=
  fun w t ht h => IoStable.transport w t _ ht h

section Readers

variable {P : World π → Prop}

theorem preserves_settle (timedOut : NntpError) (e : IoEnd) :
    Preserves P (settle timedOut e) := by
  cases e with
  | done => exact preserves_pure ()
  | failed error => exact preserves_fail _
  | elapsed => exact preserves_fail _
  | dropped => exact preserves_drop

theorem preserves_orError {α : Type} {x : Nntp π α} (h : Preserves P x)
    (herror : ∀ w, P w → P (w.setState .error)) : Preserves P (orError x) :=
  preserves_inspectErr h herror

theorem preserves_onTransport {α : Type} {io : Transport π → IoEvent → α × Transport π}
    (hio : ∀ w t, w.conn.transport = some t → P w →
      P (w.setTransport (io t w.nextEvent).2).tick) : Preserves P (onTransport io) := by
  intro w hw
  cases ht : w.conn.transport with
  | none =>
      unfold wp onTransport
      rw [ht]
      exact hw
  | some t =>
      unfold wp onTransport
      rw [ht]
      exact hio w t ht hw

theorem preserves_requireReady (operation : String) :
    Preserves P (requireReady operation : Nntp π _) := by
  refine preserves_bind preserves_get fun w => ?_
  split
  · exact preserves_fail _
  · exact preserves_pure _

variable [ReadStable P]

theorem preserves_readUntilLf : Preserves P (onTransport fun t ev =>
    let r := t.readUntilLf ev
    ((r.1, r.2.1), r.2.2) : Nntp π (IoEnd × Bytes)) :=
  preserves_onTransport ReadStable.readUntilLf

theorem preserves_readResponseLine : Preserves P (readResponseLine : Nntp π _) := by
  refine preserves_bind preserves_readUntilLf fun r =>
    preserves_bind (preserves_settle _ _) fun _ => ?_
  split
  · exact preserves_fail _
  · split
    · exact preserves_fail _
    · exact preserves_ofExcept _

theorem preserves_readBodyLine (timedOut : NntpError) :
    Preserves P (readBodyLine timedOut : Nntp π _) :=
  preserves_bind (preserves_modify fun w => ReadStable.lineScratch w []) fun _ =>
    preserves_bind preserves_readUntilLf fun r =>
      preserves_bind (preserves_modify fun w => ReadStable.lineScratch w r.2) fun _ =>
        preserves_bind (preserves_settle _ _) fun _ => preserves_pure _

theorem preserves_multilineLoop {maxBytes : Option Nat} (fuel : Nat) (out : Bytes) :
    Preserves P (multilineLoop maxBytes fuel out : Nntp π _) := by
  induction fuel generalizing out with
  | zero => exact preserves_fail _
  | succ fuel ih =>
      rw [multilineLoop]
      refine preserves_bind (preserves_readBodyLine _) fun line => ?_
      split
      · exact preserves_fail _
      split
      · exact preserves_pure _
      split
      · exact preserves_fail _
      · exact ih _

theorem preserves_readMultilineBody : Preserves P (readMultilineBody : Nntp π _) :=
  preserves_bind
    (preserves_bind preserves_get fun _ =>
      preserves_bind (preserves_modify fun w => ReadStable.bodyPool w _) fun _ =>
        preserves_pure _)
    fun _ => preserves_bind preserves_get fun _ => preserves_multilineLoop _ _

theorem preserves_readMultilineBodyBounded (maxBytes : Nat) :
    Preserves P (readMultilineBodyBounded maxBytes : Nntp π _) :=
  preserves_bind preserves_get fun _ => preserves_multilineLoop _ _

theorem preserves_flush : Preserves P (flush : Nntp π _) :=
  preserves_bind
    (preserves_onTransport ReadStable.flush)
    fun _ => preserves_bind preserves_get fun _ => preserves_settle _ _

theorem preserves_setCapabilities {caps : NntpCapabilities} (hcaps : caps.HasContent) :
    Preserves P (setCapabilities caps : Nntp π _) :=
  preserves_modify fun w => ReadStable.capabilities w caps hcaps

variable [Peer π]

omit [ReadStable P] in
theorem preserves_transportWriteAll_of {data : Bytes} (hadmits : Admits P data) :
    Preserves P (transportWriteAll data : Nntp π _) :=
  preserves_bind
    (preserves_onTransport hadmits)
    fun _ => preserves_bind preserves_get fun _ => preserves_settle _ _

omit [ReadStable P] in
theorem preserves_sendCommandNoFlush_of {cmd : String} (hadmits : Admits P (commandLine cmd)) :
    Preserves P (sendCommandNoFlush cmd : Nntp π _) :=
  preserves_transportWriteAll_of hadmits

theorem preserves_sendCommand_of {cmd : String} (hadmits : Admits P (commandLine cmd)) :
    Preserves P (sendCommand cmd : Nntp π _) :=
  preserves_bind (preserves_sendCommandNoFlush_of hadmits) fun _ => preserves_flush

theorem preserves_queryCapabilities (hadmits : Admits P (commandLine "CAPABILITIES")) :
    Preserves P (queryCapabilities : Nntp π _) := by
  refine preserves_bind (preserves_requireReady _) fun _ =>
    preserves_bind (preserves_sendCommand_of hadmits) fun _ =>
      preserves_bind preserves_readResponseLine fun resp => ?_
  split
  · exact preserves_bind preserves_readMultilineBody fun _ =>
      preserves_setCapabilities (hasContent_assumeContentCommands _)
  · exact preserves_setCapabilities NntpCapabilities.hasContent_defaultAssumed

theorem preserves_enterReaderMode (hadmits : Admits P (commandLine "MODE READER")) :
    Preserves P (enterReaderMode : Nntp π _) := by
  refine preserves_bind (preserves_requireReady _) fun _ =>
    preserves_bind (preserves_sendCommand_of hadmits) fun _ =>
      preserves_bind preserves_readResponseLine fun resp => ?_
  split
  · exact preserves_bind preserves_get fun _ => preserves_setCapabilities ⟨rfl, rfl, rfl, rfl⟩
  · exact preserves_bind preserves_get fun _ => preserves_setCapabilities ⟨rfl, rfl, rfl, rfl⟩
  · exact preserves_fail _

theorem preserves_probeCapabilities (hadmits : Admits P (commandLine "CAPABILITIES")) :
    Preserves P (probeCapabilities : Nntp π _) := by
  refine preserves_bind (preserves_attempt (preserves_queryCapabilities hadmits)) fun result => ?_
  split
  · exact preserves_pure _
  · exact preserves_setCapabilities NntpCapabilities.hasContent_defaultAssumed

theorem preserves_switchToReaderMode (hadmits : Admits P (commandLine "MODE READER")) :
    Preserves P (switchToReaderMode : Nntp π _) := by
  refine preserves_bind preserves_get fun w => ?_
  split
  · exact preserves_bind (preserves_attempt (preserves_enterReaderMode hadmits))
      fun _ => preserves_pure _
  · exact preserves_pure _

/-- Where compression may be turned on. -/
theorem preserves_negotiateCompression (hlist : Admits P (commandLine "LIST EXTENSIONS"))
    (hcompress : Admits P (commandLine "XFEATURE COMPRESS GZIP"))
    (hon : ∀ w, P w → P { w with conn := { w.conn with compressEnabled := true } }) :
    Preserves P (negotiateCompression : Nntp π _) := by
  refine preserves_bind (preserves_sendCommand_of hlist) fun _ =>
    preserves_bind preserves_readResponseLine fun resp => ?_
  split
  · refine preserves_bind preserves_readMultilineBody fun data => ?_
    split
    · refine preserves_bind (preserves_sendCommand_of hcompress) fun _ =>
        preserves_bind preserves_readResponseLine fun resp => ?_
      split
      · exact preserves_modify hon
      · exact preserves_pure _
    · exact preserves_pure _
  · exact preserves_pure _

def negotiationCommands : List String :=
  ["CAPABILITIES", "MODE READER", "LIST EXTENSIONS", "XFEATURE COMPRESS GZIP"]

theorem preserves_negotiate (config : ServerConfig)
    (hadmits : ∀ cmd ∈ negotiationCommands, Admits P (commandLine cmd))
    (hon : ∀ w, P w → P { w with conn := { w.conn with compressEnabled := true } }) :
    Preserves P (negotiate config : Nntp π _) := by
  simp only [negotiationCommands, List.forall_mem_cons] at hadmits
  obtain ⟨hcapabilities, hreader, hlist, hcompress, -⟩ := hadmits
  refine preserves_bind (preserves_probeCapabilities hcapabilities) fun _ =>
    preserves_bind (preserves_switchToReaderMode hreader) fun _ => ?_
  rw [compressIfConfigured]
  split
  · exact preserves_bind (preserves_attempt (preserves_negotiateCompression hlist hcompress hon))
      fun _ => preserves_pure _
  · exact preserves_pure _

end Readers

/-! ### Dialling -/

section Dialling

variable {P : World π → Prop} {config : ServerConfig} {dial : Dial π}

theorem preserves_awaitDial (htick : ∀ w, P w → P w.tick) :
    Preserves P (awaitDial : Nntp π Unit) := by
  intro w h
  unfold wp awaitDial
  cases w.nextEvent with
  | ready | eof n | fails error n | elapsed n | dropped n => exact htick w h

theorem preserves_failError {α : Type} (herror : ∀ w, P w → P (w.setState .error)) (e : NntpError) :
    Preserves P (failIn .error e : Nntp π α) :=
  preserves_bind (preserves_modify herror) fun _ => preserves_fail e

theorem preserves_openStream (htick : ∀ w, P w → P w.tick)
    (herror : ∀ w, P w → P (w.setState .error)) :
    Preserves P (openStream config dial : Nntp π Unit) := by
  have htcp : ∀ message : String → String, Preserves P (connectTcp dial message) := by
    intro message
    refine preserves_bind (preserves_awaitDial htick) fun _ => ?_
    cases dial.tcp with
    | error e => exact preserves_failError herror _
    | ok _ => exact preserves_pure ()
  rw [openStream]
  split
  · split
    · exact preserves_failError herror _
    · exact htcp _
  · exact htcp _

theorem preserves_buildTlsConfig : Preserves P (buildTlsConfig config : Nntp π Unit) := by
  rw [buildTlsConfig]
  split
  · exact preserves_pure ()
  · split
    · exact preserves_fail _
    · exact preserves_pure ()

theorem preserves_tlsHandshake (htick : ∀ w, P w → P w.tick)
    (herror : ∀ w, P w → P (w.setState .error)) :
    Preserves P (tlsHandshake config dial : Nntp π Unit) := by
  refine preserves_bind preserves_buildTlsConfig fun _ => ?_
  cases dial.serverName with
  | error e => exact preserves_fail _
  | ok _ =>
      refine preserves_bind (preserves_awaitDial htick) fun _ => ?_
      cases dial.handshake with
      | error e => exact preserves_failError herror _
      | ok _ => exact preserves_pure ()

end Dialling

/-! ### Operations that a condition on the status does not see -/

section Commands

variable {P : World π → Prop} [IoStable P] [Peer π]

theorem preserves_sendCommand (cmd : String) : Preserves P (sendCommand cmd : Nntp π _) :=
  preserves_sendCommand_of (admits_of_ioStable _)

end Commands

/-! ### Healthy connections -/

section Healthy

/-- `P` holds where the computation returns; nothing is said of the other endings. -/
def returns {ε σ α : Type} (P : σ → Prop) : Post ε σ α := ⟨fun _ => P, fun _ _ => True, fun _ => True⟩

theorem returns_seq {ε σ α β : Type} {P R : σ → Prop} {x : Comp ε σ α} {f : α → Comp ε σ β} {s : σ}
    (hx : wp x (returns P) s) (hf : ∀ a s', P s' → wp (f a) (returns R) s') :
    wp (x >>= f) (returns R) s :=
  wp_seq hx hf (fun _ _ h => h) (fun _ h => h)

theorem returns_of_preserves {ε σ α : Type} {P : σ → Prop} {x : Comp ε σ α} {s : σ}
    (h : Preserves P x) (hs : P s) : wp x (returns P) s :=
  wp_mono (h s hs) (fun _ _ h => h) (fun _ _ _ => trivial) (fun _ _ => trivial)

def HasTransport (w : World π) : Prop := OfStatus (fun _ b => b = true) w

instance : IoStable (HasTransport : World π → Prop) :=
  inferInstanceAs (IoStable (OfStatus fun _ b => b = true))

theorem isHealthy_iff {c : NntpConnection π} :
    c.isHealthy = true ↔ c.state = .ready ∧ c.transport.isSome = true := by
  constructor
  · intro h
    simp only [NntpConnection.isHealthy, NntpConnection.isConnected, Bool.and_eq_true,
      decide_eq_true_eq] at h
    exact ⟨h.1, h.2.1⟩
  · rintro ⟨hs, ht⟩
    simp [NntpConnection.isHealthy, NntpConnection.isConnected, hs, ht]

variable [Peer π] {w : World π}

/-- A ping that returns leaves a connection that can be handed out. -/
theorem ping_healthy (h : HasTransport w) :
    wp ping (returns fun w' => w'.conn.isHealthy = true) w := by
  have hrequest : Preserves HasTransport (request "DATE" : Nntp π _) :=
    preserves_bind (preserves_modify fun _ h => h) fun _ =>
      preserves_bind (preserves_orError (preserves_sendCommand _) fun _ h => h) fun _ =>
        preserves_orError preserves_readResponseLine fun _ h => h
  refine returns_seq (returns_of_preserves (preserves_requireReady _) h) fun _ w₁ h₁ =>
    returns_seq (returns_of_preserves hrequest h₁) fun resp w₂ h₂ => ?_
  split
  case h_7 => exact isHealthy_iff.mpr ⟨rfl, h₂⟩
  all_goals trivial

theorem sendPassword_healthy (config : ServerConfig) (h : HasTransport w) :
    wp (sendPassword config) (returns fun w' => w'.conn.isHealthy = true) w := by
  rw [sendPassword]
  split
  · trivial
  · refine returns_seq (returns_of_preserves (preserves_sendCommand _) h) fun _ w₁ h₁ =>
      returns_seq (returns_of_preserves preserves_readResponseLine h₁) fun resp w₂ h₂ => ?_
    split
    case h_1 => exact isHealthy_iff.mpr ⟨rfl, h₂⟩
    all_goals trivial

theorem authenticate_healthy (config : ServerConfig) (h : HasTransport w) :
    wp (authenticate config) (returns fun w' => w'.conn.isHealthy = true) w := by
  refine returns_seq (returns_of_preserves (P := HasTransport) (preserves_modify fun _ h => h) h)
    fun _ w₀ h₀ => ?_
  split
  · trivial
  · refine returns_seq (returns_of_preserves (preserves_sendCommand _) h₀) fun _ w₁ h₁ =>
      returns_seq (returns_of_preserves preserves_readResponseLine h₁) fun resp w₂ h₂ => ?_
    split
    case h_1 => exact isHealthy_iff.mpr ⟨rfl, h₂⟩
    case h_2 | h_3 => exact sendPassword_healthy config h₂
    all_goals trivial

theorem establish_healthy (config : ServerConfig) (dial : Dial π) :
    wp (establish config dial) (returns fun w' => w'.conn.isHealthy = true) w := by
  have hopen : ∀ w : World π, wp (openTransport config dial) (returns HasTransport) w := by
    intro w
    rw [openTransport]
    split
    · exact wp_seq (wp_trivial _ w) (fun _ w' _ => (wp_modify _ w').mpr rfl)
        (fun _ _ _ => trivial) (fun _ _ => trivial)
    · exact rfl
  have hwelcome : ∀ w : World π, HasTransport w → wp readWelcome (returns HasTransport) w := by
    intro w hw
    refine returns_seq (returns_of_preserves preserves_readResponseLine hw) fun resp w₁ h₁ => ?_
    split
    case h_1 | h_2 => exact h₁
    all_goals trivial
  refine wp_seq (wp_trivial _ w) (fun _ w₁ _ => ?_) (fun _ _ _ => trivial) (fun _ _ => trivial)
  refine wp_seq (wp_trivial _ w₁) (fun _ w₂ _ => ?_) (fun _ _ _ => trivial) (fun _ _ => trivial)
  refine returns_seq (hopen w₂) fun _ w₃ h₃ => returns_seq (hwelcome w₃ h₃) fun _ w₄ h₄ => ?_
  split
  · exact authenticate_healthy config h₄
  · exact isHealthy_iff.mpr ⟨rfl, h₄⟩

/-- The time limit of `connect` may end a run of its inner future that is dropped. -/
theorem wp_connect {config : ServerConfig} {dial : Dial π} {Q : Post NntpError (World π) Unit}
    (h : wp (connectInner config dial) Q w)
    (helapsed : ∀ e w', Q.dropped w' → Q.err e (w'.tick.setState .error)) :
    wp (connect config dial) Q w := by
  unfold wp at h ⊢
  rw [connect]
  cases hrun : connectInner config dial w with
  | ok a w' =>
      rw [hrun] at h
      exact h
  | err e w' =>
      rw [hrun] at h
      exact h
  | dropped w' =>
      rw [hrun] at h
      dsimp only
      split
      · exact helapsed _ w' h
      · exact h

/-- A connect that returns leaves a connection that can be handed out. -/
theorem connect_healthy (config : ServerConfig) (dial : Dial π) :
    wp (connect config dial) (returns fun w' => w'.conn.isHealthy = true) w := by
  have hinner : wp (connectInner config dial) (returns fun w' => w'.conn.isHealthy = true) w := by
    refine returns_seq (establish_healthy config dial) fun _ w₁ h₁ => ?_
    have hkept : Preserves (OfStatus fun s b => s = .ready ∧ b = true) (negotiate config : Nntp π _) :=
      preserves_negotiate config (fun _ _ => admits_of_ioStable _) fun _ h => h
    refine wp_mono (returns_of_preserves hkept (isHealthy_iff.mp h₁))
      (fun _ _ h => isHealthy_iff.mpr h) (fun _ _ _ => trivial) (fun _ _ => trivial)
  exact wp_connect hinner fun _ _ _ => trivial

/-- The exchanges of the negotiation are attempts. -/
theorem neverFails_negotiate {config : ServerConfig} :
    NeverFails (negotiate config : Nntp π Unit) := by
  have hprobe : NeverFails (probeCapabilities : Nntp π Unit) := by
    refine neverFails_bind (neverFails_attempt _) fun result => ?_
    split
    · exact neverFails_pure _
    · exact neverFails_modify _
  have hreader : NeverFails (switchToReaderMode : Nntp π Unit) := by
    refine neverFails_bind neverFails_get fun w => ?_
    split
    · exact neverFails_bind (neverFails_attempt _) fun _ => neverFails_pure _
    · exact neverFails_pure _
  refine neverFails_bind hprobe fun _ => neverFails_bind hreader fun _ => ?_
  rw [compressIfConfigured]
  split
  · exact neverFails_bind (neverFails_attempt _) fun _ => neverFails_pure _
  · exact neverFails_pure _

end Healthy

end NzbNntp
