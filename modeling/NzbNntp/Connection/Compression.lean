import NzbNntp.Connection.Lines

/-!
The compression flag. `negotiate_compression` turns it on where the server confirms
it, and `connect` turns it off nowhere: after a `connect` the flag tells whether this
session or an earlier one has been confirmed.
-/

namespace NzbNntp

open Interruptible

variable {π : Type}

/-- A condition on the settings of a connection alone: neither its state nor its
transport matters to it. -/
class OfSettings (P : World π → Prop) : Prop extends OfTransport P where
  opened : ∀ w t, P w → P (w.setTransport t)
  closed : ∀ w, P w → P { w with conn := { w.conn with transport := none } }
  awaited : ∀ w, P w → P w.tick

instance (priority := low) {P : World π → Prop} [OfSettings P] : IoStable P where
  transport w _ t' _ h := OfSettings.awaited _ (OfSettings.opened w t' h)
  lineScratch := ReadStable.lineScratch
  bodyPool := ReadStable.bodyPool
  capabilities := ReadStable.capabilities

def Compresses (b : Bool) (w : World π) : Prop := OfCompression (· = b) w

instance {b : Bool} : IoStable (Compresses b : World π → Prop) :=
  inferInstanceAs (IoStable (OfCompression (· = b)))

instance {b : Bool} : OfSettings (Compresses b : World π → Prop) where
  setState _ _ h := h
  opened _ _ h := h
  closed _ h := h
  awaited _ h := h

variable [Peer π] {config : ServerConfig} {dial : Dial π} {b : Bool} {w : World π}

/-! ### The exchanges of a `connect` -/

/-- The first exchange of `negotiate_compression`: whether the server lists the
extension. -/
def compressionOffered : Nntp π Bool := do
  sendCommand "LIST EXTENSIONS"
  let resp ← readResponseLine
  if resp.code = 202 then do
    let data ← readMultilineBody
    pure (supportsCompress data)
  else pure false

/-- The second one: the client sends `XFEATURE COMPRESS GZIP`, and whether it receives
the code 290. -/
def compressionConfirmed : Nntp π Bool := do
  sendCommand "XFEATURE COMPRESS GZIP"
  let resp ← readResponseLine
  pure (resp.code = 290)

def enableCompression : Nntp π Unit :=
  Comp.modify fun w => { w with conn := { w.conn with compressEnabled := true } }

theorem negotiateCompression_eq : (negotiateCompression : Nntp π Unit) = (do
    let offered ← compressionOffered
    if offered then do
      let confirmed ← compressionConfirmed
      if confirmed then enableCompression else pure ()
    else pure ()) := by
  simp only [negotiateCompression, compressionOffered, compressionConfirmed, bind_assoc, pure_bind,
    decide_eq_true_eq]
  refine congrArg _ (funext fun _ => congrArg _ (funext fun resp => ?_))
  split
  · simp only [bind_assoc, pure_bind]
    rfl
  · rfl

def beforeCompression (config : ServerConfig) (dial : Dial π) : Nntp π Unit := do
  establish config dial
  probeCapabilities
  switchToReaderMode

theorem connectInner_eq (config : ServerConfig) (dial : Dial π) :
    connectInner config dial = (do
      beforeCompression config dial
      compressIfConfigured config) := by
  simp only [connectInner, negotiate, beforeCompression, bind_assoc]

/-! ### What a `connect` keeps -/

section Settings

variable {P : World π → Prop} [OfSettings P]

theorem keeps_sendPassword : Preserves P (sendPassword config : Nntp π Unit) := by
  rw [sendPassword]
  split
  · exact preserves_fail _
  · refine preserves_bind (preserves_sendCommand _) fun _ =>
      preserves_bind preserves_readResponseLine fun resp => ?_
    split
    case h_1 => exact preserves_setState _
    all_goals exact preserves_failIn _ _

theorem keeps_authenticate : Preserves P (authenticate config : Nntp π Unit) := by
  refine preserves_bind (preserves_setState _) fun _ => ?_
  split
  · exact preserves_fail _
  · refine preserves_bind (preserves_sendCommand _) fun _ =>
      preserves_bind preserves_readResponseLine fun resp => ?_
    split
    case h_1 => exact preserves_setState _
    case h_2 | h_3 => exact keeps_sendPassword
    all_goals exact preserves_failIn _ _

theorem keeps_establish : Preserves P (establish config dial : Nntp π Unit) := by
  have hawaited : ∀ w, P w → P w.tick := OfSettings.awaited
  have herror : ∀ w, P w → P (w.setState .error) := fun w => OfTransport.setState w _
  have hopen : Preserves P (openTransport config dial : Nntp π Unit) := by
    rw [openTransport]
    split
    · exact preserves_bind (preserves_tlsHandshake hawaited herror) fun _ =>
        preserves_modify fun w => OfSettings.opened w _
    · exact preserves_modify fun w => OfSettings.opened w _
  have hwelcome : Preserves P (readWelcome : Nntp π Unit) := by
    refine preserves_bind preserves_readResponseLine fun resp => ?_
    split
    case h_1 | h_2 => exact preserves_pure ()
    all_goals exact preserves_failIn _ _
  refine preserves_bind (preserves_setState _) fun _ =>
    preserves_bind (preserves_openStream hawaited herror) fun _ =>
      preserves_bind hopen fun _ => preserves_bind hwelcome fun _ => ?_
  split
  · exact keeps_authenticate
  · exact preserves_setState _

theorem keeps_beforeCompression : Preserves P (beforeCompression config dial : Nntp π Unit) :=
  preserves_bind keeps_establish fun _ =>
    preserves_bind (preserves_probeCapabilities (admits_of_ioStable _)) fun _ =>
      preserves_switchToReaderMode (admits_of_ioStable _)

theorem keeps_compressionOffered : Preserves P (compressionOffered : Nntp π _) := by
  refine preserves_bind (preserves_sendCommand _) fun _ =>
    preserves_bind preserves_readResponseLine fun resp => ?_
  split
  · exact preserves_bind preserves_readMultilineBody fun _ => preserves_pure _
  · exact preserves_pure _

theorem keeps_compressionConfirmed : Preserves P (compressionConfirmed : Nntp π _) :=
  preserves_bind (preserves_sendCommand _) fun _ =>
    preserves_bind preserves_readResponseLine fun _ => preserves_pure _

end Settings

/-! ### The flag after a `connect` -/

omit [Peer π] in
/-- A computation that leaves the flag alone, and how it ends. -/
theorem wp_compresses {α : Type} {x : Nntp π α} (hx : Preserves (Compresses b) x)
    (h : Compresses b w) :
    wp x
      ⟨fun a w' => x w = .ok a w' ∧ Compresses b w', fun e w' => x w = .err e w' ∧ Compresses b w',
        fun w' => x w = .dropped w' ∧ Compresses b w'⟩ w :=
  wp_and (wp_run x w) (hx w h)

def FlagTells (b : Bool) (confirmed : Prop) (w : World π) : Prop :=
  w.conn.compressEnabled = true ↔ b = true ∨ confirmed

omit [Peer π] in
theorem Compresses.tells {confirmed : Prop} (h : Compresses b w) (hnot : ¬ confirmed) :
    FlagTells b confirmed w := by
  rw [FlagTells, or_iff_left hnot, show w.conn.compressEnabled = b from h]

def Confirms (w : World π) : Prop :=
  ∃ w₁ w₂, compressionOffered w = .ok true w₁ ∧ compressionConfirmed w₁ = .ok true w₂

theorem wp_negotiateCompression (h : Compresses b w) :
    wp negotiateCompression (always (FlagTells b (Confirms w))) w := by
  rw [negotiateCompression_eq]
  refine wp_seq (wp_compresses keeps_compressionOffered h) ?_ ?_ ?_
  · rintro offered w₁ ⟨hoffered, h₁⟩
    cases offered with
    | false =>
        refine h₁.tells ?_
        rintro ⟨_, _, htrue, -⟩
        cases hoffered.symm.trans htrue
    | true =>
        refine wp_seq (wp_compresses keeps_compressionConfirmed h₁) ?_ ?_ ?_
        · rintro confirmed w₂ ⟨hconfirmed, h₂⟩
          cases confirmed with
          | false =>
              refine h₂.tells ?_
              rintro ⟨_, _, htrue, htrue'⟩
              cases hoffered.symm.trans htrue
              cases hconfirmed.symm.trans htrue'
          | true => exact iff_of_true rfl (.inr ⟨w₁, w₂, hoffered, hconfirmed⟩)
        · rintro e w₂ ⟨herr, h₂⟩
          refine h₂.tells ?_
          rintro ⟨_, _, htrue, htrue'⟩
          cases hoffered.symm.trans htrue
          cases herr.symm.trans htrue'
        · rintro w₂ ⟨hdropped, h₂⟩
          refine h₂.tells ?_
          rintro ⟨_, _, htrue, htrue'⟩
          cases hoffered.symm.trans htrue
          cases hdropped.symm.trans htrue'
  · rintro e w₁ ⟨herr, h₁⟩
    refine h₁.tells ?_
    rintro ⟨_, _, htrue, -⟩
    cases herr.symm.trans htrue
  · rintro w₁ ⟨hdropped, h₁⟩
    refine h₁.tells ?_
    rintro ⟨_, _, htrue, -⟩
    cases hdropped.symm.trans htrue

/-- During this `connect` the client sends `XFEATURE COMPRESS GZIP` and receives the
code 290. -/
def Confirmed (config : ServerConfig) (dial : Dial π) (w : World π) : Prop :=
  config.compress = true ∧ ∃ w₁, beforeCompression config dial w = .ok () w₁ ∧ Confirms w₁

/-- A `connect` turns the flag on if the server confirms compression, and else leaves
it as it was, however it ends. -/
theorem wp_connect_tells (h : Compresses b w) :
    wp (connect config dial) (always (FlagTells b (Confirmed config dial w))) w := by
  refine wp_connect ?_ fun _ _ h => h
  rw [connectInner_eq]
  refine wp_seq (wp_compresses keeps_beforeCompression h) ?_ ?_ ?_
  · rintro _ w₁ ⟨hbefore, h₁⟩
    have hconfirmed : config.compress = true → (Confirms w₁ ↔ Confirmed config dial w) := by
      refine fun hcompress => ⟨fun h => ⟨hcompress, w₁, hbefore, h⟩, ?_⟩
      rintro ⟨-, w₁', hbefore', h⟩
      cases hbefore.symm.trans hbefore'
      exact h
    rw [compressIfConfigured]
    split
    · rename_i hcompress
      rw [← hconfirmed hcompress, wp_bind, wp_attempt]
      exact wp_negotiateCompression h₁
    · rename_i hplain
      exact h₁.tells fun h => hplain h.1
  · rintro e w₁ ⟨herr, h₁⟩
    refine h₁.tells ?_
    rintro ⟨-, _, hbefore, -⟩
    cases herr.symm.trans hbefore
  · rintro w₁ ⟨hdropped, h₁⟩
    refine h₁.tells ?_
    rintro ⟨-, _, hbefore, -⟩
    cases hdropped.symm.trans hbefore

end NzbNntp
