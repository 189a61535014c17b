import NzbNntp.Connection.Compression
import NzbNntp.Pipeline.Exclusive
import NzbNntp.Pipeline.Lines

/-!
The life of a connection: any operations on it, one after the other, each with the
events that await it. A session can be quit and the connection reconnected, with
another configuration and to another server.
-/

namespace NzbNntp

open Interruptible

/-- An operation on a connection. A pipeline comes with the requests it has by then. -/
inductive Op (π : Type) where
  | connect (config : ServerConfig) (dial : Dial π)
  | quit
  | call (c : Call)
  | disableCompression
  | releaseBodyBuffer (buf : Bytes) (capacity : Nat)
  | flushSends (p : Pipeline)
  | receiveOne (p : Pipeline)
  | processAll (p : Pipeline)
  | execute (p : StatPipeline)
  | release

variable {π : Type} [Peer π]

def Op.run (gz : GzDecoder) : Op π → World π → World π
  | .connect config dial, w => (NzbNntp.connect config dial w).state
  | .quit, w => (NzbNntp.quit w).state
  | .call c, w => (c.run gz w).state
  | .disableCompression, w => { w with conn := w.conn.disableCompression }
  | .releaseBodyBuffer buf capacity, w => { w with conn := w.conn.releaseBodyBuffer buf capacity }
  | .flushSends p, w => (NzbNntp.flushSends (p, w)).state.2
  | .receiveOne p, w => (NzbNntp.receiveOne (p, w)).state.2
  | .processAll p, w => (NzbNntp.processAll (p, w)).state.2
  | .execute p, w => (NzbNntp.execute (p, w)).state.2
  | .release, w => w.released

abbrev History (π : Type) : Type := List (Op π × List IoEvent)

def World.await (w : World π) (events : List IoEvent) : World π := { w with events }

def History.run (gz : GzDecoder) (ops : History π) (w : World π) : World π :=
  ops.foldl (fun w op => op.1.run gz (w.await op.2)) w

/-! ### The compression flag -/

/-- What an operation leaves of the flag: a `connect` may turn it on, and
`disable_compression` turns it off. -/
def Op.effect (on : Prop) (w : World π) : Op π → Prop
  | .connect config dial => on ∨ Confirmed config dial w
  | .disableCompression => False
  | _ => on

/-- Whether compression has been confirmed by now, and not been turned off since: `on`
tells whether it was when these operations began. -/
def History.Lingers (gz : GzDecoder) : History π → World π → Prop → Prop
  | [], _, on => on
  | (op, events) :: later, w, on =>
      History.Lingers gz later (op.run gz (w.await events)) (op.effect on (w.await events))

/-! ### What an operation keeps -/

section Settings

variable {P : World π → Prop} [OfSettings P] {gz : GzDecoder} {w : World π}

theorem keeps_transportWriteAll (data : Bytes) :
    Preserves P (orError (transportWriteAll data) : Nntp π Unit) :=
  preserves_orErrorIn (preserves_transportWriteAll_of (admits_of_ioStable data))

theorem keeps_postWith {writeLines : Nntp π Unit} (hlines : Preserves P writeLines) :
    Preserves P (postWith writeLines) := by
  have htransport : Preserves P (requireTransport : Nntp π Unit) := by
    refine preserves_bind preserves_get fun w => ?_
    split
    · exact preserves_fail _
    · exact preserves_pure _
  have hrequest : Preserves P (request "POST" : Nntp π _) :=
    preserves_bind (preserves_setState _) fun _ =>
      preserves_bind (preserves_orErrorIn (preserves_sendCommand _)) fun _ =>
        preserves_orErrorIn preserves_readResponseLine
  refine preserves_bind (preserves_requireReady _) fun _ => preserves_bind hrequest fun status => ?_
  split
  case h_1 =>
    exact preserves_bind htransport fun _ => preserves_bind hlines fun _ =>
      preserves_bind (keeps_transportWriteAll _) fun _ =>
        preserves_bind (preserves_orErrorIn preserves_readResponseLine) fun _ =>
          preserves_returnReady _
  case h_2 => exact preserves_returnReady _
  all_goals exact preserves_failIn _ _

theorem keeps_postLines (lines : List String) : Preserves P (postLines lines : Nntp π Unit) := by
  induction lines with
  | nil => exact preserves_pure ()
  | cons line rest ih =>
      rw [postLines]
      split
      · exact preserves_bind (keeps_transportWriteAll _) fun _ => ih
      · exact preserves_bind (keeps_transportWriteAll _) fun _ => ih

theorem keeps_postBytesLoop (article : Bytes) (fuel start : Nat) :
    Preserves P (postBytesLoop article fuel start : Nntp π Unit) := by
  induction fuel generalizing start with
  | zero => exact preserves_pure ()
  | succ fuel ih =>
      rw [postBytesLoop]
      have hrest : ∀ line next, Preserves P (do
          orError (transportWriteAll line)
          orError (transportWriteAll crlf)
          postBytesLoop article fuel next : Nntp π Unit) := fun line next =>
        preserves_bind (keeps_transportWriteAll _) fun _ =>
          preserves_bind (keeps_transportWriteAll _) fun _ => ih next
      split
      · dsimp only
        split
        · exact preserves_bind (keeps_transportWriteAll _) fun _ => hrest _ _
        · exact hrest _ _
      · exact preserves_pure ()

/-- A call, and what it does with a connection after the prefix of a body. -/
theorem Call.keeps_run (c : Call)
    (hretire : ∀ mid maxBytes, c = .fetchBodyPrefix mid maxBytes →
      ∀ result, Preserves P (retireUnlessComplete result : Nntp π _)) : Preserves P (c.run gz) := by
  intro w h
  cases hcmd : c.command w.conn.capabilities with
  | some cmd =>
      exact c.utters_run hcmd hretire
        ⟨fun h => preserves_sendCommand _ _ h, fun h => h, fun h => h, OfTransport.setState _ _⟩ h
  | none =>
      cases c with
      | postArticle article => exact keeps_postWith (keeps_postLines _) w h
      | postArticleBytes article => exact keeps_postWith (keeps_postBytesLoop _ _ _) w h
      | _ => cases hcmd

theorem Op.keeps (op : Op π)
    (hconnect : ∀ config dial, op = .connect config dial →
      Preserves P (NzbNntp.connect config dial))
    (hdisable : op = .disableCompression → P { w with conn := w.conn.disableCompression })
    (hcall : ∀ c : Call, Preserves P (c.run gz)) (h : P w) : P (op.run gz w) := by
  have herror : ∀ w : World π, P w → P (w.setState .error) := fun w => OfTransport.setState w _
  cases op with
  | connect config dial => exact (hconnect config dial rfl).state h
  | disableCompression => exact hdisable rfl
  | quit =>
      have hclosed := fun (w : World π) (h : P w) =>
        OfTransport.setState _ ConnectionState.disconnected (OfSettings.closed w h)
      exact (preserves_quit (admits_of_ioStable _) hclosed).state h
  | call c => exact (hcall c).state h
  | releaseBodyBuffer buf capacity =>
      rw [Op.run, NntpConnection.releaseBodyBuffer]
      split
      · exact ReadStable.bodyPool w _ h
      · exact h
  | flushSends p =>
      exact (preserves_flushSends herror fun _ => admits_of_ioStable _).state (s := (p, w)) h
  | receiveOne p => exact (preserves_receiveOne herror).state (s := (p, w)) h
  | processAll p =>
      have hloop : Preserves (fun s : Pipeline × World π => P s.2) NzbNntp.processAll :=
        preserves_bind preserves_get fun _ =>
          preserves_processLoop herror (fun _ => admits_of_ioStable _) _ _
      exact hloop.state (s := (p, w)) h
  | execute p => exact (preserves_execute fun _ => admits_of_ioStable _).state (s := (p, w)) h
  | release =>
      rw [Op.run, World.released]
      split
      · exact h
      · exact OfSettings.closed w h

end Settings

/-! ### The compression flag -/

section Flag

variable {b : Bool} {gz : GzDecoder} {w : World π}

/-- `fetch_body_prefix` turns the flag off where it gives the connection up, but it
does not begin with the flag on. -/
theorem compresses_fetchBodyPrefix (mid : String) (maxBytes : Nat) :
    Preserves (Compresses b) (fetchBodyPrefix mid maxBytes : Nntp π _) := by
  intro w h
  cases b with
  | true =>
      rw [fetchBodyPrefix, wp_bind, wp_get]
      dsimp only
      split
      · exact h
      · rw [if_pos (show w.conn.compressEnabled = true from h)]
        exact h
  | false =>
      have hretire : ∀ result, Preserves (Compresses false)
          (retireUnlessComplete result : Nntp π BodyPrefixResponse) := by
        intro result
        rw [retireUnlessComplete]
        split
        · exact preserves_returnReady _
        · exact preserves_bind (preserves_modify fun _ _ => rfl) fun _ =>
            preserves_bind (preserves_setState _) fun _ => preserves_pure _
      exact utters_fetchBodyPrefix hretire
        ⟨fun h => preserves_sendCommand _ _ h, fun h => h, fun h => h, fun h => h⟩ h

/-- No call touches the flag. -/
theorem Call.compresses_run (c : Call) : Preserves (Compresses b : World π → Prop) (c.run gz) := by
  by_cases hprefix : ∃ mid maxBytes, c = .fetchBodyPrefix mid maxBytes
  · obtain ⟨mid, maxBytes, rfl⟩ := hprefix
    exact compresses_fetchBodyPrefix mid maxBytes
  · exact c.keeps_run fun mid maxBytes hc => absurd ⟨mid, maxBytes, hc⟩ hprefix

theorem Op.tells (op : Op π) (h : Compresses b w) :
    (op.run gz w).conn.compressEnabled = true ↔ op.effect (b = true) w := by
  have hkept : Compresses b (op.run gz w) → ((op.run gz w).conn.compressEnabled = true ↔ b = true) :=
    fun h => by rw [show (op.run gz w).conn.compressEnabled = b from h]
  cases op with
  | connect config dial => exact wp_always_iff.mp (wp_connect_tells h)
  | disableCompression => exact iff_of_false Bool.false_ne_true id
  | _ =>
      refine hkept (Op.keeps _ ?_ ?_ Call.compresses_run h)
      · intro config dial hop
        cases hop
      · intro hop
        cases hop

/-- The flag after a history. -/
theorem History.tells (ops : History π) {on : Prop} (h : w.conn.compressEnabled = true ↔ on) :
    (History.run gz ops w).conn.compressEnabled = true ↔ History.Lingers gz ops w on := by
  induction ops generalizing w on with
  | nil => exact h
  | cons op ops ih =>
      obtain ⟨op, events⟩ := op
      refine ih ?_
      have hnow : Compresses (w.await events).conn.compressEnabled (w.await events) := rfl
      have hop : (op.run gz (w.await events)).conn.compressEnabled = true ↔ _ := op.tells hnow
      rw [hop, ← propext h]
      rfl

/-- **When the flag describes the session.** After any history of operations, a
`connect` that returns leaves the flag on exactly if its own session has confirmed
compression, if and only if no confirmation of an earlier session lingers, or this
session has confirmed it as well. -/
theorem compression_flag_current_iff (gz : GzDecoder) (serverId : String) (ops : History π)
    (config : ServerConfig) (dial : Dial π) (events : List IoEvent) (w' : World π)
    (hconnect : connect config dial
      ((History.run gz ops { conn := .new serverId }).await events) = .ok () w') :
    (w'.conn.compressEnabled = true ↔
        Confirmed config dial ((History.run gz ops { conn := .new serverId }).await events)) ↔
      (¬ History.Lingers gz ops ({ conn := .new serverId } : World π) False ∨
        Confirmed config dial ((History.run gz ops { conn := .new serverId }).await events)) := by
  have hfresh : ({ conn := .new serverId } : World π).conn.compressEnabled = true ↔ False :=
    iff_of_false Bool.false_ne_true id
  rw [← History.tells ops hfresh]
  generalize hw : (History.run gz ops { conn := .new serverId }).await events = w at hconnect ⊢
  have hlingers : (History.run gz ops { conn := .new serverId }).conn.compressEnabled =
      w.conn.compressEnabled := by rw [← hw]; rfl
  have hnow : Compresses w.conn.compressEnabled w := rfl
  have htells := wp_ok (wp_connect_tells hnow) hconnect
  rw [hlingers]
  change (w'.conn.compressEnabled = true ↔ _ ∨ _) at htells
  rw [htells]
  tauto

end Flag

def gzipServer : ReplyServer where
  answer heard :=
    if heard.getLast? = some listExtensions then
      { status := ⟨Text.utf8 "202 extensions\r", by decide⟩
        block := [⟨Text.utf8 "XFEATURE COMPRESS GZIP\r", by decide⟩]
        terminator := [dot, cr, lf]
        proper := by decide
        terminates := isTerminator_dotCrLf }
    else .bare (Text.utf8 "290 on\r") (by decide)

def dialGzip : Dial ReplyServer where
  tcp := .ok ()
  serverName := .ok ()
  handshake := .ok ()
  peer := gzipServer
  greeting := Text.utf8 "200 welcome\r\n"

def gzipTurnedOff : History ReplyServer :=
  [(.connect { ssl := false, compress := true } dialGzip, []), (.disableCompression, []), (.quit, [])]

/-- After it the flag describes the next session, with compression or without. -/
theorem compression_flag_current_iff_on_gzip :
    (History.run rawDecoder (gzipTurnedOff.take 1) { conn := .new "news" }).conn.compressEnabled =
        true ∧
      (∃ w', connect { ssl := false, compress := true } dialGzip
          ((History.run rawDecoder gzipTurnedOff { conn := .new "news" }).await []) = .ok () w' ∧
        w'.conn.compressEnabled = true ∧ Confirmed { ssl := false, compress := true } dialGzip
          ((History.run rawDecoder gzipTurnedOff { conn := .new "news" }).await [])) ∧
      ∃ w', connect { ssl := false } dialGzip
          ((History.run rawDecoder gzipTurnedOff { conn := .new "news" }).await []) = .ok () w' ∧
        w'.conn.compressEnabled = false ∧ ¬ Confirmed { ssl := false } dialGzip
          ((History.run rawDecoder gzipTurnedOff { conn := .new "news" }).await []) := by
  have hcurrent := compression_flag_current_iff rawDecoder "news" gzipTurnedOff
  obtain ⟨w₁, hconnect₁, hon⟩ : ∃ w', connect { ssl := false, compress := true } dialGzip
      ((History.run rawDecoder gzipTurnedOff { conn := .new "news" }).await []) = .ok () w' ∧
        w'.conn.compressEnabled = true := ⟨_, rfl, rfl⟩
  obtain ⟨w₂, hconnect₂, hoff⟩ : ∃ w', connect { ssl := false } dialGzip
      ((History.run rawDecoder gzipTurnedOff { conn := .new "news" }).await []) = .ok () w' ∧
        w'.conn.compressEnabled = false := ⟨_, rfl, rfl⟩
  refine ⟨rfl, ⟨w₁, hconnect₁, hon, ?_⟩, w₂, hconnect₂, hoff, fun hconfirmed => ?_⟩
  · exact ((hcurrent _ _ _ _ hconnect₁).mpr (.inl id)).mp hon
  · have hflag := ((hcurrent _ _ _ _ hconnect₂).mpr (.inl id)).mpr hconfirmed
    rw [hoff] at hflag
    cases hflag

/-- `quit` does not turn the flag off: it is still on in a later session without
compression. -/
theorem compression_flag_can_be_stale :
    ¬ ∀ (gz : GzDecoder) (ops : History ReplyServer) (config : ServerConfig)
        (dial : Dial ReplyServer) (w' : World ReplyServer),
      connect config dial ((History.run gz ops { conn := .new "news" }).await []) = .ok () w' →
      (w'.conn.compressEnabled = true ↔
        Confirmed config dial ((History.run gz ops { conn := .new "news" }).await [])) := by
  intro h
  have hstale := h rawDecoder [(.connect { ssl := false, compress := true } dialGzip, []), (.quit, [])]
    { ssl := false } dialGzip _ rfl
  exact absurd (hstale.mp rfl).1 (by decide)

end NzbNntp
