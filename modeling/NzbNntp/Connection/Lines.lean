import NzbNntp.Connection.Calls
import NzbNntp.Connection.Status

/-!
What the operations put on the wire. A command goes out as its text and CRLF, in one
write, and nothing looks at the text: so a call adds the line of its command to the
wire, or a part of it where the write is cut short, and the line is one line for the
server exactly if no argument brings an LF of its own.
-/

namespace NzbNntp

open Interruptible

variable {π : Type}

/-- A condition on the transport alone, which no read touches. -/
class OfTransport (P : World π → Prop) : Prop extends ReadStable P where
  setState : ∀ w s, P w → P (w.setState s)

/-! ### What comes after a status line writes nothing -/

section Handlers

variable {P : World π → Prop} [OfTransport P] {α : Type}

theorem preserves_setState (s : ConnectionState) : Preserves P (setState s : Nntp π Unit) :=
  preserves_modify fun w => OfTransport.setState w s

theorem preserves_failIn (s : ConnectionState) (e : NntpError) :
    Preserves P (failIn s e : Nntp π α) :=
  preserves_bind (preserves_setState s) fun _ => preserves_fail _

theorem preserves_returnReady (a : α) : Preserves P (returnReady a : Nntp π α) :=
  preserves_bind (preserves_setState _) fun _ => preserves_pure _

theorem preserves_orErrorIn {x : Nntp π α} (h : Preserves P x) : Preserves P (orError x) :=
  preserves_orError h fun w => OfTransport.setState w _

end Handlers

section Readers

variable {P : World π → Prop} [ReadStable P]

theorem preserves_readMultilineBodyMaybeDecompress (gz : GzDecoder) :
    Preserves P (readMultilineBodyMaybeDecompress gz : Nntp π _) := by
  refine preserves_bind preserves_readMultilineBody fun raw => preserves_bind preserves_get fun w => ?_
  split
  · split
    · exact preserves_pure _
    · exact preserves_pure _
  · exact preserves_pure _

theorem preserves_readMultilineBodyMaybeDecompressBounded (gz : GzDecoder) (maxBytes : Nat) :
    Preserves P (readMultilineBodyMaybeDecompressBounded gz maxBytes : Nntp π _) := by
  refine preserves_bind (preserves_bind preserves_get fun _ => preserves_multilineLoop _ _)
    fun raw => preserves_bind preserves_get fun w => ?_
  split
  · split
    · exact preserves_fail _
    · split
      · exact preserves_fail _
      · exact preserves_pure _
  · exact preserves_pure _

theorem preserves_readBlockWithLimit (gz : GzDecoder) (limit : Option Nat) :
    Preserves P (readBlockWithLimit gz limit : Nntp π _) := by
  cases limit with
  | none => exact preserves_readMultilineBodyMaybeDecompress gz
  | some maximum => exact preserves_readMultilineBodyMaybeDecompressBounded gz maximum

theorem preserves_readMultilineBodyPrefix (maxBytes : Nat) :
    Preserves P (readMultilineBodyPrefix maxBytes : Nntp π _) := by
  have hloop : ∀ fuel data, Preserves P (prefixLoop maxBytes fuel data : Nntp π _) := by
    intro fuel
    induction fuel with
    | zero => exact fun _ => preserves_fail _
    | succ fuel ih =>
        intro data
        rw [prefixLoop]
        refine preserves_bind (preserves_readBodyLine _) fun line => ?_
        split
        · exact preserves_fail _
        split
        · exact preserves_pure _
        split
        · exact preserves_fail _
        dsimp only
        split
        · exact preserves_pure _
        · exact ih _
  exact preserves_bind preserves_get fun _ => hloop _ _

end Readers

/-! ### Speaking -/

/-- What stands on the wire of the connection, as long as it has one, is `base` and
after it `sent`. -/
def OnWire (base : Option Bytes) (sent : Bytes) (w : World π) : Prop :=
  ∀ t, w.conn.transport = some t → some t.wire = base.map (· ++ sent)

theorem OnWire.read {base : Option Bytes} {sent : Bytes} (w : World π) (t t' : Transport π)
    (ht : w.conn.transport = some t) (hreads : t.ReadsTo t') (h : OnWire base sent w) :
    OnWire base sent (w.setTransport t').tick := by
  intro t₁ ht₁
  obtain rfl : t' = t₁ := Option.some.inj ht₁
  rw [hreads.wire]
  exact h t ht

instance {base : Option Bytes} {sent : Bytes} : OfTransport (OnWire base sent : World π → Prop) where
  toReadStable := .of_readsTo OnWire.read (fun _ _ h => h) (fun _ _ h => h) (fun _ _ _ h => h)
  setState _ _ h := h

theorem onWire_nil (w : World π) : OnWire w.wire [] w := by
  intro t ht
  rw [World.wire, ht]
  simp

theorem OnWire.write {base : Option Bytes} {sent part : Bytes} {w : World π} {t t' : Transport π}
    (h : OnWire base sent w) (ht : w.conn.transport = some t) (hwire : t'.wire = t.wire ++ part) :
    OnWire base (sent ++ part) (w.setTransport t').tick := by
  intro t₁ ht₁
  obtain rfl : t' = t₁ := Option.some.inj ht₁
  cases base with
  | none => cases h t ht
  | some before =>
      have hbefore : t.wire = before ++ sent := Option.some.inj (h t ht)
      rw [hwire, hbefore, List.append_assoc]
      rfl

def PartOnWire (base : Option Bytes) (sent line : Bytes) (w : World π) : Prop :=
  ∃ part, part <+: line ∧ OnWire base (sent ++ part) w

theorem OnWire.part {base : Option Bytes} {sent : Bytes} {w : World π} (h : OnWire base sent w)
    (line : Bytes) : PartOnWire base sent line w :=
  ⟨[], List.nil_prefix, by rwa [List.append_nil]⟩

theorem PartOnWire.left {base : Option Bytes} {sent line : Bytes} {w : World π}
    (h : PartOnWire base sent line w) (line' : Bytes) : PartOnWire base sent (line ++ line') w := by
  obtain ⟨part, hpart, h⟩ := h
  exact ⟨part, hpart.trans (List.prefix_append _ _), h⟩

theorem PartOnWire.right {base : Option Bytes} {sent line line' : Bytes} {w : World π}
    (h : PartOnWire base (sent ++ line) line' w) : PartOnWire base sent (line ++ line') w := by
  obtain ⟨part, hpart, h⟩ := h
  refine ⟨line ++ part, (List.prefix_append_right_inj line).mpr hpart, ?_⟩
  rwa [← List.append_assoc]

/-- With `sent` on the wire already, the computation adds `line`, or a part of it if
it does not return. -/
def speaks {α : Type} (base : Option Bytes) (sent line : Bytes) : Post NntpError (World π) α where
  ok _ := OnWire base (sent ++ line)
  err _ := PartOnWire base sent line
  dropped := PartOnWire base sent line

section Speaking

variable {α β : Type} {base : Option Bytes} {sent line line' : Bytes} {w : World π}
  {x : Nntp π α} {f : α → Nntp π β}

/-- Lines one after the other. -/
theorem speaks_bind (hx : wp x (speaks base sent line) w)
    (hf : ∀ a w', OnWire base (sent ++ line) w' →
      wp (f a) (speaks base (sent ++ line) line') w') :
    wp (x >>= f) (speaks base sent (line ++ line')) w := by
  refine wp_seq hx (fun a w' h => ?_) (fun _ _ h => h.left line') (fun _ h => h.left line')
  refine wp_mono (hf a w' h) (fun _ w'' h'' => ?_) (fun _ _ h'' => h''.right)
    (fun _ h'' => h''.right)
  show OnWire base (sent ++ (line ++ line')) w''
  rw [← List.append_assoc]
  exact h''

theorem speaks_of_preserves (hx : Preserves (OnWire base sent) x) (h : OnWire base sent w) :
    wp x (speaks base sent []) w := by
  refine wp_mono (hx w h) (fun _ w' h' => ?_) (fun _ _ h' => h'.part []) (fun _ h' => h'.part [])
  show OnWire base (sent ++ []) w'
  rw [List.append_nil]
  exact h'

/-- A line, and then nothing. -/
theorem speaks_then (hx : wp x (speaks base sent line) w)
    (hf : ∀ a, Preserves (OnWire base (sent ++ line)) (f a)) :
    wp (x >>= f) (speaks base sent line) w := by
  have h := speaks_bind hx fun a w' h' => speaks_of_preserves (hf a) h'
  rwa [List.append_nil] at h

/-- Nothing, and then a line. -/
theorem then_speaks (hx : Preserves (OnWire base sent) x) (h : OnWire base sent w)
    (hf : ∀ a w', OnWire base sent w' → wp (f a) (speaks base sent line) w') :
    wp (x >>= f) (speaks base sent line) w :=
  wp_seq (hx w h) hf (fun _ _ h' => h'.part line) (fun _ h' => h'.part line)

theorem speaks_orError (hx : wp x (speaks base sent line) w) :
    wp (orError x) (speaks base sent line) w := by
  rw [orError, wp_inspectErr]
  exact wp_mono hx (fun _ _ h => h) (fun _ _ h => h) (fun _ h => h)

variable [Peer π] {cmd : String}

theorem speaks_sendCommandNoFlush (h : OnWire base sent w) :
    wp (sendCommandNoFlush cmd) (speaks base sent (commandLine cmd)) w := by
  cases ht : w.conn.transport with
  | none =>
      simp only [sendCommandNoFlush, wp_bind, wp_onTransport_none ht]
      exact h.part _
  | some t =>
      have hcut : ∀ n : Nat, PartOnWire base sent (commandLine cmd)
          (w.setTransport (t.deliver ((commandLine cmd).take n))).tick :=
        fun n => ⟨_, List.take_prefix n _, h.write ht rfl⟩
      simp only [sendCommandNoFlush, wp_bind, wp_onTransport ht, wp_get]
      cases w.nextEvent with
      | ready => exact h.write ht rfl
      | eof n => exact h.write ht rfl
      | fails error n => exact hcut n
      | elapsed n => exact hcut n
      | dropped n => exact hcut n

theorem speaks_sendCommand (h : OnWire base sent w) :
    wp (sendCommand cmd) (speaks base sent (commandLine cmd)) w :=
  speaks_then (speaks_sendCommandNoFlush h) fun _ => preserves_flush

end Speaking

section Uttering

variable {P Q R : World π → Prop} {α β : Type} {w : World π} {x : Nntp π α} {f : α → Nntp π β}
  {cmd : String}

/-- A return leaves `Q` in force, and every other ending `R`. -/
def utters {α : Type} (Q R : World π → Prop) : Post NntpError (World π) α :=
  ⟨fun _ => Q, fun _ => R, R⟩

variable [Peer π]

/-- How a command goes out: there is `P` before it, `Q` after it, and `R` where it is cut
short. -/
structure Utters (P Q R : World π → Prop) (cmd : String) : Prop where
  send : ∀ {w}, P w → wp (sendCommand cmd) (utters Q R) w
  left : ∀ {w}, P w → R w
  done : ∀ {w}, Q w → R w
  error : ∀ {w}, R w → R (w.setState .error)

theorem utters_then (hutters : Utters P Q R cmd) (hx : wp x (utters Q R) w)
    (hf : ∀ a, Preserves Q (f a)) : wp (x >>= f) (utters Q R) w :=
  wp_seq hx
    (fun a w' h => wp_mono (hf a w' h) (fun _ _ h => h) (fun _ _ h => hutters.done h)
      (fun _ h => hutters.done h))
    (fun _ _ h => h) (fun _ h => h)

theorem then_utters (hutters : Utters P Q R cmd) (hx : Preserves P x) (h : P w)
    (hf : ∀ a w', P w' → wp (f a) (utters Q R) w') : wp (x >>= f) (utters Q R) w :=
  wp_seq (hx w h) hf (fun _ _ h => hutters.left h) (fun _ h => hutters.left h)

variable [OfTransport P] [OfTransport Q]

theorem utters_request
    (hutters : Utters P Q R cmd) (h : P w) : wp (request cmd) (utters Q R) w := by
  refine then_utters hutters (preserves_setState .busy) h fun _ w' h' => ?_
  have hsend : wp (orError (sendCommand cmd)) (utters Q R) w' := by
    rw [orError, wp_inspectErr]
    exact wp_mono (hutters.send h') (fun _ _ h => h) (fun _ _ h => hutters.error h) (fun _ h => h)
  exact utters_then hutters hsend fun _ => preserves_orErrorIn preserves_readResponseLine

/-- The shape of a single-command operation. -/
theorem utters_command {operation : String} {k : NntpResponse → Nntp π α}
    (hutters : Utters P Q R cmd)
    (h : P w) (hk : ∀ status, Preserves Q (k status)) :
    wp (do
      requireReady operation
      let status ← request cmd
      k status) (utters Q R) w :=
  then_utters hutters (preserves_requireReady _) h fun _ _ h' =>
    utters_then hutters (utters_request hutters h') hk

theorem utters_onWire {base : Option Bytes} {sent : Bytes} :
    Utters (OnWire base sent : World π → Prop) (OnWire base (sent ++ commandLine cmd))
      (PartOnWire base sent (commandLine cmd)) cmd where
  send := speaks_sendCommand
  left h := h.part _
  done h := ⟨_, List.prefix_refl _, h⟩
  error h := h

end Uttering

/-- `quit` sends its command and reads the reply as far as it can, and closes. -/
theorem preserves_quit [Peer π] {P : World π → Prop} [ReadStable P]
    (hadmits : Admits P (commandLine "QUIT"))
    (hclosed : ∀ w, P w →
      P { w with conn := { w.conn with transport := none, state := .disconnected } }) :
    Preserves P (quit : Nntp π Unit) := by
  have hclose : Preserves P (do
      Comp.modify fun w => { w with conn := { w.conn with transport := none } }
      setState .disconnected : Nntp π Unit) := hclosed
  have hshut : Preserves P (do
      let closed ← onTransport Transport.flush
      if closed = .dropped then Comp.drop else pure ()
      Comp.modify fun w => { w with conn := { w.conn with transport := none } }
      setState .disconnected : Nntp π Unit) := by
    refine preserves_bind (preserves_onTransport ReadStable.flush) fun closed => ?_
    split
    · exact preserves_bind preserves_drop fun _ => hclose
    · exact hclose
  refine preserves_bind preserves_get fun w => ?_
  split
  · refine preserves_bind (preserves_attempt (preserves_sendCommand_of hadmits)) fun sent => ?_
    cases sent with
    | error e => exact hshut
    | ok _ => exact preserves_bind (preserves_attempt preserves_readResponseLine) fun _ => hshut
  · exact hclose

/-! ### Every handler -/

section Calls

/-- A block read under `orError`, and what is made of it. -/
theorem preserves_block {P : World π → Prop} [OfTransport P] {α β : Type} {x : Nntp π α}
    {f : α → Nntp π β} (hx : Preserves P x) (hf : ∀ a, Preserves P (f a)) :
    Preserves P (orError x >>= f) :=
  preserves_bind (preserves_orErrorIn hx) hf

variable [Peer π] {P Q R : World π → Prop} [OfTransport P] [OfTransport Q] {gz : GzDecoder}
  {w : World π}

theorem utters_fetchArticle {mid : String}
    (hutters : Utters P Q R s!"ARTICLE {normalizeMessageId mid}") (h : P w) :
    wp (fetchArticle gz mid) (utters Q R) w := by
  refine utters_command hutters h fun status => ?_
  split
  case h_1 =>
    exact preserves_block (preserves_readMultilineBodyMaybeDecompress gz)
      fun _ => preserves_returnReady _
  all_goals exact preserves_failIn _ _

theorem utters_fetchHeadNumber {n maxHeaderBytes : Nat}
    (hutters : Utters P Q R s!"HEAD {n}") (h : P w) :
    wp (fetchHeadNumber gz n maxHeaderBytes) (utters Q R) w := by
  rw [fetchHeadNumber, wp_bind, wp_get]
  dsimp only
  split
  · exact hutters.left h
  split
  · exact hutters.left h
  refine utters_command hutters h fun status => ?_
  split
  case h_1 =>
    exact preserves_block (preserves_readMultilineBodyMaybeDecompressBounded gz _)
      fun _ => preserves_returnReady _
  all_goals exact preserves_failIn _ _

theorem utters_statArticle {mid : String}
    (hutters : Utters P Q R s!"STAT {normalizeMessageId mid}") (h : P w) :
    wp (statArticle mid) (utters Q R) w := by
  rw [statArticle, wp_bind, wp_get]
  dsimp only
  split
  · exact hutters.left h
  refine utters_command hutters h fun status => ?_
  split
  case h_1 => exact preserves_returnReady _
  all_goals exact preserves_failIn _ _

theorem utters_ping (hutters : Utters P Q R "DATE") (h : P w) :
    wp ping (utters Q R) w := by
  refine utters_command hutters h fun status => ?_
  split
  case h_7 => exact preserves_returnReady _
  all_goals exact preserves_failIn _ _

theorem utters_group {name : String} (hutters : Utters P Q R s!"GROUP {name}") (h : P w) :
    wp (group name) (utters Q R) w := by
  refine utters_command hutters h fun status => preserves_bind (preserves_setState _) fun _ => ?_
  split
  case h_1 => exact preserves_ofExcept _
  case h_2 => exact preserves_fail _
  all_goals exact preserves_failIn _ _

theorem utters_overviewFormat (hutters : Utters P Q R "LIST OVERVIEW.FMT") (h : P w) :
    wp (overviewFormat gz) (utters Q R) w := by
  refine utters_command hutters h fun status => ?_
  split
  case h_1 =>
    exact preserves_block (preserves_readMultilineBodyMaybeDecompress gz)
      fun _ => preserves_bind (preserves_setState _) fun _ => preserves_ofExcept _
  all_goals exact preserves_failIn _ _

theorem utters_xoverLosslessWithLimit {start stop : Nat} {format : OverviewFormat}
    {limit : Option Nat} (hutters : Utters P Q R s!"XOVER {start}-{stop}") (h : P w) :
    wp (xoverLosslessWithLimit gz start stop format limit) (utters Q R) w := by
  refine utters_command hutters h fun status => ?_
  split
  case h_1 =>
    exact preserves_block (preserves_readBlockWithLimit gz limit) fun _ => preserves_returnReady _
  case h_2 | h_3 => exact preserves_returnReady _
  all_goals exact preserves_failIn _ _

theorem utters_xover {start stop : Nat}
    (hutters : Utters P Q R s!"XOVER {start}-{stop}") (h : P w) :
    wp (xover gz start stop) (utters Q R) w := by
  refine utters_command hutters h fun status => ?_
  split
  case h_1 =>
    exact preserves_block (preserves_readMultilineBodyMaybeDecompress gz)
      fun _ => preserves_returnReady _
  case h_2 | h_3 => exact preserves_returnReady _
  all_goals exact preserves_failIn _ _

theorem utters_xhdr {header : String} {range : ArticleRange}
    (hutters : Utters P Q R s!"XHDR {header} {range.toCommandArg}") (h : P w) :
    wp (xhdr gz header range) (utters Q R) w := by
  refine utters_command hutters h fun status => ?_
  split
  case h_1 =>
    exact preserves_block (preserves_readMultilineBodyMaybeDecompress gz)
      fun _ => preserves_returnReady _
  case h_2 | h_3 => exact preserves_returnReady _
  all_goals exact preserves_failIn _ _

def xpatCommand (header : String) (range : ArticleRange) (patterns : List String) : String :=
  let patternStr := " ".intercalate patterns
  s!"XPAT {header} {range.toCommandArg} {patternStr}"

theorem utters_xpatWithLimit {header : String} {range : ArticleRange} {patterns : List String}
    {limit : Option Nat} (hutters : Utters P Q R (xpatCommand header range patterns)) (h : P w) :
    wp (xpatWithLimit gz header range patterns limit) (utters Q R) w := by
  refine then_utters hutters (preserves_requireReady _) h fun _ w' h' => ?_
  dsimp only
  split
  · exact hutters.left h'
  refine utters_then hutters (utters_request hutters h') fun status => ?_
  split
  case h_1 =>
    exact preserves_block (preserves_readBlockWithLimit gz limit) fun _ => preserves_returnReady _
  case h_2 | h_3 => exact preserves_returnReady _
  all_goals exact preserves_failIn _ _

/-- The command of `fetch_body`: `ARTICLE` where the server lists it and not `BODY`. -/
def fetchBodyCommand (caps : NntpCapabilities) (mid : String) : String :=
  if !caps.haveBody && caps.haveArticle then s!"ARTICLE {normalizeMessageId mid}"
  else s!"BODY {normalizeMessageId mid}"

theorem utters_fetchBody {mid : String}
    (hutters : Utters P Q R (fetchBodyCommand w.conn.capabilities mid)) (h : P w) :
    wp (fetchBody gz mid) (utters Q R) w := by
  rw [fetchBodyCommand] at hutters
  rw [fetchBody, wp_bind, wp_get]
  dsimp only
  split
  · rename_i harticle
    rw [if_pos harticle] at hutters
    exact utters_then hutters (utters_fetchArticle hutters h) fun _ => preserves_pure _
  rename_i hbody
  rw [if_neg hbody] at hutters
  refine utters_command hutters h fun status => ?_
  split
  case h_1 =>
    exact preserves_block (preserves_readMultilineBodyMaybeDecompress gz)
      fun _ => preserves_returnReady _
  all_goals exact preserves_failIn _ _

theorem utters_fetchBodyPrefix {mid : String} {maxBytes : Nat}
    (hretire : ∀ result, Preserves Q (retireUnlessComplete result))
    (hutters : Utters P Q R s!"BODY {normalizeMessageId mid}") (h : P w) :
    wp (fetchBodyPrefix mid maxBytes) (utters Q R) w := by
  rw [fetchBodyPrefix, wp_bind, wp_get]
  dsimp only
  split
  · exact hutters.left h
  split
  · exact hutters.left h
  split
  · exact hutters.left h
  refine utters_command hutters h fun status => ?_
  split
  case h_1 =>
    exact preserves_block (preserves_readMultilineBodyPrefix maxBytes) hretire
  all_goals exact preserves_failIn _ _

theorem utters_listActive {wildmat : Option String}
    (hutters : Utters P Q R (listActiveCommand wildmat)) (h : P w) :
    wp (listActive gz wildmat) (utters Q R) w := by
  refine utters_command hutters h fun status => ?_
  split
  case h_1 =>
    exact preserves_block (preserves_readMultilineBodyMaybeDecompress gz)
      fun _ => preserves_returnReady _
  all_goals exact preserves_failIn _ _

/-- The command of a call, unless the call goes on to post lines of its own. -/
def Call.command (caps : NntpCapabilities) : Call → Option String
  | .fetchArticle mid => some s!"ARTICLE {normalizeMessageId mid}"
  | .fetchHeadNumber n _ => some s!"HEAD {n}"
  | .statArticle mid => some s!"STAT {normalizeMessageId mid}"
  | .ping => some "DATE"
  | .group name => some s!"GROUP {name}"
  | .overviewFormat => some "LIST OVERVIEW.FMT"
  | .xover start stop | .xoverLossless start stop _ | .xoverLosslessBounded start stop _ _ =>
      some s!"XOVER {start}-{stop}"
  | .xhdr header range => some s!"XHDR {header} {range.toCommandArg}"
  | .xpat header range patterns | .xpatBounded header range patterns _ =>
      some (xpatCommand header range patterns)
  | .fetchBody mid => some (fetchBodyCommand caps mid)
  | .fetchBodyPrefix mid _ => some s!"BODY {normalizeMessageId mid}"
  | .listActive wildmat => some (listActiveCommand wildmat)
  | .postArticle _ | .postArticleBytes _ => none

/-- Every call but a posting is a command, and what comes after it writes nothing. -/
theorem Call.utters_run (c : Call) {cmd : String} (hcmd : c.command w.conn.capabilities = some cmd)
    (hretire : ∀ mid maxBytes, c = .fetchBodyPrefix mid maxBytes →
      ∀ result, Preserves Q (retireUnlessComplete result))
    (hutters : Utters P Q R cmd) (h : P w) : wp (c.run gz) (utters Q R) w := by
  cases c with
  | postArticle article => cases hcmd
  | postArticleBytes article => cases hcmd
  | fetchArticle mid => cases hcmd; exact utters_fetchArticle hutters h
  | fetchHeadNumber n maxHeaderBytes => cases hcmd; exact utters_fetchHeadNumber hutters h
  | statArticle mid => cases hcmd; exact utters_statArticle hutters h
  | ping => cases hcmd; exact utters_ping hutters h
  | group name => cases hcmd; exact utters_group hutters h
  | overviewFormat => cases hcmd; exact utters_overviewFormat hutters h
  | xover start stop => cases hcmd; exact utters_xover hutters h
  | xoverLossless start stop format =>
      cases hcmd
      exact (wp_map _ _ w).mpr (utters_xoverLosslessWithLimit hutters h)
  | xoverLosslessBounded start stop format maxBytes =>
      cases hcmd
      change wp (NzbNntp.xoverLosslessBounded gz start stop format maxBytes) (utters Q R) w
      rw [NzbNntp.xoverLosslessBounded]
      split
      · exact hutters.left h
      · exact utters_xoverLosslessWithLimit hutters h
  | xhdr header range => cases hcmd; exact utters_xhdr hutters h
  | xpat header range patterns =>
      cases hcmd
      exact (wp_map _ _ w).mpr (utters_xpatWithLimit hutters h)
  | xpatBounded header range patterns maxBytes =>
      cases hcmd
      change wp (NzbNntp.xpatBounded gz header range patterns maxBytes) (utters Q R) w
      rw [NzbNntp.xpatBounded]
      split
      · exact hutters.left h
      · exact utters_xpatWithLimit hutters h
  | fetchBody mid => cases hcmd; exact utters_fetchBody hutters h
  | fetchBodyPrefix mid maxBytes =>
      cases hcmd
      exact utters_fetchBodyPrefix (hretire mid maxBytes rfl) hutters h
  | listActive wildmat => cases hcmd; exact utters_listActive hutters h

variable {base : Option Bytes} {sent : Bytes}

omit [Peer π] in
/-- What was written is not undone where the connection is given up: there is no
transport left to tell. -/
theorem preserves_retireUnlessComplete (result : BodyPrefixResponse) :
    Preserves (OnWire base sent : World π → Prop) (retireUnlessComplete result) := by
  rw [retireUnlessComplete]
  split
  · exact preserves_returnReady _
  · refine preserves_bind (preserves_modify fun w _ t ht => ?_) fun _ =>
      preserves_bind (preserves_setState _) fun _ => preserves_pure _
    cases ht

/-- A call adds the line of its command to the wire. -/
theorem Call.speaks_run (c : Call) {cmd : String} (hcmd : c.command w.conn.capabilities = some cmd)
    (h : OnWire base sent w) : wp (c.run gz) (speaks base sent (commandLine cmd)) w :=
  c.utters_run hcmd (fun _ _ _ => preserves_retireUnlessComplete) utters_onWire h

def commandLines (cmds : List String) : Bytes := (cmds.map commandLine).flatten

theorem commandLines_cons (cmd : String) (cmds : List String) :
    commandLines (cmd :: cmds) = commandLine cmd ++ commandLines cmds := rfl

theorem commandLines_singleton (cmd : String) : commandLines [cmd] = commandLine cmd :=
  List.append_nil _

def passwordCommands (config : ServerConfig) : List String :=
  (config.password.map passCommand).toList

/-- The commands of the login, of which the second is sent where the server asks for it. -/
def loginCommands (config : ServerConfig) : List String :=
  match config.username with
  | none => []
  | some username => userCommand username :: passwordCommands config

theorem speaks_sendPassword {config : ServerConfig} (h : OnWire base sent w) :
    wp (sendPassword config) (speaks base sent (commandLines (passwordCommands config))) w := by
  rw [sendPassword, passwordCommands]
  cases config.password with
  | none => exact h.part _
  | some password =>
      show wp _ (speaks base sent (commandLines [passCommand password])) w
      rw [commandLines_singleton]
      refine speaks_then (speaks_sendCommand h) fun _ =>
        preserves_bind preserves_readResponseLine fun resp => ?_
      split
      case h_1 => exact preserves_setState _
      all_goals exact preserves_failIn _ _

/-- A login that returns has sent the first of its commands, or all of them. -/
theorem speaks_authenticate {config : ServerConfig} (h : OnWire base [] w) :
    wp (authenticate config)
      ⟨fun _ w' => ∃ said, said <+: loginCommands config ∧ OnWire base (commandLines said) w',
        fun _ => PartOnWire base [] (commandLines (loginCommands config)),
        PartOnWire base [] (commandLines (loginCommands config))⟩ w := by
  rw [authenticate, loginCommands]
  refine wp_seq (preserves_setState .authenticating w h) (fun _ w₁ h₁ => ?_) (fun _ _ h => h.part _)
    (fun _ h => h.part _)
  cases config.username with
  | none => exact h₁.part _
  | some username =>
      dsimp only
      rw [commandLines_cons]
      refine wp_seq (speaks_sendCommand h₁) (fun _ w₂ h₂ => ?_) (fun _ _ h => h.left _)
        (fun _ h => h.left _)
      have hread : Preserves (OnWire base ([] ++ commandLine (userCommand username)))
          (readResponseLine : Nntp π _) := preserves_readResponseLine
      refine wp_seq (hread w₂ h₂) (fun resp w₃ h₃ => ?_)
        (fun _ _ h => (h.part _).right) (fun _ h => (h.part _).right)
      split
      case h_1 =>
        refine ⟨[userCommand username], List.prefix_append _ _, ?_⟩
        rw [commandLines_singleton]
        exact h₃
      case h_2 | h_3 =>
        exact wp_mono (speaks_sendPassword h₃) (fun _ _ h => ⟨_, List.prefix_refl _, h⟩)
          (fun _ _ h => h.right) (fun _ h => h.right)
      all_goals exact (h₃.part _).right

end Calls

/-! ### One line for the server -/

/-- There is one LF in it, its last byte, and a CR before it. -/
def IsCommandLine (line : Bytes) : Prop := ∃ text, lf ∉ text ∧ line = text ++ [cr, lf]

theorem isCommandLine_iff {cmd : String} : IsCommandLine (commandLine cmd) ↔ OneLine cmd := by
  have hline : commandLine cmd = Text.utf8 cmd ++ [cr, lf] := by
    rw [commandLine_eq, List.append_assoc]
    rfl
  rw [OneLine, ← Text.lf_mem_utf8, hline]
  constructor
  · rintro ⟨text, hfree, htext⟩
    rwa [List.append_cancel_right htext]
  · exact fun hfree => ⟨_, hfree, rfl⟩

theorem oneLine_normalizeMessageId_iff {mid : String} :
    OneLine (normalizeMessageId mid) ↔ OneLine mid := by
  refine ⟨fun h => ?_, oneLine_normalizeMessageId⟩
  unfold normalizeMessageId at h
  split at h
  · exact h
  · exact (oneLine_append.mp (oneLine_append.mp h).1).2

theorem oneLine_intercalate_iff {words : List String} :
    OneLine (" ".intercalate words) ↔ ∀ word ∈ words, OneLine word := by
  refine ⟨fun h => ?_, oneLine_intercalate⟩
  induction words with
  | nil => simp
  | cons word words ih =>
      cases words with
      | nil =>
          rw [String.intercalate_singleton] at h
          simpa using h
      | cons next words =>
          rw [String.intercalate_cons_cons, oneLine_append, oneLine_append] at h
          intro w hw
          rcases List.mem_cons.mp hw with rfl | hw
          · exact h.1.1
          · exact ih h.2 w hw

theorem oneLine_prefixed {verb arg : String} (hverb : OneLine verb) :
    OneLine (verb ++ arg) ↔ OneLine arg := by
  rw [oneLine_append, and_iff_right hverb]

theorem oneLine_spaced {words : String} : OneLine (words ++ " ") ↔ OneLine words := by
  rw [oneLine_append, and_iff_left (by decide)]

/-- The command of a call is one line exactly if its arguments are. -/
theorem Call.oneLine_command_iff {caps : NntpCapabilities} {c : Call} {cmd : String}
    (hcmd : c.command caps = some cmd) : OneLine cmd ↔ c.OneLineArgs := by
  cases c with
  | postArticle article => cases hcmd
  | postArticleBytes article => cases hcmd
  | fetchArticle mid | statArticle mid | fetchBodyPrefix mid maxBytes =>
      cases hcmd
      exact (oneLine_prefixed (by decide)).trans oneLine_normalizeMessageId_iff
  | fetchBody mid =>
      cases hcmd
      rw [fetchBodyCommand]
      split
      · exact (oneLine_prefixed (by decide)).trans oneLine_normalizeMessageId_iff
      · exact (oneLine_prefixed (by decide)).trans oneLine_normalizeMessageId_iff
  | fetchHeadNumber n maxHeaderBytes =>
      cases hcmd
      exact iff_of_true ((oneLine_prefixed (by decide)).mpr (oneLine_nat n)) trivial
  | ping | overviewFormat =>
      cases hcmd
      exact iff_of_true (by decide) trivial
  | group name =>
      cases hcmd
      exact oneLine_prefixed (by decide)
  | xover start stop | xoverLossless start stop format
  | xoverLosslessBounded start stop format maxBytes =>
      cases hcmd
      exact iff_of_true (oneLine_range "XOVER " (by decide) start stop) trivial
  | xhdr header range =>
      cases hcmd
      show OneLine ("XHDR " ++ header ++ " " ++ range.toCommandArg) ↔ _
      rw [oneLine_append, oneLine_spaced, oneLine_prefixed (by decide)]
      rfl
  | xpat header range patterns | xpatBounded header range patterns maxBytes =>
      cases hcmd
      show OneLine ("XPAT " ++ header ++ " " ++ range.toCommandArg ++ " " ++
        " ".intercalate patterns) ↔ _
      rw [oneLine_append, oneLine_spaced, oneLine_append, oneLine_spaced,
        oneLine_prefixed (by decide), oneLine_intercalate_iff, and_assoc]
      rfl
  | listActive wildmat =>
      cases hcmd
      cases wildmat with
      | none => exact iff_of_true (by decide) (fun _ h => by cases h)
      | some pattern =>
          refine (oneLine_prefixed (by decide)).trans ⟨fun h p hp => ?_, fun h => h pattern rfl⟩
          cases hp
          exact h

end NzbNntp
