import Mathlib.Data.List.Forall2
import NzbNntp.Connection.Lines

/-!
The transcript of a run: the commands that it writes and the replies that it hears, in
their order. Its steps are the operations on the transport, each as it turns out, so
that nothing stands there which the stream has not brought at that point.
-/

namespace NzbNntp

open Interruptible

inductive Entry where
  | wrote (cmd : String)
  | heard (status : NntpResponse)
  deriving DecidableEq

def Entry.command : Entry → Option String
  | .wrote cmd => some cmd
  | .heard _ => none

def commandsOf (log : List Entry) : List String := log.filterMap Entry.command

@[simp] theorem commandsOf_append (log later : List Entry) :
    commandsOf (log ++ later) = commandsOf log ++ commandsOf later := by
  simp [commandsOf]

@[simp] theorem commandsOf_wrote (cmds : List String) : commandsOf (cmds.map .wrote) = cmds := by
  induction cmds with
  | nil => rfl
  | cons cmd cmds ih => exact congrArg (cmd :: ·) ih

@[simp] theorem commandsOf_heard (replies : List NntpResponse) :
    commandsOf (replies.map .heard) = [] := by
  induction replies with
  | nil => rfl
  | cons reply replies ih => exact ih

theorem commandsOf_heard_single (status : NntpResponse) : commandsOf [.heard status] = [] := rfl

/-- These commands, each of them or a part of its line, and nothing else. -/
def PartsOf (cmds : List String) (bytes : Bytes) : Prop :=
  ∃ parts, List.Forall₂ (fun cmd part => part <+: commandLine cmd) cmds parts ∧
    bytes = parts.flatten

theorem PartsOf.snoc {cmds : List String} {bytes part : Bytes} {cmd : String}
    (h : PartsOf cmds bytes) (hpart : part <+: commandLine cmd) :
    PartsOf (cmds ++ [cmd]) (bytes ++ part) := by
  obtain ⟨parts, hparts, rfl⟩ := h
  exact ⟨parts ++ [part], List.rel_append hparts (.cons hpart .nil), by simp⟩

variable {π : Type} [Peer π]

/-- A way from `w₀` to a world, with what is written and heard on it. A write that is
cut short counts; what a read takes that does not return a status line is not heard. -/
inductive Transcript (w₀ : World π) : List Entry → World π → Prop
  | opened : Transcript w₀ [] w₀
  | wrote {log : List Entry} {w : World π} {t : Transport π} (cmd : String) :
      Transcript w₀ log w → w.conn.transport = some t →
      Transcript w₀ (log ++ [.wrote cmd])
        (w.setTransport (t.writeAll (commandLine cmd) w.nextEvent).2).tick
  | heard {log : List Entry} {w w' : World π} {status : NntpResponse} :
      Transcript w₀ log w → readResponseLine w = .ok status w' →
      Transcript w₀ (log ++ [.heard status]) w'
  | read {log : List Entry} {w : World π} {t : Transport π} :
      Transcript w₀ log w → w.conn.transport = some t →
      Transcript w₀ log (w.setTransport (t.readUntilLf w.nextEvent).2.2).tick
  | flush {log : List Entry} {w : World π} {t : Transport π} :
      Transcript w₀ log w → w.conn.transport = some t →
      Transcript w₀ log (w.setTransport (t.flush w.nextEvent).2).tick
  | aside {log : List Entry} {w w' : World π} :
      Transcript w₀ log w → w'.conn.transport = w.conn.transport → w'.events = w.events →
      Transcript w₀ log w'

/-! ### What a transcript says of the transport -/

def ReadFrom (t : Transport π) (w : World π) : Prop :=
  ∃ t', w.conn.transport = some t' ∧ t.ReadsTo t'

omit [Peer π] in
theorem ReadFrom.read {t : Transport π} (w : World π) (t₁ t₂ : Transport π)
    (ht : w.conn.transport = some t₁) (hreads : t₁.ReadsTo t₂) (h : ReadFrom t w) :
    ReadFrom t (w.setTransport t₂).tick := by
  obtain ⟨t', ht', h⟩ := h
  obtain rfl : t₁ = t' := Option.some.inj (ht.symm.trans ht')
  exact ⟨t₂, rfl, h.trans hreads⟩

omit [Peer π] in
instance {t : Transport π} : ReadStable (ReadFrom t : World π → Prop) :=
  .of_readsTo ReadFrom.read (fun _ _ h => h) (fun _ _ h => h) (fun _ _ _ h => h)

/-- The transport of a session: the one it was opened with, and on its wire the
commands of the transcript, or parts of them, and nothing else. -/
def Carries (t₀ : Transport π) (log : List Entry) (t : Transport π) : Prop :=
  t.tls = t₀.tls ∧ ∃ bytes, t.wire = t₀.wire ++ bytes ∧ PartsOf (commandsOf log) bytes

omit [Peer π] in
theorem Carries.read {t₀ t t' : Transport π} {log : List Entry} (h : Carries t₀ log t)
    (hreads : t.ReadsTo t') : Carries t₀ log t' := by
  obtain ⟨htls, bytes, hwire, hparts⟩ := h
  exact ⟨hreads.tls.trans htls, bytes, hreads.wire.trans hwire, hparts⟩

theorem Transcript.carries {w₀ w : World π} {log : List Entry} {t₀ : Transport π}
    (h : Transcript w₀ log w) (ht₀ : w₀.conn.transport = some t₀) :
    ∃ t, w.conn.transport = some t ∧ Carries t₀ log t := by
  induction h with
  | opened => exact ⟨t₀, ht₀, rfl, [], by simp, [], .nil, rfl⟩
  | @wrote log w t cmd _ ht ih =>
      obtain ⟨t', ht', htls, bytes, hwire, hparts⟩ := ih
      obtain rfl : t = t' := Option.some.inj (ht.symm.trans ht')
      have hwrites := Transport.WritesTo.writeAll t (commandLine cmd) w.nextEvent
      obtain ⟨n, hn⟩ := hwrites.wire
      refine ⟨_, rfl, hwrites.tls.trans htls, bytes ++ (commandLine cmd).take n, ?_, ?_⟩
      · rw [hn, hwire, List.append_assoc]
      · rw [commandsOf_append]
        exact hparts.snoc (List.take_prefix _ _)
  | heard _ hrun ih =>
      obtain ⟨t, ht, hcarries⟩ := ih
      have hread : Preserves (ReadFrom t) (readResponseLine : Nntp π _) := preserves_readResponseLine
      obtain ⟨t', ht', hreads⟩ := wp_ok (hread _ ⟨t, ht, .refl t⟩) hrun
      refine ⟨t', ht', ?_⟩
      rw [Carries, commandsOf_append, commandsOf_heard_single, List.append_nil]
      exact hcarries.read hreads
  | read _ ht ih =>
      obtain ⟨t', ht', hcarries⟩ := ih
      obtain rfl := Option.some.inj (ht.symm.trans ht')
      exact ⟨_, rfl, hcarries.read (.readUntilLf _ _)⟩
  | flush _ ht ih =>
      obtain ⟨t', ht', hcarries⟩ := ih
      obtain rfl := Option.some.inj (ht.symm.trans ht')
      exact ⟨_, rfl, hcarries.read (.flush _ _)⟩
  | aside _ ht _ ih =>
      rw [ht]
      exact ih

/-! ### Rules -/

structure Recorded (w₀ : World π) (log : List Entry) (s : ConnectionState) (w : World π) : Prop where
  transcript : Transcript w₀ log w
  state : w.conn.state = s
  connected : w.conn.transport.isSome = true

section Rules

variable {w₀ w : World π} {log : List Entry} {s : ConnectionState}

theorem Recorded.setState (h : Recorded w₀ log s w) (s' : ConnectionState) :
    Recorded w₀ log s' (w.setState s') := ⟨h.transcript.aside rfl rfl, rfl, h.connected⟩

instance : ReadStable (Recorded w₀ log s) where
  readUntilLf _ _ ht h := ⟨h.transcript.read ht, h.state, rfl⟩
  flush _ _ ht h := ⟨h.transcript.flush ht, h.state, rfl⟩
  lineScratch _ _ h := ⟨h.transcript.aside rfl rfl, h.state, h.connected⟩
  bodyPool _ _ h := ⟨h.transcript.aside rfl rfl, h.state, h.connected⟩
  capabilities _ _ _ h := ⟨h.transcript.aside rfl rfl, h.state, h.connected⟩

theorem wp_sendCommand_recorded {cmd : String} (h : Recorded w₀ log s w) :
    wp (sendCommand cmd) (always (Recorded w₀ (log ++ [.wrote cmd]) s)) w := by
  obtain ⟨t, ht⟩ := Option.isSome_iff_exists.mp h.connected
  have hwrote : Recorded w₀ (log ++ [.wrote cmd]) s
      (w.setTransport (t.writeAll (commandLine cmd) w.nextEvent).2).tick :=
    ⟨h.transcript.wrote cmd ht, h.state, rfl⟩
  have hsend : wp (sendCommandNoFlush cmd) (always (Recorded w₀ (log ++ [.wrote cmd]) s)) w := by
    simp only [sendCommandNoFlush, wp_bind, wp_onTransport ht, wp_get]
    exact wp_settle (fun _ => hwrote) (fun _ => hwrote) hwrote
  exact wp_seq hsend (fun _ w₁ h₁ => preserves_flush w₁ h₁) (fun _ _ h => h) (fun _ h => h)

theorem wp_readResponseLine_recorded (h : Recorded w₀ log s w) :
    wp readResponseLine
      ⟨fun status => Recorded w₀ (log ++ [.heard status]) s, fun _ => Recorded w₀ log s,
        Recorded w₀ log s⟩ w :=
  wp_mono (wp_and (wp_run _ w) (preserves_readResponseLine w h))
    (fun _ _ h' => ⟨h.transcript.heard h'.1, h'.2.state, h'.2.connected⟩) (fun _ _ h' => h'.2)
    (fun _ h' => h'.2)

end Rules

end NzbNntp
