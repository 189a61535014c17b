import NzbNntp.ReplyServer
import NzbNntp.Connection.Specs

/-!
Alignment of the connection with a `ReplyServer`. `Owes pending t` says that
what the transport still holds is exactly `pending`, with the server between
two commands, or that the stream has come to its end, after which no read
succeeds. A connection is aligned if `Ready` means that nothing is owed.
-/

namespace NzbNntp

open Interruptible Delimited

def Ended {π : Type} (t : Transport π) : Prop := t.cut = some 0

instance {π : Type} (t : Transport π) : Decidable (Ended t) :=
  inferInstanceAs (Decidable (t.cut = some 0))

/-- The server is between two commands. -/
def Idle (s : ReplyServer) : Prop := s.line = [] ∧ s.posting = false

def Owes (pending : Bytes) (t : Transport ReplyServer) : Prop :=
  Ended t ∨ (t.unread = pending ∧ Idle t.peer)

theorem ended_endStable {π : Type} : EndStable (Ended (π := π)) := by
  intro t n h
  simp only [Ended] at h
  simp [Ended, Transport.endStream, h]

theorem Ended.deliver {π : Type} [Peer π] {t : Transport π} (h : Ended t) (data : Bytes) :
    Ended (t.deliver data) := h

theorem Ended.take {π : Type} {t : Transport π} (h : Ended t) (n : Nat) : Ended (t.take n) := by
  simp only [Ended] at h
  simp [Ended, Transport.take, h]

theorem owes_endStable (pending : Bytes) : EndStable (Owes pending) := by
  rintro t n (h | h)
  · exact .inl (ended_endStable t n h)
  · exact .inr h

/-- After the end of the stream a wait for a line finds none. -/
theorem Ended.awaitLine {π : Type} {t : Transport π} (h : Ended t) :
    t.awaitLine = (.done, [], t.take 0) := by
  simp only [Ended] at h
  simp [Transport.awaitLine, Transport.available, h, breakAfter]

theorem awaitLine_of_available {π : Type} {t : Transport π} {l : WireLine} {rest : Bytes}
    (h : t.available = l.full ++ rest) :
    t.awaitLine = (.done, l.full, t.take l.full.length) := by
  simp [Transport.awaitLine, h]

/-- A stream that ends inside a line gives the part of the line that arrives. -/
theorem awaitLine_of_cut {π : Type} {t : Transport π} {n : Nat} {l : WireLine} {rest : Bytes}
    (hcut : t.cut = some n) (hunread : t.unread = l.full ++ rest) (hn : n < l.full.length) :
    t.awaitLine = (.done, l.text.take n, t.take n) := by
  simp only [Piece.full, List.length_append, List.length_singleton] at hn
  have havail : t.available = l.text.take n := by
    simp only [Transport.available, hcut, hunread, Piece.full, List.append_assoc]
    exact List.take_append_of_le_length (by omega)
  have hfree : breakAfter lf (l.text.take n) = none :=
    breakAfter_of_not_mem fun h => l.free (List.mem_of_mem_take h)
  have hlen : (l.text.take n).length = n := by
    rw [List.length_take]
    omega
  simp [Transport.awaitLine, havail, hfree, hcut, hlen]

theorem available_length_le {π : Type} (t : Transport π) :
    t.available.length ≤ t.unread.length := by
  unfold Transport.available
  split
  · exact Nat.le_refl _
  · rw [List.length_take]
    omega

/-- A wait for a line takes the bytes it gives. -/
theorem awaitLine_take {π : Type} {t t' : Transport π} {e : IoEnd} {bytes : Bytes}
    (h : t.awaitLine = (e, bytes, t')) :
    t' = t.take bytes.length ∧ bytes.length ≤ t.available.length := by
  unfold Transport.awaitLine at h
  split at h
  · rename_i line rest hbreak
    cases h
    obtain ⟨p, -, rfl, havail⟩ := breakAfter_eq_some.mp hbreak
    exact ⟨rfl, by rw [havail]; simp⟩
  · cases h
    exact ⟨rfl, Nat.le_refl _⟩

/-- A wait for a line that is on the stream: the line, or what of it arrives. -/
theorem awaitLine_cases {π : Type} {t : Transport π} {l : WireLine} {rest : Bytes}
    (hunread : t.unread = l.full ++ rest) :
    t.awaitLine = (.done, l.full, t.take l.full.length) ∨
      ∃ n, t.cut = some n ∧ t.awaitLine = (.done, l.text.take n, t.take n) := by
  cases hcut : t.cut with
  | none =>
      have havail : t.available = l.full ++ rest := by simp [Transport.available, hcut, hunread]
      exact .inl (awaitLine_of_available havail)
  | some n =>
      by_cases hn : l.full.length ≤ n
      · have havail : t.available = l.full ++ rest.take (n - l.full.length) := by
          rw [Transport.available, hcut, hunread]
          simp only [List.take_append, List.take_of_length_le hn]
        exact .inl (awaitLine_of_available havail)
      · exact .inr ⟨n, rfl, awaitLine_of_cut hcut hunread (by omega)⟩

theorem awaitLine_done {π : Type} {t : Transport π} {l : WireLine} {rest : Bytes}
    (hunread : t.unread = l.full ++ rest) : ∃ bytes t', t.awaitLine = (.done, bytes, t') := by
  rcases awaitLine_cases hunread with h | ⟨n, -, h⟩
  · exact ⟨_, _, h⟩
  · exact ⟨_, _, h⟩

/-- Waiting for a line that is on the stream gives that line, or meets the end. -/
theorem awaitLine_of_unread {π : Type} {t t' : Transport π} {l : WireLine} {rest bytes : Bytes}
    (hunread : t.unread = l.full ++ rest) (hawait : t.awaitLine = (.done, bytes, t')) :
    (bytes = l.full ∧ t'.unread = rest ∧ t'.peer = t.peer) ∨ (lf ∉ bytes ∧ Ended t') := by
  rcases awaitLine_cases hunread with h | ⟨n, hcut, h⟩
  · rw [h] at hawait
    cases hawait
    exact .inl ⟨rfl, by simp [Transport.take, hunread], rfl⟩
  · rw [h] at hawait
    cases hawait
    exact .inr ⟨fun h => l.free (List.mem_of_mem_take h), by simp [Ended, Transport.take, hcut]⟩

theorem Owes.awaitLine {t t' : Transport ReplyServer} {l : WireLine} {rest bytes : Bytes}
    (h : Owes (l.full ++ rest) t) (hawait : t.awaitLine = (.done, bytes, t')) :
    (bytes = l.full ∧ Owes rest t') ∨ (lf ∉ bytes ∧ Ended t') := by
  rcases h with hended | ⟨hunread, hidle⟩
  · rw [hended.awaitLine] at hawait
    cases hawait
    exact .inr ⟨by simp, hended.take 0⟩
  · rcases awaitLine_of_unread hunread hawait with ⟨hbytes, hunread', hpeer⟩ | hend
    · exact .inl ⟨hbytes, .inr ⟨hunread', by rw [hpeer]; exact hidle⟩⟩
    · exact .inr hend

/-! ### Commands and their replies -/

/-- The server has answered the command `line`, and nothing of the answer has
been read. -/
def Answering (line : Bytes) (t : Transport ReplyServer) : Prop :=
  Ended t ∨ ∃ heard, t.unread = (t.peer.answer (heard ++ [line])).bytesFor line ∧
    t.peer.line = [] ∧
    t.peer.posting =
      invitesArticle line (statusCode (t.peer.answer (heard ++ [line])).status.full)

/-- The status line of the answer to `line` has been read, and had this code. -/
def AfterStatus (line : Bytes) (code : Nat) (t : Transport ReplyServer) : Prop :=
  Ended t ∨ ((if announcesBlock line (some code) then ∃ r : Reply, t.unread = r.blockBytes
      else t.unread = []) ∧
    t.peer.line = [] ∧ t.peer.posting = invitesArticle line (some code))

theorem answering_endStable (line : Bytes) : EndStable (Answering line) := by
  rintro t n (h | h)
  · exact .inl (ended_endStable t n h)
  · exact .inr h

/-- A server between two commands answers the next one. -/
theorem Idle.hearAll_command {s : ReplyServer} {cmd : String} (h : Idle s)
    (hcmd : '\n' ∉ cmd.toList) :
    Peer.hearAll s (commandLine cmd) = (s.afterCommand (commandLine cmd),
      (s.nextReply (commandLine cmd)).bytesFor (commandLine cmd)) := by
  have hfree : lf ∉ Text.utf8 cmd ++ [cr] := by
    simp [Text.lf_mem_utf8, hcmd, show lf ≠ cr by decide]
  rw [commandLine_eq]
  exact ReplyServer.hearAll_command s hfree h.1 h.2

theorem Owes.deliver_command {t : Transport ReplyServer} {cmd : String} (h : Owes [] t)
    (hcmd : '\n' ∉ cmd.toList) : Answering (commandLine cmd) (t.deliver (commandLine cmd)) := by
  rcases h with hended | ⟨hunread, hidle⟩
  · exact .inl hended
  · have hhear := hidle.hearAll_command hcmd
    refine .inr ⟨t.peer.heard, ?_, ?_, ?_⟩
    · rw [Transport.deliver, hhear, hunread]
      rfl
    · rw [Transport.deliver, hhear]
      rfl
    · rw [Transport.deliver, hhear]
      rfl

/-- The reply starts with its status line; a block follows where it is announced. -/
theorem bytesFor_eq (r : Reply) (line : Bytes) :
    r.bytesFor line = r.status.full ++
      if announcesBlock line (statusCode r.status.full) then r.blockBytes else [] := by
  rw [Reply.bytesFor]
  split <;> simp

theorem Answering.readStatus {t t' : Transport ReplyServer} {line bytes : Bytes} {text : String}
    {resp : NntpResponse} (h : Answering line t) (hawait : t.awaitLine = (.done, bytes, t'))
    (htext : Text.fromUtf8 bytes = some text) (hparse : parseResponseLine text = .ok resp) :
    AfterStatus line resp.code t' := by
  rcases h with hended | ⟨heard, hunread, hline, hposting⟩
  · rw [hended.awaitLine] at hawait
    cases hawait
    exact .inl (hended.take 0)
  · rw [bytesFor_eq] at hunread
    rcases awaitLine_of_unread hunread hawait with ⟨rfl, hunread', hpeer⟩ | ⟨_, hended⟩
    · have hcode := statusCode_of_parse htext hparse
      rw [hcode] at hunread' hposting
      refine .inr ⟨?_, by rw [hpeer, hline], by rw [hpeer, hposting]⟩
      rw [hunread']
      split
      · exact ⟨_, rfl⟩
      · rfl
    · exact .inl hended

def OwesStatus (t : Transport ReplyServer) : Prop := ∃ l : WireLine, Owes l.full t

theorem owesStatus_endStable : EndStable OwesStatus := by
  rintro t n ⟨l, h⟩
  exact ⟨l, owes_endStable _ t n h⟩

theorem OwesStatus.awaitLine {t t' : Transport ReplyServer} {bytes : Bytes} (h : OwesStatus t)
    (hawait : t.awaitLine = (.done, bytes, t')) : Owes [] t' := by
  obtain ⟨l, howes⟩ := h
  have howes' : Owes (l.full ++ []) t := by rwa [List.append_nil]
  rcases howes'.awaitLine hawait with ⟨-, h⟩ | ⟨-, hended⟩
  · exact h
  · exact .inl hended

/-! ### Reading a block -/

/-- A block, or the rest of one, is owed, and `later` after it. -/
def OwesBlock (later : Bytes) (t : Transport ReplyServer) : Prop :=
  ∃ r : Reply, Owes (r.blockBytes ++ later) t

/-- What a line taken from a block says about the rest of it. -/
def BodyLine (later line : Bytes) (t : Transport ReplyServer) : Prop :=
  (isTerminator line = true ∧ Owes later t) ∨
    (isTerminator line = false ∧ OwesBlock later t ∧ (line = [] → Ended t))

theorem owesBlock_endStable (later : Bytes) : EndStable (OwesBlock later) := by
  rintro t n ⟨r, h⟩
  exact ⟨r, owes_endStable _ t n h⟩

/-- Either line end after the dot makes the terminator a line of its own. -/
theorem exists_piece_of_isTerminator {terminator : Bytes} (h : isTerminator terminator = true) :
    ∃ l : WireLine, terminator = l.full := by
  rcases isTerminator_iff.mp h with rfl | rfl
  · exact ⟨⟨[dot, cr], by decide⟩, rfl⟩
  · exact ⟨⟨[dot], by decide⟩, rfl⟩

theorem not_isTerminator_of_lf_not_mem {line : Bytes} (h : lf ∉ line) :
    isTerminator line = false :=
  Bool.eq_false_iff.mpr fun hterm => h (lf_mem_of_isTerminator hterm)

/-- The next line of a block is its terminator, or one of its other lines. -/
theorem OwesBlock.awaitLine {t t' : Transport ReplyServer} {later bytes : Bytes}
    (h : OwesBlock later t) (hawait : t.awaitLine = (.done, bytes, t')) :
    BodyLine later bytes t' := by
  obtain ⟨⟨status, block, terminator, hproper, hterm⟩, howes⟩ := h
  cases block with
  | nil =>
      obtain ⟨l, hl⟩ := exists_piece_of_isTerminator hterm
      have howes' : Owes (l.full ++ later) t := by simpa [Reply.blockBytes, hl] using howes
      rcases howes'.awaitLine hawait with ⟨rfl, h⟩ | ⟨hfree, hended⟩
      · exact .inl ⟨hl ▸ hterm, h⟩
      · exact .inr ⟨not_isTerminator_of_lf_not_mem hfree,
          ⟨⟨status, [], terminator, hproper, hterm⟩, .inl hended⟩, fun _ => hended⟩
  | cons l rest =>
      let r : Reply := ⟨status, rest, terminator, fun l hl => hproper l (by simp [hl]), hterm⟩
      have howes' : Owes (l.full ++ (r.blockBytes ++ later)) t := by
        simpa [Reply.blockBytes, r] using howes
      rcases howes'.awaitLine hawait with ⟨rfl, h⟩ | ⟨hfree, hended⟩
      · exact .inr ⟨hproper l (by simp), ⟨r, h⟩, fun hnil => by simp [Piece.full] at hnil⟩
      · exact .inr ⟨not_isTerminator_of_lf_not_mem hfree, ⟨r, .inl hended⟩, fun _ => hended⟩

section Block

variable {s : ConnectionState} {later : Bytes} {w : World ReplyServer}

theorem wp_readBodyLine_owes {timedOut : NntpError} (hw : At s (OwesBlock later) w) :
    wp (readBodyLine timedOut) (ioPost s (BodyLine later)) w :=
  wp_readBodyLine (owesBlock_endStable later) (fun _ _ _ h hawait => h.awaitLine hawait) hw

/-- A block read to its end leaves what was owed after it. The induction is on
the fuel: a line that is not the terminator leaves the rest of a block. -/
theorem wp_multilineLoop_owes {maxBytes : Option Nat} (fuel : Nat) (out : Bytes)
    {w : World ReplyServer} (hw : At s (OwesBlock later) w) :
    wp (multilineLoop maxBytes fuel out) (ioPost s fun _ => Owes later) w := by
  induction fuel generalizing out w with
  | zero => exact hw.inState
  | succ fuel ih =>
      rw [multilineLoop]
      refine wp_seq (wp_readBodyLine_owes hw) ?_ (fun _ _ h => h) (fun _ h => h)
      rintro line w' ⟨hs, t, ht, ⟨hterm, howes⟩ | ⟨hterm, howes, -⟩⟩
      · split
        · exact hs
        · exact ⟨hs, t, ht, howes⟩
      · split
        · exact hs
        · rw [hterm, if_neg Bool.false_ne_true]
          split
          · exact hs
          · exact ih _ ⟨hs, t, ht, howes⟩

/-- A prefix that was read up to the terminator leaves what was owed after it. -/
theorem wp_prefixLoop_owes {maxBytes : Nat} (fuel : Nat) (data : Bytes)
    {w : World ReplyServer} (hw : At s (OwesBlock later) w) :
    wp (prefixLoop maxBytes fuel data)
      (ioPost s fun result t => result.complete = true → Owes later t) w := by
  induction fuel generalizing data w with
  | zero => exact hw.inState
  | succ fuel ih =>
      rw [prefixLoop]
      refine wp_seq (wp_readBodyLine_owes hw) ?_ (fun _ _ h => h) (fun _ h => h)
      rintro line w' ⟨hs, t, ht, ⟨hterm, howes⟩ | ⟨hterm, howes, -⟩⟩
      · split
        · exact hs
        · exact ⟨hs, t, ht, fun _ => howes⟩
      · split
        · exact hs
        · rw [hterm, if_neg Bool.false_ne_true]
          split
          · exact hs
          · dsimp only
            split
            · exact ⟨hs, t, ht, fun h => absurd h Bool.false_ne_true⟩
            · exact ih _ ⟨hs, t, ht, howes⟩

variable {gz : GzDecoder}

theorem wp_readMultilineBodyIntoBounded_owes {out : Bytes} {maxBytes : Option Nat}
    (hw : At s (OwesBlock later) w) :
    wp (readMultilineBodyIntoBounded out maxBytes) (ioPost s fun _ => Owes later) w :=
  wp_multilineLoop_owes w.lineFuel (cleared out) hw

theorem wp_readMultilineBody_owes (hw : At s (OwesBlock later) w) :
    wp readMultilineBody (ioPost s fun _ => Owes later) w :=
  wp_readMultilineBodyIntoBounded_owes
    (w := { w with conn := { w.conn with bodyPool := w.conn.bodyPool.tail } }) hw

theorem wp_readMultilineBodyMaybeDecompress_owes (hw : At s (OwesBlock later) w) :
    wp (readMultilineBodyMaybeDecompress gz) (ioPost s fun _ => Owes later) w := by
  refine wp_seq (wp_readMultilineBody_owes hw) ?_ (fun _ _ h => h) (fun _ h => h)
  intro raw w' hw'
  simp only [wp_bind, wp_get]
  split
  · split
    · exact hw'
    · exact hw'
  · exact hw'

theorem wp_readMultilineBodyMaybeDecompressBounded_owes {maxBytes : Nat}
    (hw : At s (OwesBlock later) w) :
    wp (readMultilineBodyMaybeDecompressBounded gz maxBytes) (ioPost s fun _ => Owes later) w := by
  refine wp_seq (wp_readMultilineBodyIntoBounded_owes hw) ?_ (fun _ _ h => h) (fun _ h => h)
  intro raw w' hw'
  simp only [wp_bind, wp_get]
  split
  · split
    · exact hw'.inState
    · split
      · exact hw'.inState
      · exact hw'
  · exact hw'

end Block

end NzbNntp
