import NzbNntp.Connection.Readers
import Mathlib.Data.List.TakeWhile

/-!
A server that plays by the protocol: it answers every command line with exactly
one reply, in order. Which reply is a strategy over all the lines it has heard;
status texts and block contents are arbitrary. A block follows the status line
exactly after the codes that announce one for the command, and after `340` to
`POST` the server hears the article out, up to the lone dot, and answers with
one more status line.
-/

namespace NzbNntp

open Delimited

abbrev WireLine := Piece lf

structure Reply where
  status : WireLine
  block : List WireLine
  terminator : Bytes
  proper : ∀ l ∈ block, isTerminator l.full = false
  terminates : isTerminator terminator = true

def Reply.blockBytes (r : Reply) : Bytes := (r.block.map Piece.full).flatten ++ r.terminator

theorem isTerminator_dotCrLf : isTerminator [dot, cr, lf] = true := by decide

def Reply.bare (text : Bytes) (h : lf ∉ text) : Reply :=
  ⟨⟨text, h⟩, [], [dot, cr, lf], by simp, isTerminator_dotCrLf⟩

def statusCode (line : Bytes) : Option Nat :=
  if 3 ≤ line.length ∧ (line.take 3).all Overview.isAsciiDigit then
    some (Overview.asciiDigitsValue (line.take 3))
  else none

def isWordByte (b : UInt8) : Bool := b ≠ 32 && b ≠ cr && b ≠ lf

def firstWord (line : Bytes) : Bytes := line.takeWhile isWordByte

/-- The codes after which a block follows, by the first word of the command. -/
def blockTable : List (Bytes × Nat) :=
  [("ARTICLE", 220), ("HEAD", 221), ("BODY", 222), ("LIST", 215), ("XOVER", 224),
    ("XHDR", 221), ("XPAT", 221), ("CAPABILITIES", 101)].map fun p => (Text.utf8 p.1, p.2)

/-- The one `LIST` command whose block has a code of its own. -/
def listExtensions : Bytes := Text.utf8 "LIST EXTENSIONS\r\n"

/-- The status code that announces a block in reply to the command `line`. -/
def blockCode (line : Bytes) : Option Nat :=
  if line = listExtensions then some 202 else blockTable.lookup (firstWord line)

def invitesArticle (line : Bytes) (code : Option Nat) : Bool :=
  firstWord line = Text.utf8 "POST" && code = some 340

def announcesBlock (line : Bytes) (code : Option Nat) : Bool :=
  code.isSome && code = blockCode line

def Reply.bytesFor (r : Reply) (line : Bytes) : Bytes :=
  if announcesBlock line (statusCode r.status.full) then r.status.full ++ r.blockBytes
  else r.status.full

structure ReplyServer where
  answer : List Bytes → Reply
  heard : List Bytes := []
  line : Bytes := []
  posting : Bool := false

namespace ReplyServer

def nextReply (s : ReplyServer) (line : Bytes) : Reply := s.answer (s.heard ++ [line])

/-- The server after a line: it is posting exactly if the line asked to post
and the reply invited the article. -/
def afterCommand (s : ReplyServer) (line : Bytes) : ReplyServer :=
  { s with
    heard := s.heard ++ [line]
    line := []
    posting := invitesArticle line (statusCode (s.nextReply line).status.full) }

def afterArticleLine (s : ReplyServer) (line : Bytes) : ReplyServer :=
  { s with heard := s.heard ++ [line], line := [], posting := !isTerminator line }

instance : Peer ReplyServer where
  hear s b :=
    let line := s.line ++ [b]
    if b ≠ lf then ({ s with line := line }, [])
    else if s.posting then
      (s.afterArticleLine line,
        if isTerminator line then (s.nextReply line).status.full else [])
    else (s.afterCommand line, (s.nextReply line).bytesFor line)

theorem hear_of_ne (s : ReplyServer) {b : UInt8} (hb : b ≠ lf) :
    Peer.hear s b = ({ s with line := s.line ++ [b] }, []) := by
  simp [Peer.hear, hb]

theorem hearAll_of_not_mem (s : ReplyServer) {text : Bytes} (h : lf ∉ text) :
    Peer.hearAll s text = ({ s with line := s.line ++ text }, []) := by
  induction text generalizing s with
  | nil => simp [Peer.hearAll]
  | cons b text ih =>
      simp only [List.mem_cons, not_or] at h
      simp [Peer.hearAll, hear_of_ne s (Ne.symm h.1), ih _ h.2]

theorem hearAll_line (s : ReplyServer) {text : Bytes} (h : lf ∉ text) :
    Peer.hearAll s (text ++ [lf]) = Peer.hear { s with line := s.line ++ text } lf := by
  rw [Peer.hearAll_append, hearAll_of_not_mem s h]
  simp [Peer.hearAll]

/-- A whole command line is answered at once. -/
theorem hearAll_command (s : ReplyServer) {text : Bytes} (h : lf ∉ text)
    (hline : s.line = []) (hposting : s.posting = false) :
    Peer.hearAll s (text ++ [lf]) =
      (s.afterCommand (text ++ [lf]), (s.nextReply (text ++ [lf])).bytesFor (text ++ [lf])) := by
  rw [hearAll_line s h]
  simp [Peer.hear, hline, hposting, afterCommand, nextReply]

/-- A line of an article is answered if it is the lone dot. -/
theorem hearAll_articleLine (s : ReplyServer) {text : Bytes} (h : lf ∉ text)
    (hposting : s.posting = true) :
    Peer.hearAll s (text ++ [lf]) =
      (s.afterArticleLine (s.line ++ text ++ [lf]),
        if isTerminator (s.line ++ text ++ [lf]) then
          (s.nextReply (s.line ++ text ++ [lf])).status.full
        else []) := by
  rw [hearAll_line s h]
  simp [Peer.hear, hposting, afterArticleLine, nextReply]

end ReplyServer

theorem isTerminator_iff {line : Bytes} :
    isTerminator line = true ↔ line = [dot, cr, lf] ∨ line = [dot, lf] := by
  simp [isTerminator]

theorem lf_mem_of_isTerminator {line : Bytes} (h : isTerminator line = true) : lf ∈ line := by
  rcases isTerminator_iff.mp h with rfl | rfl <;> decide

theorem firstWord_append {word rest : Bytes} {b : UInt8} (hword : word.all isWordByte = true)
    (hb : isWordByte b = false) : firstWord (word ++ b :: rest) = word := by
  have hall : ∀ a ∈ word, isWordByte a = true := List.all_eq_true.mp hword
  rw [firstWord, List.takeWhile_append_of_pos hall]
  simp [hb]

/-- What `trimEndCrLf` cuts off are line-end bytes. -/
theorem utf8_trimEndCrLf (line : String) :
    ∃ rest, Text.utf8 line = Text.utf8 (Text.trimEndCrLf line) ++ rest ∧
      ∀ b ∈ rest, b = cr ∨ b = lf := by
  let ends : Char → Bool := fun c => c = '\r' || c = '\n'
  have hsplit : line.toList = (Text.trimEndCrLf line).toList ++
      (line.toList.reverse.takeWhile ends).reverse := by
    rw [Text.trimEndCrLf, String.toList_ofList, ← List.reverse_append,
      List.takeWhile_append_dropWhile, List.reverse_reverse]
  refine ⟨_, by rw [Text.utf8, hsplit, List.flatMap_append]; rfl, fun b hb => ?_⟩
  simp only [List.mem_flatMap, List.mem_reverse] at hb
  obtain ⟨c, hc, hb⟩ := hb
  have hends : ends c = true := List.mem_takeWhile_imp hc
  simp only [ends, Bool.or_eq_true, decide_eq_true_eq] at hends
  rcases hends with rfl | rfl
  · exact .inl (List.mem_singleton.mp (show b ∈ [cr] from hb))
  · exact .inr (List.mem_singleton.mp (show b ∈ [lf] from hb))

theorem statusCode_append {bytes rest : Bytes}
    (hrest : ∀ b ∈ rest, Overview.isAsciiDigit b = false) :
    statusCode (bytes ++ rest) = statusCode bytes := by
  unfold statusCode
  by_cases hlen : 3 ≤ bytes.length
  · rw [List.take_append_of_le_length hlen, List.length_append]
    simp only [hlen, Nat.le_add_right_of_le hlen]
  · have hno : ¬ (3 ≤ (bytes ++ rest).length ∧
        ((bytes ++ rest).take 3).all Overview.isAsciiDigit = true) := by
      rintro ⟨hlen', hdigits⟩
      cases rest with
      | nil => exact hlen (by simpa using hlen')
      | cons b rest =>
          obtain ⟨k, hk⟩ : ∃ k, 3 - bytes.length = k + 1 := ⟨2 - bytes.length, by omega⟩
          rw [List.take_append, hk, List.take_succ_cons, List.all_append, List.all_cons,
            hrest b (by simp)] at hdigits
          simp at hdigits
    rw [if_neg hno, if_neg fun h => hlen h.1]

/-- The code of a status line is looked for in the line as the client trims it. -/
theorem statusCode_trim {bytes : Bytes} {line : String} (hline : Text.fromUtf8 bytes = some line) :
    statusCode bytes = statusCode (Text.utf8 (Text.trimEndCrLf line)) := by
  obtain ⟨rest, hrest, hends⟩ := utf8_trimEndCrLf line
  rw [Text.fromUtf8_eq_some.mp hline] at hrest
  rw [hrest]
  refine statusCode_append fun b hb => ?_
  rcases hends b hb with rfl | rfl
  · decide
  · decide

/-- Reading a status line finds the code it begins with. -/
theorem statusCode_of_parse {bytes : Bytes} {line : String} {resp : NntpResponse}
    (hline : Text.fromUtf8 bytes = some line) (hparse : parseResponseLine line = .ok resp) :
    statusCode bytes = some resp.code := by
  rw [statusCode_trim hline]
  simp only [parseResponseLine] at hparse
  split at hparse
  · cases hparse
  · rename_i hlen
    split at hparse
    · cases hparse
    · rename_i hdigits
      simp only [Except.ok.injEq] at hparse
      rw [statusCode, if_pos ⟨by omega, by simpa using hdigits⟩, ← hparse]

theorem statusCode_of_parse_error {bytes : Bytes} {line : String} {e : NntpError}
    (hline : Text.fromUtf8 bytes = some line) (hparse : parseResponseLine line = .error e) :
    statusCode bytes = none := by
  rw [statusCode_trim hline]
  simp only [parseResponseLine] at hparse
  split at hparse
  · rename_i hlen
    rw [statusCode, if_neg fun h => absurd h.1 (by omega)]
  · split at hparse
    · rename_i hdigits
      rw [statusCode, if_neg fun h => by simp [h.2] at hdigits]
    · cases hparse

/-- A `Ready` connection to a server between two commands, nothing unread. -/
def World.readyTo (server : ReplyServer) : World ReplyServer where
  conn := {
    serverId := "news"
    state := .ready
    transport := some { tls := false, peer := server, unread := [] } }

def World.withoutBody (server : ReplyServer) : World ReplyServer :=
  let ready := World.readyTo server
  { ready with conn := { ready.conn with
      capabilities := { ready.conn.capabilities with haveBody := false } } }

def World.compressed (server : ReplyServer) : World ReplyServer :=
  { World.readyTo server with
    conn := { (World.readyTo server).conn with compressEnabled := true } }

theorem lf_not_mem_articleStatus : lf ∉ Text.utf8 "220 article\r" := by decide

theorem lf_not_mem_capabilityStatus : lf ∉ Text.utf8 "101 Capability list:\r" := by decide

theorem lf_not_mem_invitation : lf ∉ Text.utf8 "340 go on\r" := by decide

def emptyServer : ReplyServer where
  answer _ := .bare (Text.utf8 "430 no\r") (by decide)

def World.endingAfter (n : Nat) : World ReplyServer where
  conn := {
    serverId := "news"
    state := .ready
    transport := some { tls := false, peer := emptyServer, unread := [], cut := some n } }

end NzbNntp
