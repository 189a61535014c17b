import NzbNntp.Connection.Parsers
import NzbNntp.Text.Words

/-!
`LIST ACTIVE` over the wire. A group goes out as four words with gaps between them;
lines with fewer words say nothing. Parsing gives back the groups, in their order.
-/

namespace NzbNntp

open Text

/-- A line of bytes that `str::lines` will find, with what ends it. -/
def lineOf (line : Bytes) : Bytes := line ++ [lf]

/-- One line is parsed at a time. -/
theorem parseListActiveData_cons {line : Bytes} (h : lf ∉ line) (rest : Bytes) :
    parseListActiveData (lineOf line ++ rest) =
      (parseListActiveLine (fromUtf8Lossy line)).toList ++ parseListActiveData rest := by
  have hline : ∀ cs : List Char,
      parseListActiveLine (.ofList (chopCr cs)) = parseListActiveLine (.ofList cs) := by
    intro cs
    simp only [parseListActiveLine, splitWhitespace_trim, splitWhitespace_chopCr]
  rw [parseListActiveData, lineOf, List.append_assoc, List.singleton_append, lines_lossy_cons h,
    List.filterMap_cons, hline, ← fromUtf8Lossy]
  cases parseListActiveLine (fromUtf8Lossy line) with
  | none => rfl
  | some entry => rfl

def ShortLine (line : Bytes) : Prop :=
  lf ∉ line ∧ (splitWhitespace (fromUtf8Lossy line)).length < 4

theorem parseListActiveLine_short {line : String} (h : (splitWhitespace line).length < 4) :
    parseListActiveLine line = none := by
  rw [parseListActiveLine, splitWhitespace_trim]
  split
  · rename_i hwords
    rw [hwords] at h
    simp at h
    omega
  · rfl

inductive ActiveLine where
  | group (name : Word) (high low : UInt64) (status : Word) (first second third : Gap)
  | short (line : Bytes) (h : ShortLine line)

namespace ActiveLine

def bytes : ActiveLine → Bytes
  | group name high low status first second third =>
      utf8 name.text ++ utf8 (.ofList first.text) ++ utf8 (toString high.toNat) ++
        utf8 (.ofList second.text) ++ utf8 (toString low.toNat) ++ utf8 (.ofList third.text) ++
        utf8 status.text ++ crlf
  | short line _ => lineOf line

def entry : ActiveLine → Option ListActiveEntry
  | group name high low status _ _ _ =>
      some { name := name.text, high := high.toNat, low := low.toNat, status := status.text }
  | short _ _ => none

theorem parse_group (name : Word) (high low : UInt64) (status : Word)
    (first second third : Gap) (rest : Bytes) :
    parseListActiveData ((group name high low status first second third).bytes ++ rest) =
      ⟨name.text, high.toNat, low.toNat, status.text⟩ :: parseListActiveData rest := by
  let text := name.text ++ .ofList first.text ++ toString high.toNat ++ .ofList second.text ++
    toString low.toNat ++ .ofList third.text ++ status.text ++ "\r"
  have hbytes : (group name high low status first second third).bytes = lineOf (utf8 text) := by
    simp only [bytes, text, lineOf, utf8_append, List.append_assoc]
    rfl
  have hchars : text.toList = name.text.toList ++ (first.text ++ ((Word.number high.toNat).text.toList ++
      (second.text ++ ((Word.number low.toNat).text.toList ++ (third.text ++
        (status.text.toList ++ ['\r'])))))) := by
    simp only [text, String.toList_append, String.toList_ofList, List.append_assoc]
    rfl
  have hfree : lf ∉ utf8 text := by
    rw [lf_mem_utf8, hchars]
    simp only [List.mem_append, not_or]
    exact ⟨name.lf_not_mem, first.lf_not_mem, (Word.number _).lf_not_mem, second.lf_not_mem,
      (Word.number _).lf_not_mem, third.lf_not_mem, status.lf_not_mem, by decide⟩
  have hwords : splitWhitespace text =
      [name.text, toString high.toNat, toString low.toNat, status.text] := by
    rw [splitWhitespace, hchars, wordsFrom_word_gap, wordsFrom_word_gap, wordsFrom_word_gap,
      wordsFrom_append_blank (by simp), wordsFrom_word]
    rfl
  have hline : parseListActiveLine text =
      some ⟨name.text, high.toNat, low.toNat, status.text⟩ := by
    rw [parseListActiveLine, splitWhitespace_trim, hwords]
    simp only [parseU64_toString high.toNat_lt, parseU64_toString low.toNat_lt, Option.getD_some]
  rw [hbytes, parseListActiveData_cons hfree, fromUtf8Lossy_utf8, hline]
  rfl

theorem parse_short {line : Bytes} (h : ShortLine line) (rest : Bytes) :
    parseListActiveData (lineOf line ++ rest) = parseListActiveData rest := by
  rw [parseListActiveData_cons h.1, parseListActiveLine_short h.2]
  rfl

theorem parse_bytes (lines : List ActiveLine) :
    parseListActiveData (lines.flatMap bytes) = lines.filterMap entry := by
  induction lines with
  | nil => rfl
  | cons line lines ih =>
      rw [List.flatMap_cons]
      cases line with
      | group name high low status first second third =>
          rw [parse_group, ih]
          rfl
      | short line h =>
          rw [show (short line h).bytes = lineOf line from rfl, parse_short h, ih]
          rfl

end ActiveLine

/-- **Groups survive the wire.** Whatever gaps a server puts between the four fields,
and whatever blank or short lines between the groups, the parser gives back the groups
in their order; a short line put anywhere between two lines changes nothing. -/
theorem parseListActiveData_exact :
    (∀ lines : List ActiveLine,
      parseListActiveData (lines.flatMap ActiveLine.bytes) = lines.filterMap ActiveLine.entry) ∧
    ∀ front line rest, WholeLines front → ShortLine line →
      parseListActiveData (front ++ lineOf line ++ rest) = parseListActiveData (front ++ rest) := by
  refine ⟨ActiveLine.parse_bytes, fun front line rest hfront hline => ?_⟩
  have happend : ∀ more, parseListActiveData (front ++ more) =
      parseListActiveData front ++ parseListActiveData more := by
    intro more
    rw [parseListActiveData, lines_lossy_append hfront, List.filterMap_append]
    rfl
  rw [List.append_assoc, happend, happend, ActiveLine.parse_short hline]

/-- Two groups; between them goes a line of three words that is no text. -/
theorem parseListActiveData_exact_on_two :
    parseListActiveData (utf8 "alt.a\t 7 1  y\r\n" ++ lineOf (utf8 "too few " ++ [0xff, cr]) ++
        utf8 "alt.b 18446744073709551615 0 m") =
      [⟨"alt.a", 7, 1, "y"⟩, ⟨"alt.b", 18446744073709551615, 0, "m"⟩] := by
  rw [parseListActiveData_exact.2 (utf8 "alt.a\t 7 1  y\r\n") (utf8 "too few " ++ [0xff, cr])
    (utf8 "alt.b 18446744073709551615 0 m") (.inr (by decide)) ⟨by decide, by decide +kernel⟩]
  decide +kernel

end NzbNntp
