import NzbNntp.Capabilities
import NzbNntp.Text.Lines

/-!
Capability lists line by line. A flag is set if some line has its label, wherever the
line stands; but one line that is not UTF-8 makes the parser see no line at all.
-/

namespace NzbNntp

open Text

inductive Advertised where
  | reader
  | post
  | ihave
  | newnews
  | hdr
  | over_
  | modeReaderRequired
  | compress
  deriving DecidableEq

namespace Advertised

def of : Advertised → NntpCapabilities → Bool
  | reader, caps => caps.reader
  | post, caps => caps.post
  | ihave, caps => caps.ihave
  | newnews, caps => caps.newnews
  | hdr, caps => caps.hdr
  | over_, caps => caps.over_
  | modeReaderRequired, caps => caps.modeReaderRequired
  | compress, caps => caps.compress

def labels : Advertised → List String
  | reader => ["READER"]
  | post => ["POST"]
  | ihave => ["IHAVE"]
  | newnews => ["NEWNEWS"]
  | hdr => ["HDR"]
  | over_ => ["OVER"]
  | modeReaderRequired => ["MODE-READER"]
  | compress => ["COMPRESS", "XFEATURE-COMPRESS"]

/-- Whether the first word of a line is a label of the flag, in any case. -/
def isSetBy (flag : Advertised) (line : String) : Bool :=
  match splitWhitespace (trim line) with
  | [] => false
  | label :: _ => flag.labels.contains (toAsciiUppercase label)

theorem of_parseLine (flag : Advertised) (caps : NntpCapabilities) (line : String) :
    flag.of (caps.parseLine line) = (flag.of caps || flag.isSetBy line) := by
  unfold NntpCapabilities.parseLine isSetBy
  dsimp only
  generalize splitWhitespace (trim line) = words
  cases words with
  | nil => simp
  | cons label args =>
      dsimp only
      generalize toAsciiUppercase label = upper
      split
      case h_13 => cases flag <;> simp_all [of, labels]
      all_goals cases flag <;> simp [of, labels]

/-- The derived flags are others. -/
theorem of_derive (flag : Advertised) (caps : NntpCapabilities) :
    flag.of caps.derive = flag.of caps := by
  unfold NntpCapabilities.derive
  dsimp only
  split
  · cases flag <;> rfl
  · cases flag <;> rfl

theorem of_foldl (flag : Advertised) (caps : NntpCapabilities) (lines : List String) :
    flag.of (lines.foldl NntpCapabilities.parseLine caps) =
      (flag.of caps || lines.any flag.isSetBy) := by
  induction lines generalizing caps with
  | nil => simp
  | cons line lines ih => rw [List.foldl_cons, ih, of_parseLine, List.any_cons, Bool.or_assoc]

theorem of_parse_text (flag : Advertised) (text : String) :
    flag.of (((lines text).foldl NntpCapabilities.parseLine { probed := true }).derive) =
      (lines text).any flag.isSetBy := by
  have hnone : flag.of { probed := true } = false := by cases flag <;> rfl
  rw [of_derive, of_foldl, hnone, Bool.false_or]

def Listed (flag : Advertised) (body : Bytes) : Prop :=
  IsUtf8 body ∧ (lines (fromUtf8Lossy body)).any flag.isSetBy = true

theorem of_parse {flag : Advertised} {body : Bytes} :
    flag.of (.parse body) = true ↔ flag.Listed body := by
  rw [NntpCapabilities.parse, of_parse_text]
  by_cases h : IsUtf8 body
  · rw [fromUtf8_of_isUtf8 h, Option.getD_some, Listed, and_iff_right h]
  · rw [fromUtf8_of_not_isUtf8 h, Option.getD_none]
    exact iff_of_false (by simp [lines]) fun hlisted => h hlisted.1

/-- **When the flags come from the lines one by one.** A flag of two lists together is
the flag of the one or of the other if and only if both are UTF-8, or no UTF-8 one of
them lists it: one byte that is not UTF-8 hides what all the other lines advertise. -/
theorem of_parse_append_iff (flag : Advertised) (front rest : Bytes) (hfront : WholeLines front) :
    flag.of (.parse (front ++ rest)) = (flag.of (.parse front) || flag.of (.parse rest)) ↔
      (IsUtf8 front ∧ IsUtf8 rest) ∨ (¬ flag.Listed front ∧ ¬ flag.Listed rest) := by
  have htogether : flag.Listed (front ++ rest) ↔ (IsUtf8 front ∧ IsUtf8 rest) ∧
      (flag.Listed front ∨ flag.Listed rest) := by
    rw [Listed, isUtf8_append hfront, lines_lossy_append hfront, List.any_append, Bool.or_eq_true]
    exact and_congr_right fun h => or_congr (by rw [Listed, and_iff_right h.1])
      (by rw [Listed, and_iff_right h.2])
  rw [Bool.eq_iff_iff, Bool.or_eq_true, of_parse, of_parse, of_parse, htogether]
  constructor
  · intro h
    by_cases hvalid : IsUtf8 front ∧ IsUtf8 rest
    · exact .inl hvalid
    · exact .inr (not_or.mp fun hlisted => hvalid (h.mpr hlisted).1)
  · rintro (hvalid | ⟨hfront', hrest'⟩)
    · exact and_iff_right hvalid
    · exact ⟨fun h => h.2, fun h => (h.elim hfront' hrest').elim⟩

theorem of_parse_append_iff_on_ascii :
    modeReaderRequired.of (.parse (utf8 "mode-reader\r\n" ++ utf8 "VERSION 2\r\n")) = true := by
  rw [(of_parse_append_iff modeReaderRequired (utf8 "mode-reader\r\n") (utf8 "VERSION 2\r\n")
    (.inr (by decide))).mpr (.inl ⟨isUtf8_utf8 _, isUtf8_utf8 _⟩)]
  decide +kernel

/-- The name of an implementation in Latin-1 hides that `MODE READER` is required. -/
theorem of_parse_append_hides :
    ¬ ∀ (flag : Advertised) (front rest : Bytes), WholeLines front →
      flag.of (.parse (front ++ rest)) = (flag.of (.parse front) || flag.of (.parse rest)) := by
  intro h
  have hmode := h modeReaderRequired (utf8 "MODE-READER\r\n")
    (utf8 "IMPLEMENTATION caf" ++ [0xe9, cr, lf]) (.inr (by decide))
  exact absurd hmode (by decide +kernel)

end Advertised

end NzbNntp
