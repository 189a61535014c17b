import NzbNntp.Connection.Parsers
import NzbNntp.Overview.Rows
import NzbNntp.Text.Words

/-!
The two overview parsers beside each other. `parse_xover_data` decodes the whole block
and splits characters, `parse_lossless_overview_rows` splits bytes and accepts less.
A row that the lossless parser accepts is an entry of the lenient one.
-/

namespace NzbNntp

open Delimited Trimming

namespace Overview

/-! ### Lines as the lenient parser sees them -/

def textOf (bytes : Bytes) : String := .ofList (bytes.map fun b => Char.ofNat b.toNat)

theorem charOfByte_injective : Function.Injective fun b : UInt8 => Char.ofNat b.toNat := by
  intro a b h
  have hnat := congrArg Char.toNat h
  rw [Text.toNat_charOfByte, Text.toNat_charOfByte] at hnat
  exact UInt8.toNat_inj.mp hnat

theorem splitChar_textOf (line : Bytes) :
    Text.splitChar '\t' (textOf line) = (line.splitOn tab).map textOf := by
  rw [Text.splitChar, textOf, String.toList_ofList,
    show '\t' = Char.ofNat tab.toNat from rfl, splitOn_map charOfByte_injective, List.map_map]
  rfl

theorem parseXoverLine_none {line : String} (h : (Text.splitChar '\t' line).length < 8) :
    parseXoverLine line = none := by
  rw [parseXoverLine]
  split
  · rename_i hparts
    rw [hparts] at h
    simp only [List.length_cons] at h
    omega
  · rfl

theorem exists_seven {α : Type} {l : List α} (h : 7 ≤ l.length) :
    ∃ a b c d e f g rest, l = a :: b :: c :: d :: e :: f :: g :: rest := by
  match l, h with
  | a :: b :: c :: d :: e :: f :: g :: rest, _ => exact ⟨a, b, c, d, e, f, g, rest, rfl⟩

theorem trim_cr (cs : List Char) : Text.trim (.ofList (cs ++ ['\r'])) = Text.trim (.ofList cs) := by
  rw [← String.toList_inj, Text.trim_toList, Text.trim_toList, String.toList_ofList,
    String.toList_ofList, trim_append_ends (by simp)]

/-- A CR at the end of a line is in the number of lines, which is trimmed, or in a
field that is not read. -/
theorem parseXoverLine_cr (cs : List Char) :
    parseXoverLine (.ofList (cs ++ ['\r'])) = parseXoverLine (.ofList cs) := by
  obtain ⟨parts, last, hparts, hparts'⟩ :=
    exists_splitOn_append (show '\t' ∉ ['\r'] by decide) cs
  have hsplit : Text.splitChar '\t' (.ofList cs) = (parts ++ [last]).map .ofList := by
    rw [Text.splitChar, String.toList_ofList, hparts]
  have hsplit' : Text.splitChar '\t' (.ofList (cs ++ ['\r'])) =
      (parts ++ [last ++ ['\r']]).map .ofList := by
    rw [Text.splitChar, String.toList_ofList, hparts']
  by_cases hfew : parts.length < 7
  · rw [parseXoverLine_none, parseXoverLine_none]
    · rw [hsplit, List.length_map, List.length_append, List.length_singleton]
      omega
    · rw [hsplit', List.length_map, List.length_append, List.length_singleton]
      omega
  · obtain ⟨a, b, c, d, e, f, g, rest, rfl⟩ := exists_seven (Nat.le_of_not_lt hfew)
    rw [parseXoverLine, hsplit', parseXoverLine, hsplit]
    cases rest with
    | nil =>
        simp only [List.cons_append, List.nil_append, List.map_cons, List.map_nil, trim_cr]
    | cons h rest => rfl

/-- One line of the lenient parser's input, with the line itself. -/
def xoverLine (line : Bytes) : Option (Bytes × XoverEntry) :=
  (parseXoverLine (textOf line)).map fun entry => (line, entry)

def xoverLines (data : Bytes) : List (Bytes × XoverEntry) :=
  (data.splitOn lf).filterMap xoverLine

theorem parseXoverLine_chopCr (cs : List Char) :
    parseXoverLine (.ofList (Text.chopCr cs)) = parseXoverLine (.ofList cs) := by
  rcases Text.chopCr_cases cs with h | h
  · rw [h]
  · conv_rhs => rw [h, parseXoverLine_cr]

/-- The lenient parser reads ASCII line by line. -/
theorem xoverLines_map_snd {data : Bytes} (hascii : ∀ b ∈ data, b < 128) :
    (xoverLines data).map Prod.snd = parseXoverData data := by
  have hsnd : ∀ line, (xoverLine line).map Prod.snd = parseXoverLine (textOf line) := by
    intro line
    rw [xoverLine, Option.map_map]
    exact Option.map_id'
  rw [xoverLines, List.map_filterMap]
  simp only [hsnd]
  induction data using pieces_induction (d := lf) with
  | nil => rfl
  | last p hfree hne =>
      have hdecoded := Text.lossyFrom_of_ascii hascii
      have hchars : '\n' ∉ Text.lossyFrom [] p := Text.lf_not_mem_lossyFrom (by simp) hfree
      have hlines : Text.lines (Text.fromUtf8Lossy p) = [textOf p] := by
        rw [Text.lines, Text.fromUtf8Lossy, String.toList_ofList,
          pieces_of_not_mem hchars (by simpa [hdecoded] using hne), List.map_singleton,
          Text.chopLineEnd_of_not_mem hchars, hdecoded]
        rfl
      rw [parseXoverData, hlines, List.splitOn_eq_singleton hfree]
      rfl
  | cons p rest ih =>
      rw [Piece.full, List.append_assoc, List.singleton_append] at hascii ⊢
      have hdecoded : Text.lossyFrom [] p.text = p.text.map fun b => Char.ofNat b.toNat :=
        Text.lossyFrom_of_ascii fun b hb => hascii b (by simp [hb])
      rw [List.splitOn_append_cons_self_of_not_mem p.free, parseXoverData,
        Text.lines_lossy_cons p.free, List.filterMap_cons, List.filterMap_cons,
        parseXoverLine_chopCr, hdecoded, ih fun b hb => hascii b (by simp [hb])]
      rfl

/-! ### Rows as entries -/

/-- The entry of a row: what the lenient parser keeps of its fields. -/
def entryOf (row : LosslessOverviewRow) : XoverEntry :=
  let field (index : Nat) : String := textOf (row.fields.getD index [])
  { articleNum := row.articleNumber
    subject := field 0
    from_ := field 1
    date := field 2
    messageId := Text.trimAngles (field 3)
    references := field 4
    bytes := (Text.parseU64 (field 5)).getD 0
    lines := (Text.parseU64 (Text.trim (field 6))).getD 0 }

theorem isDigit_charOfByte {b : UInt8} (h : isAsciiDigit b = true) :
    (Char.ofNat b.toNat).isDigit = true := by
  simp only [isAsciiDigit, Bool.decide_and, Bool.and_eq_true, decide_eq_true_eq,
    UInt8.le_iff_toNat_le, UInt8.reduceToNat] at h
  have hnat := Text.toNat_charOfByte b
  simp only [Char.isDigit, Bool.and_eq_true, decide_eq_true_eq]
  show 48 ≤ (Char.ofNat b.toNat).toNat ∧ (Char.ofNat b.toNat).toNat ≤ 57
  rw [hnat]
  exact h

theorem digitsValue_textOf (digits : Bytes) :
    Text.digitsValue (textOf digits).toList = asciiDigitsValue digits := by
  rw [textOf, String.toList_ofList, Text.digitsValue, List.foldl_map, asciiDigitsValue]
  simp only [Text.toNat_charOfByte]

/-- The lenient parser reads a number that the lossless one accepts. -/
theorem parseU64_textOf {digits : Bytes} {n : Nat} (h : Denotes digits n) :
    Text.parseU64 (textOf digits) = some n := by
  have hdigit : ∀ c ∈ (textOf digits).toList, c.isDigit = true := by
    intro c hc
    rw [textOf, String.toList_ofList] at hc
    obtain ⟨b, hb, rfl⟩ := List.mem_map.mp hc
    exact isDigit_charOfByte (h.decimal b hb)
  have hsign : (textOf digits).toList.head? ≠ some '+' := fun hplus =>
    absurd (hdigit _ (List.mem_of_head? hplus)) (by decide)
  have hne : (textOf digits).toList ≠ [] := by
    simpa [textOf] using h.nonempty
  have hvalue : Text.digitsValue (textOf digits).toList = n := by
    rw [digitsValue_textOf, asciiDigitsValue_eq, h.value]
  rw [Text.parseU64]
  simp only [if_neg hsign, hvalue]
  rw [if_pos ⟨hne, List.all_eq_true.mpr hdigit, h.bounded⟩]

def ReadFrom (line : Bytes) (row : LosslessOverviewRow) : Prop :=
  ∃ digits, Spells line digits row.fields ∧ Denotes digits row.articleNumber

theorem parseXoverLine_of_row {line : Bytes} {row : LosslessOverviewRow}
    (h : ReadFrom line row) (hfields : 7 ≤ row.fields.length) :
    parseXoverLine (textOf line) = some (entryOf row) := by
  obtain ⟨digits, hspells, hdenotes⟩ := h
  obtain ⟨a, b, c, d, e, f, g, rest, hparts⟩ := exists_seven hfields
  have hsplit : Text.splitChar '\t' (textOf line) =
      (digits :: a :: b :: c :: d :: e :: f :: g :: rest).map textOf := by
    rw [splitChar_textOf, spells_iff.mp hspells, hparts]
  rw [parseXoverLine, hsplit]
  simp only [List.map_cons, parseU64_textOf hdenotes, Option.getD_some, entryOf, hparts]
  rfl

theorem textOf_stripCr (line : Bytes) :
    parseXoverLine (textOf (stripCr line)) = parseXoverLine (textOf line) := by
  unfold stripCr
  split
  · rename_i h
    obtain ⟨front, rfl⟩ := List.getLast?_eq_some_iff.mp h
    rw [List.dropLast_concat, textOf, textOf, List.map_append, List.map_singleton]
    exact (parseXoverLine_cr _).symm
  · rfl

/-! ### All rows -/

structure SameLine (row : LosslessOverviewRow) (origin : Bytes × XoverEntry) : Prop where
  line : ReadFrom (stripCr origin.1) row
  entry : origin.2 = entryOf row

theorem map_entryOf {rows : List LosslessOverviewRow} {origins : List (Bytes × XoverEntry)}
    (h : List.Forall₂ SameLine rows origins) : rows.map entryOf = origins.map Prod.snd := by
  induction h with
  | nil => rfl
  | cons h _ ih => rw [List.map_cons, List.map_cons, ih, h.entry]

section Rows

variable {format : OverviewFormat} {startArticle endArticle : Nat}

/-- Along the lines: an accepted one is an entry, any other may be one. -/
theorem exists_origins (hformat : 7 ≤ format.fields.length) (lines : List Bytes)
    {earlier : List Nat} {verdicts : List LineVerdict}
    (h : JudgedAll format startArticle endArticle earlier
      ((lines.map stripCr).filter fun line => !line.isEmpty) verdicts) :
    ∃ origins, origins.Sublist (lines.filterMap xoverLine) ∧
      List.Forall₂ SameLine (verdicts.filterMap (·.row?)) origins := by
  induction lines generalizing earlier verdicts with
  | nil =>
      cases h
      exact ⟨[], List.Sublist.refl _, .nil⟩
  | cons line lines ih =>
      have hlater : ∀ origins : List (Bytes × XoverEntry),
          origins.Sublist (lines.filterMap xoverLine) →
          origins.Sublist ((line :: lines).filterMap xoverLine) := by
        intro origins hsub
        rw [List.filterMap_cons]
        split
        · exact hsub
        · exact hsub.trans (List.sublist_cons_self _ _)
      rw [List.map_cons, List.filter_cons] at h
      split at h
      · cases h with
        | @accepted earlier' head row lines' verdicts' haccepts hrest =>
            obtain ⟨origins, hsub, hrows⟩ := ih hrest
            have hentry : xoverLine line = some (line, entryOf row) := by
              rw [xoverLine, ← textOf_stripCr, parseXoverLine_of_row haccepts.spelled
                (haccepts.count ▸ hformat)]
              rfl
            refine ⟨(line, entryOf row) :: origins, ?_, .cons ⟨haccepts.spelled, rfl⟩ hrows⟩
            rw [List.filterMap_cons, hentry]
            exact hsub.cons_cons _
        | @defective earlier' head defect lines' verdicts' hrejects hrest =>
            obtain ⟨origins, hsub, hrows⟩ := ih hrest
            exact ⟨origins, hlater origins hsub, hrows⟩
      -- An empty line is no row of the one parser and at most an entry of the other.
      · obtain ⟨origins, hsub, hrows⟩ := ih h
        exact ⟨origins, hlater origins hsub, hrows⟩

end Rows

/-- **The parsers agree on good rows.** On ASCII the rows that the lossless parser
accepts are, in their order, among the entries of the lenient one, each next to the
entry of its own line: with the same number and fields, the angle brackets trimmed off
the message-id, and the numbers of bytes and lines parsed. -/
theorem parseLosslessOverviewRows_sublist (data : Bytes) (hascii : ∀ b ∈ data, b < 128)
    (format : OverviewFormat) (hformat : 7 ≤ format.fields.length)
    (startArticle endArticle : Nat) :
    ((parseLosslessOverviewRows data format startArticle endArticle).rows.map entryOf).Sublist
        (parseXoverData data) ∧
      ∃ origins, origins.Sublist (xoverLines data) ∧
        (xoverLines data).map Prod.snd = parseXoverData data ∧
        List.Forall₂ SameLine
          (parseLosslessOverviewRows data format startArticle endArticle).rows origins := by
  have hseen : ∀ n, n ∈ ({} : RowScan).seen ↔ n ∈ ([] : List Nat) := fun n => Iff.rfl
  obtain ⟨verdicts, hall, hrows, -⟩ :=
    foldl_scanRow_judged format startArticle endArticle (wireLines data) hseen
  have hrows' : (parseLosslessOverviewRows data format startArticle endArticle).rows =
      verdicts.filterMap (·.row?) := hrows
  obtain ⟨origins, hsub, hsame⟩ := exists_origins hformat (data.splitOn lf) hall
  rw [hrows']
  refine ⟨?_, origins, hsub, xoverLines_map_snd hascii, hsame⟩
  rw [map_entryOf hsame, ← xoverLines_map_snd hascii]
  exact hsub.map _

end Overview

def sevenFields : OverviewFormat :=
  ⟨["Subject:", "From:", "Date:", "Message-ID:", "References:", ":bytes", ":lines"].map Text.utf8⟩

/-- Two overview lines, the last one without its end. -/
def overviewText : Bytes :=
  Text.utf8 "3\ta\tb\tc\t<d>\t\t10\t2\r\n+4\ta\tb\tc\t<d>\t\t10\t 2 \r\n5\te\tf\tg\th\ti\tx\t 9\r"

theorem parseLosslessOverviewRows_sublist_on_two :
    ([⟨3, ["a", "b", "c", "<d>", "", "10", "2"].map Text.utf8⟩,
        ⟨5, ["e", "f", "g", "h", "i", "x", " 9"].map Text.utf8⟩].map Overview.entryOf).Sublist
      (parseXoverData overviewText) :=
  (Overview.parseLosslessOverviewRows_sublist overviewText (by decide +kernel) sevenFields
    (by decide) 1 9).1

end NzbNntp
