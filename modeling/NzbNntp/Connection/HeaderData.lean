import NzbNntp.Connection.Parsers
import NzbNntp.Text.Words

/-!
`XHDR` and `XPAT` over the wire. A header goes out as the number of its article, a
space and its value. Parsing gives back the headers that have a value: the space
before an empty one is trimmed off before the parser looks for it.
-/

namespace NzbNntp

open Text Trimming

/-- The value of a header: one line, with no whitespace around it. -/
structure HeaderValue where
  text : String
  free : '\n' ∉ text.toList
  bare : Bare isWhitespace text.toList

def HeaderValue.empty : HeaderValue where
  text := ""
  free := by simp
  bare := ⟨by simp, by simp⟩

def headerLine (number : UInt64) (value : HeaderValue) : Bytes :=
  utf8 (toString number.toNat ++ " " ++ value.text ++ "\r\n")

def headerEntry (number : UInt64) (value : HeaderValue) : HeaderEntry :=
  { articleNum := number.toNat, value := value.text }

section Line

variable (number : UInt64) (value : HeaderValue)

theorem number_not_separator {c : Char} (h : c ∈ (toString number.toNat).toList) :
    (c = ' ' || c = '\t') = false := by
  have hdigit := isWhitespace_of_isDigit (isDigit_of_mem_toString h)
  rw [Bool.or_eq_false_iff, decide_eq_false_iff_not, decide_eq_false_iff_not]
  constructor
  · rintro rfl
    exact absurd hdigit (by decide)
  · rintro rfl
    exact absurd hdigit (by decide)

theorem number_head {c : Char} (h : (toString number.toNat).toList.head? = some c) :
    isWhitespace c = false :=
  isWhitespace_of_isDigit (isDigit_of_mem_toString (List.mem_of_head? h))

theorem line_toList : (toString number.toNat ++ " " ++ value.text).toList =
    (toString number.toNat).toList ++ ' ' :: value.text.toList := by
  rw [String.toList_append, String.toList_append, List.append_assoc]
  rfl

/-- The space is found before a value. -/
theorem parseHeaderLine_of_value (hvalue : value.text ≠ "") :
    parseHeaderLine (toString number.toNat ++ " " ++ value.text) =
      some (headerEntry number value) := by
  have hne : value.text.toList ≠ [] := by simpa using hvalue
  have hdigits := toString_ne_nil number.toNat
  have hbare : Bare isWhitespace ((toString number.toNat).toList ++ ' ' :: value.text.toList) := by
    constructor
    · intro c hc
      rw [List.head?_append_of_ne_nil _ hdigits] at hc
      exact number_head number hc
    · intro c hc
      rw [List.getLast?_append_of_ne_nil _ (List.cons_ne_nil _ _),
        List.getLast?_cons_of_ne_nil hne] at hc
      exact value.bare.last c hc
  have htrimmed : (trim (toString number.toNat ++ " " ++ value.text)).toList =
      (toString number.toNat).toList ++ ' ' :: value.text.toList := by
    rw [trim_toList, line_toList, trim_of_bare hbare]
  have hnumber : ∀ c ∈ (toString number.toNat).toList, (!(c = ' ' || c = '\t')) = true := by
    intro c hc
    rw [number_not_separator number hc]
    rfl
  have hstart : trimStartChars (' ' :: value.text.toList) = value.text.toList := by
    rw [trimStartChars, List.dropWhile_cons, if_pos (by decide), dropWhile_of_head value.bare.head]
  have hany : ((toString number.toNat).toList ++ ' ' :: value.text.toList).any
      (fun c => c = ' ' || c = '\t') = true := by
    simp
  rw [parseHeaderLine, htrimmed]
  simp only [if_pos hany]
  rw [List.takeWhile_append_of_pos hnumber, List.dropWhile_append_of_pos hnumber,
    List.takeWhile_cons, if_neg (by decide), List.dropWhile_cons, if_neg (by decide), hstart,
    List.append_nil, String.ofList_toList, String.ofList_toList, parseU64_toString number.toNat_lt]
  rfl

/-- Before an empty value it has been trimmed off. -/
theorem parseHeaderLine_of_empty (hvalue : value.text = "") :
    parseHeaderLine (toString number.toNat ++ " " ++ value.text) = none := by
  have hsolid : Bare isWhitespace (toString number.toNat).toList :=
    ⟨fun _ hc => number_head number hc, fun _ hc =>
      isWhitespace_of_isDigit (isDigit_of_mem_toString (List.mem_of_getLast? hc))⟩
  have htrimmed : (trim (toString number.toNat ++ " " ++ value.text)).toList =
      (toString number.toNat).toList := by
    have hnone : ∀ c ∈ ([] : List Char), isWhitespace c = true := by simp
    have hspace : ∀ c ∈ [' '], isWhitespace c = true := by simp
    have hends := trim_append hsolid hnone hspace
    rw [trim_toList, line_toList, hvalue]
    exact hends
  have hany : (toString number.toNat).toList.any (fun c => c = ' ' || c = '\t') = false := by
    rw [List.any_eq_false]
    intro c hc
    rw [number_not_separator number hc]
    decide
  rw [parseHeaderLine, htrimmed]
  simp only [hany, Bool.false_eq_true, if_false]

theorem parseHeaderData_cons (rest : Bytes) :
    parseHeaderData (headerLine number value ++ rest) =
      (parseHeaderLine (toString number.toNat ++ " " ++ value.text)).toList ++
        parseHeaderData rest := by
  let text := toString number.toNat ++ " " ++ value.text
  have hbytes : headerLine number value ++ rest = utf8 (text ++ "\r") ++ lf :: rest := by
    simp only [headerLine, text, utf8_append, List.append_assoc]
    rfl
  have hfree : lf ∉ utf8 (text ++ "\r") := by
    rw [lf_mem_utf8]
    simp only [text, String.toList_append, List.mem_append, not_or]
    exact ⟨⟨⟨(Word.number _).lf_not_mem, by decide⟩, value.free⟩, by decide⟩
  have hdecoded : chopCr (lossyFrom [] (utf8 (text ++ "\r"))) = text.toList := by
    have hlossy := congrArg String.toList (fromUtf8Lossy_utf8 (text ++ "\r"))
    rw [fromUtf8Lossy, String.toList_ofList, String.toList_append] at hlossy
    rw [hlossy]
    exact chopCr_concat _
  rw [parseHeaderData, hbytes, lines_lossy_cons hfree, hdecoded, String.ofList_toList,
    List.filterMap_cons]
  cases parseHeaderLine text with
  | none => rfl
  | some entry => rfl

end Line

/-- What is parsed of a block: the headers with a value. -/
theorem parseHeaderData_lines (headers : List (UInt64 × HeaderValue)) :
    parseHeaderData (headers.flatMap fun h => headerLine h.1 h.2) =
      (headers.filter fun h => h.2.text ≠ "").map fun h => headerEntry h.1 h.2 := by
  induction headers with
  | nil => rfl
  | cons header headers ih =>
      rw [List.flatMap_cons, parseHeaderData_cons, ih]
      by_cases hvalue : header.2.text = ""
      · rw [parseHeaderLine_of_empty _ _ hvalue, List.filter_cons, if_neg (by simpa using hvalue)]
        rfl
      · rw [parseHeaderLine_of_value _ _ hvalue, List.filter_cons, if_pos (by simpa using hvalue)]
        rfl

/-- **Headers survive the wire if they have a value.** Parsing the lines of a list of
headers gives exactly these headers, in their order, if and only if none of the
values is empty. -/
theorem parseHeaderData_exact_iff (headers : List (UInt64 × HeaderValue)) :
    parseHeaderData (headers.flatMap fun h => headerLine h.1 h.2) =
        (headers.map fun h => headerEntry h.1 h.2) ↔
      ∀ h ∈ headers, h.2.text ≠ "" := by
  rw [parseHeaderData_lines]
  constructor
  · intro heq
    have hlen := congrArg List.length heq
    rw [List.length_map, List.length_map, List.length_filter_eq_length_iff] at hlen
    exact fun h hmem => by simpa using hlen h hmem
  · intro hall
    rw [List.filter_eq_self.mpr fun h hmem => by simpa using hall h hmem]

/-- An article without a subject is left out. -/
theorem parseHeaderData_drops_empty :
    parseHeaderData (headerLine 7 .empty) ≠ [headerEntry 7 .empty] := by
  decide +kernel

end NzbNntp
