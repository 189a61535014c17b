import NzbNntp.Library.Trimming
import NzbNntp.Connection.Basic

/-!
`parse_response_line` with every slice and every operation on `u16` that could
panic, and what it makes of a line. Its first three bytes are looked at as bytes,
but the message is cut off as characters: an ASCII byte is a whole character, so
the cut is at a character boundary.
-/

namespace NzbNntp

namespace Text

/-- `&s[n..]` on the characters of `s`; `none` is the panic of an offset that is no
character boundary. -/
def sliceFrom : Nat → List Char → Option (List Char)
  | 0, cs => some cs
  | _ + 1, [] => none
  | n + 1, c :: cs =>
      if c.utf8Size ≤ n + 1 then sliceFrom (n + 1 - c.utf8Size) cs else none

/-- `&bytes[..n]`; `none` is the panic of a slice beyond the end. -/
def sliceTo (n : Nat) (bytes : Bytes) : Option Bytes :=
  if n ≤ bytes.length then some (bytes.take n) else none

theorem utf8Size_ascii {c : Char} (h : c.toNat < 128) : c.utf8Size = 1 := by
  rw [Char.utf8Size_eq_one_iff]
  exact Nat.le_of_lt_succ h

/-- A slice after ASCII characters is what follows them. -/
theorem sliceFrom_append {cs : List Char} (h : ∀ c ∈ cs, c.toNat < 128) (rest : List Char) :
    sliceFrom cs.length (cs ++ rest) = some rest := by
  induction cs with
  | nil => cases rest <;> rfl
  | cons c cs ih =>
      have hc : c.utf8Size = 1 := utf8Size_ascii (h c (by simp))
      rw [List.cons_append, List.length_cons, sliceFrom, if_pos (by omega), hc,
        Nat.add_sub_cancel]
      exact ih fun d hd => h d (by simp [hd])

/-- ASCII bytes at the beginning of a text are its first characters. -/
theorem exists_chars_of_ascii {bytes rest : Bytes} {cs : List Char}
    (hbytes : ∀ b ∈ bytes, b < 128)
    (h : cs.flatMap String.utf8EncodeChar = bytes ++ rest) :
    ∃ more, cs = (bytes.map fun b => Char.ofNat b.toNat) ++ more ∧
      more.flatMap String.utf8EncodeChar = rest := by
  induction bytes generalizing cs with
  | nil => exact ⟨cs, rfl, h⟩
  | cons b bytes ih =>
      cases cs with
      | nil => cases h
      | cons c cs =>
          rw [List.flatMap_cons, List.cons_append] at h
          obtain ⟨first, later, hc⟩ :=
            List.exists_cons_of_ne_nil (String.utf8EncodeChar_ne_nil (c := c))
          rw [hc, List.cons_append] at h
          obtain ⟨rfl, htail⟩ := List.cons.inj h
          have hfirst : first < 128 := hbytes first (by simp)
          have hchar : c.toNat = first.toNat := by
            rw [← mem_utf8EncodeChar_ascii hfirst, hc]
            simp
          have hlt : first.toNat < 128 := by simpa [UInt8.lt_iff_toNat_lt] using hfirst
          have hsingle := utf8EncodeChar_ascii (c := c) (by omega)
          rw [hc] at hsingle
          obtain ⟨-, rfl⟩ := List.cons.inj hsingle
          obtain ⟨more, hmore, hrest⟩ := ih (fun d hd => hbytes d (by simp [hd])) htail
          refine ⟨more, ?_, hrest⟩
          rw [List.map_cons, List.cons_append, ← hmore, ← hchar, Char.ofNat_toNat]

/-- `trimmed` is `line` without the CR and LF characters it ends in. -/
structure Trimmed (line trimmed : String) : Prop where
  ends : ∃ ends : List Char, line.toList = trimmed.toList ++ ends ∧
    ∀ c ∈ ends, c = '\r' ∨ c = '\n'
  last : ∀ c, trimmed.toList.getLast? = some c → c ≠ '\r' ∧ c ≠ '\n'

theorem trimmed_iff {line trimmed : String} :
    Trimmed line trimmed ↔ trimEndCrLf line = trimmed := by
  have hiff := Trimming.rdropWhile_eq_iff (p := fun c : Char => c = '\r' || c = '\n')
    (l := line.toList) (m := trimmed.toList)
  simp only [Bool.or_eq_true, decide_eq_true_eq, Bool.or_eq_false_iff, decide_eq_false_iff_not]
    at hiff
  rw [trimEndCrLf, ← String.toList_inj, String.toList_ofList]
  exact ⟨fun h => hiff.mpr ⟨h.ends, h.last⟩, fun h => ⟨(hiff.mp h).1, (hiff.mp h).2⟩⟩

end Text

/-- `acc * 10 + u16::from(b - b'0')`; `none` is an overflow. If the product overflows,
so does the sum. -/
def pushDigit (acc : UInt16) (b : UInt8) : Option UInt16 :=
  if b < 48 then none
  else if acc.toNat * 10 + (b - 48).toNat < 2 ^ 16 then some (acc * 10 + (b - 48).toUInt16)
  else none

/-- `parse_response_line`; `none` is a panic. -/
def parseResponseLineChecked (line : String) : Option (NntpResult NntpResponse) :=
  let trimmed := Text.trimEndCrLf line
  let bytes := Text.utf8 trimmed
  if bytes.length < 3 then
    some (.error (.protocol s!"Response line too short: {trimmed.quote}"))
  else do
    let digits ← Text.sliceTo 3 bytes
    if !digits.all Overview.isAsciiDigit then
      return .error (.protocol s!"Invalid response code in: {trimmed.quote}")
    else
      let code ← digits.foldlM pushDigit 0
      let rest ← Text.sliceFrom 3 trimmed.toList
      return .ok { code := code.toNat, message := .ofList rest.tail }

theorem isAsciiDigit_iff {b : UInt8} :
    Overview.isAsciiDigit b = true ↔ 48 ≤ b.toNat ∧ b.toNat ≤ 57 := by
  simp only [Overview.isAsciiDigit, Bool.decide_and, Bool.and_eq_true, decide_eq_true_eq,
    UInt8.le_iff_toNat_le]
  rfl

theorem pushDigit_of_digit {acc : UInt16} {b : UInt8} (hb : Overview.isAsciiDigit b = true)
    (hfits : 10 * acc.toNat + 9 < 2 ^ 16) :
    ∃ code, pushDigit acc b = some code ∧ code.toNat = 10 * acc.toNat + (b.toNat - 48) := by
  obtain ⟨hlow, hhigh⟩ := isAsciiDigit_iff.mp hb
  have hnot : ¬ b < 48 := by
    rw [UInt8.lt_iff_toNat_lt]
    exact Nat.not_lt.mpr hlow
  have hdigit : (b - 48).toNat = b.toNat - 48 := UInt8.toNat_sub_of_le _ _ (UInt8.not_lt.mp hnot)
  refine ⟨acc * 10 + (b - 48).toUInt16, ?_, ?_⟩
  · rw [pushDigit, if_neg hnot, if_pos (by omega)]
  · rw [UInt16.toNat_add, UInt16.toNat_mul, UInt8.toNat_toUInt16, hdigit]
    show (acc.toNat * 10 % 2 ^ 16 + (b.toNat - 48)) % 2 ^ 16 = _
    omega

/-- Digits do not overflow as long as the greatest number they could make does not. -/
theorem foldlM_pushDigit {digits : Bytes} {acc : UInt16}
    (hdigits : ∀ b ∈ digits, Overview.isAsciiDigit b = true)
    (hfits : (acc.toNat + 1) * 10 ^ digits.length ≤ 2 ^ 16) :
    ∃ code, digits.foldlM pushDigit acc = some code ∧
      code.toNat = digits.foldl (fun n b => 10 * n + (b.toNat - 48)) acc.toNat := by
  induction digits generalizing acc with
  | nil => exact ⟨acc, rfl, rfl⟩
  | cons b digits ih =>
      have hb := hdigits b (by simp)
      have hpow : 0 < 10 ^ digits.length := Nat.pow_pos (by decide)
      rw [List.length_cons, Nat.pow_succ] at hfits
      have hten : (10 * acc.toNat + 10) * 10 ^ digits.length ≤ 2 ^ 16 := by
        rw [show 10 * acc.toNat + 10 = (acc.toNat + 1) * 10 by omega, Nat.mul_assoc,
          Nat.mul_comm 10]
        exact hfits
      have hsmall : 10 * acc.toNat + 10 ≤ 2 ^ 16 :=
        le_trans (Nat.le_mul_of_pos_right _ hpow) hten
      have hroom : 10 * acc.toNat + 9 < 2 ^ 16 := by omega
      obtain ⟨next, hnext, hvalue⟩ := pushDigit_of_digit hb hroom
      have hdigit := (isAsciiDigit_iff.mp hb).2
      have hle : (next.toNat + 1) * 10 ^ digits.length ≤ 2 ^ 16 :=
        le_trans (Nat.mul_le_mul_right _ (by omega)) hten
      obtain ⟨code, hcode, hfold⟩ := ih (fun d hd => hdigits d (by simp [hd])) hle
      refine ⟨code, ?_, ?_⟩
      · rw [List.foldlM_cons, hnext]
        exact hcode
      · rw [hfold, List.foldl_cons, hvalue]

/-- What a status line says: a code of three decimal digits and, one character later,
the message. -/
def StatusText (text : String) (code : Nat) (message : String) : Prop :=
  ∃ a b c rest, a < 10 ∧ b < 10 ∧ c < 10 ∧
    text.toList = Nat.digitChar a :: Nat.digitChar b :: Nat.digitChar c :: rest ∧
    code = 100 * a + 10 * b + c ∧ message = .ofList (rest.drop 1)

def BeginsWithCode (bytes : Bytes) : Prop :=
  3 ≤ bytes.length ∧ ∀ b ∈ bytes.take 3, Overview.isAsciiDigit b = true

theorem digitChar_of_digit {b : UInt8} (h : Overview.isAsciiDigit b = true) :
    Nat.digitChar (b.toNat - 48) = Char.ofNat b.toNat ∧ b.toNat - 48 < 10 := by
  obtain ⟨hlow, hhigh⟩ := isAsciiDigit_iff.mp h
  have hall : ∀ n < 10, Nat.digitChar n = Char.ofNat (n + 48) := by decide
  have hlt : b.toNat - 48 < 10 := by omega
  refine ⟨?_, hlt⟩
  rw [hall _ hlt, Nat.sub_add_cancel hlow]

theorem digitChar_lt (n : Nat) (h : n < 10) : (Nat.digitChar n).toNat < 128 := by
  revert n
  decide

theorem exists_ok_iff {line : String} :
    (∃ status, parseResponseLine line = .ok status) ↔
      BeginsWithCode (Text.utf8 (Text.trimEndCrLf line)) := by
  unfold parseResponseLine BeginsWithCode
  dsimp only
  split
  · rename_i hshort
    simp only [reduceCtorEq, exists_false, false_iff, not_and]
    exact fun hlong => absurd hlong (by omega)
  split
  · rename_i hshort hbad
    simp only [reduceCtorEq, exists_false, false_iff, not_and]
    intro _ hall
    rw [List.all_eq_true.mpr hall] at hbad
    cases hbad
  · rename_i hshort hgood
    simp only [Except.ok.injEq, exists_eq', true_iff]
    refine ⟨Nat.le_of_not_lt hshort, ?_⟩
    simpa using hgood

/-- A line that begins with a code has it as its first three characters. -/
theorem exists_code {text : String} (h : BeginsWithCode (Text.utf8 text)) :
    ∃ a b c rest, (∀ d ∈ [a, b, c], Overview.isAsciiDigit d = true) ∧
      (Text.utf8 text).take 3 = [a, b, c] ∧
      text.toList = ([a, b, c].map fun d => Char.ofNat d.toNat) ++ rest := by
  obtain ⟨hlen, hdigits⟩ := h
  obtain ⟨a, b, c, hbytes⟩ : ∃ a b c, (Text.utf8 text).take 3 = [a, b, c] := by
    apply List.length_eq_three.mp
    rw [List.length_take]
    omega
  rw [hbytes] at hdigits
  have hascii : ∀ d ∈ [a, b, c], d < 128 := by
    intro d hd
    have hhigh := (isAsciiDigit_iff.mp (hdigits d hd)).2
    rw [UInt8.lt_iff_toNat_lt]
    exact Nat.lt_of_le_of_lt hhigh (by decide)
  have hsplit : text.toList.flatMap String.utf8EncodeChar =
      [a, b, c] ++ (Text.utf8 text).drop 3 := by
    rw [← hbytes, List.take_append_drop]
    rfl
  obtain ⟨rest, htext, -⟩ := Text.exists_chars_of_ascii hascii hsplit
  exact ⟨a, b, c, rest, hdigits, hbytes, htext⟩

/-- What an accepted line is parsed to, and that nothing panics on the way. -/
theorem parseResponseLine_of_code {line : String}
    (h : BeginsWithCode (Text.utf8 (Text.trimEndCrLf line))) :
    ∃ code message, StatusText (Text.trimEndCrLf line) code message ∧
      parseResponseLine line = .ok { code, message } ∧
      parseResponseLineChecked line = some (.ok { code, message }) := by
  obtain ⟨a, b, c, rest, hdigits, hbytes, htext⟩ := exists_code h
  have hshort : ¬ (Text.utf8 (Text.trimEndCrLf line)).length < 3 := Nat.not_lt.mpr h.1
  have hbad : ¬ (!((Text.utf8 (Text.trimEndCrLf line)).take 3).all Overview.isAsciiDigit) = true := by
    rw [List.all_eq_true.mpr h.2]
    decide
  have hvalue : Overview.asciiDigitsValue [a, b, c] =
      100 * (a.toNat - 48) + 10 * (b.toNat - 48) + (c.toNat - 48) := by
    simp only [Overview.asciiDigitsValue, List.foldl_cons, List.foldl_nil]
    omega
  have hfits : (UInt16.toNat 0 + 1) * 10 ^ 3 ≤ 2 ^ 16 := by decide
  obtain ⟨code, hcode, hfold⟩ := foldlM_pushDigit hdigits hfits
  have hslice : Text.sliceFrom 3 (Text.trimEndCrLf line).toList = some rest := by
    have hascii : ∀ ch ∈ [a, b, c].map fun d => Char.ofNat d.toNat, ch.toNat < 128 := by
      intro ch hch
      obtain ⟨d, hd, rfl⟩ := List.mem_map.mp hch
      rw [← (digitChar_of_digit (hdigits d hd)).1]
      exact digitChar_lt _ (digitChar_of_digit (hdigits d hd)).2
    rw [htext]
    exact Text.sliceFrom_append hascii rest
  refine ⟨Overview.asciiDigitsValue [a, b, c], .ofList (rest.drop 1), ?_, ?_, ?_⟩
  · obtain ⟨ha, ha'⟩ := digitChar_of_digit (hdigits a (by simp))
    obtain ⟨hb, hb'⟩ := digitChar_of_digit (hdigits b (by simp))
    obtain ⟨hc, hc'⟩ := digitChar_of_digit (hdigits c (by simp))
    refine ⟨_, _, _, rest, ha', hb', hc', ?_, hvalue, rfl⟩
    rw [htext, ha, hb, hc]
    rfl
  · rw [parseResponseLine]
    rw [if_neg hshort, if_neg hbad, hbytes, htext]
    rfl
  · rw [hbytes] at hbad
    rw [parseResponseLineChecked, if_neg hshort, Text.sliceTo, if_pos h.1, hbytes]
    show (if _ then _ else _) = _
    rw [if_neg hbad, hcode, hslice, List.drop_one]
    show some (Except.ok _) = _
    rw [hfold]
    rfl

theorem parseResponseLineChecked_of_error {line : String}
    (h : ¬ BeginsWithCode (Text.utf8 (Text.trimEndCrLf line))) :
    parseResponseLineChecked line = some (parseResponseLine line) := by
  rw [parseResponseLineChecked, parseResponseLine]
  split
  · rfl
  · rename_i hshort
    have hlong := Nat.le_of_not_lt hshort
    have hbad : (!((Text.utf8 (Text.trimEndCrLf line)).take 3).all Overview.isAsciiDigit) = true := by
      rw [Bool.not_eq_true', List.all_eq_false]
      simpa [BeginsWithCode, hlong] using h
    rw [Text.sliceTo, if_pos hlong, if_pos hbad, Option.bind_eq_bind, Option.bind_some,
      if_pos hbad]
    rfl

theorem StatusText.le {text : String} {code : Nat} {message : String}
    (h : StatusText text code message) : code ≤ 999 := by
  obtain ⟨a, b, c, rest, ha, hb, hc, -, rfl, -⟩ := h
  omega

/-! ### Lines that are written -/

def threeDigits (code : Nat) : String :=
  .ofList [Nat.digitChar (code / 100), Nat.digitChar (code / 10 % 10), Nat.digitChar (code % 10)]

/-- A line says one code and one message. -/
theorem StatusText.unique {text : String} {code code' : Nat} {message message' : String}
    (h : StatusText text code message) (h' : StatusText text code' message') :
    code = code' ∧ message = message' := by
  obtain ⟨a, b, c, rest, ha, hb, hc, htext, rfl, rfl⟩ := h
  obtain ⟨a', b', c', rest', ha', hb', hc', htext', rfl, rfl⟩ := h'
  have hinj : ∀ m < 10, ∀ n < 10, Nat.digitChar m = Nat.digitChar n → m = n := by decide
  rw [htext, List.cons.injEq, List.cons.injEq, List.cons.injEq] at htext'
  obtain ⟨ha'', hb'', hc'', rfl⟩ := htext'
  obtain rfl := hinj a ha a' ha' ha''
  obtain rfl := hinj b hb b' hb' hb''
  obtain rfl := hinj c hc c' hc' hc''
  exact ⟨rfl, rfl⟩

theorem statusText_written {code : Nat} (h : code ≤ 999) (message : String) :
    StatusText (threeDigits code ++ " " ++ message) code message := by
  refine ⟨code / 100, code / 10 % 10, code % 10, ' ' :: message.toList, by omega, by omega,
    by omega, ?_, by omega, ?_⟩
  · simp [threeDigits]
  · simp

theorem beginsWithCode_written {code : Nat} (h : code ≤ 999) (message : String) :
    BeginsWithCode (Text.utf8 (threeDigits code ++ " " ++ message)) := by
  have hdigit : ∀ n < 10, ∃ d, String.utf8EncodeChar (Nat.digitChar n) = [d] ∧
      Overview.isAsciiDigit d = true := by
    intro n hn
    refine ⟨UInt8.ofNat (n + 48), ?_, ?_⟩
    · revert n
      decide
    · revert n
      decide
  obtain ⟨a, ha, ha'⟩ := hdigit (code / 100) (by omega)
  obtain ⟨b, hb, hb'⟩ := hdigit (code / 10 % 10) (by omega)
  obtain ⟨c, hc, hc'⟩ := hdigit (code % 10) (by omega)
  have hbytes : Text.utf8 (threeDigits code ++ " " ++ message) =
      a :: b :: c :: Text.utf8 (" " ++ message) := by
    simp [threeDigits, Text.utf8, ha, hb, hc]
  rw [hbytes]
  refine ⟨by simp, fun d hd => ?_⟩
  simp only [List.take_succ_cons, List.take_zero, List.mem_cons, List.not_mem_nil, or_false] at hd
  rcases hd with rfl | rfl | rfl
  · exact ha'
  · exact hb'
  · exact hc'

theorem trimmed_written (code : Nat) {message : String}
    (h : ∀ c, message.toList.getLast? = some c → c ≠ '\r' ∧ c ≠ '\n') :
    Text.Trimmed (threeDigits code ++ " " ++ message ++ "\r\n")
      (threeDigits code ++ " " ++ message) := by
  refine ⟨⟨['\r', '\n'], by simp, by simp⟩, fun c hc => ?_⟩
  cases hmessage : message.toList with
  | nil =>
      obtain rfl : c = ' ' := by simpa [hmessage, threeDigits, eq_comm] using hc
      decide
  | cons d ds =>
      apply h
      rw [← hc, String.toList_append, List.getLast?_append_of_ne_nil]
      simp [hmessage]

/-- **Status lines are parsed exactly.** On every line nothing panics: the cut after
the code is at a character boundary and the code fits. The line is accepted if and
only if, without the CR and LF characters it ends in, it begins with three bytes that
are digits; the code is what they say, and the message what follows the character
after them. A code of up to three digits and a message come back from the line that
is written of them. -/
theorem parseResponseLine_exact :
    (∀ line, parseResponseLineChecked line = some (parseResponseLine line) ∧
      ∃ trimmed, Text.Trimmed line trimmed ∧
        ((∃ status, parseResponseLine line = .ok status) ↔ BeginsWithCode (Text.utf8 trimmed)) ∧
        ∀ status, parseResponseLine line = .ok status →
          StatusText trimmed status.code status.message ∧ status.code ≤ 999 ∧
            status.data = none) ∧
    ∀ code message, code ≤ 999 →
      (∀ c, message.toList.getLast? = some c → c ≠ '\r' ∧ c ≠ '\n') →
      parseResponseLine (threeDigits code ++ " " ++ message ++ "\r\n") =
        .ok { code, message } := by
  constructor
  · intro line
    constructor
    · by_cases h : BeginsWithCode (Text.utf8 (Text.trimEndCrLf line))
      · obtain ⟨code, message, -, hparse, hchecked⟩ := parseResponseLine_of_code h
        rw [hparse, hchecked]
      · exact parseResponseLineChecked_of_error h
    · refine ⟨_, Text.trimmed_iff.mpr rfl, exists_ok_iff, fun status hstatus => ?_⟩
      obtain ⟨code, message, htext, hparse, -⟩ :=
        parseResponseLine_of_code (exists_ok_iff.mp ⟨status, hstatus⟩)
      rw [hstatus, Except.ok.injEq] at hparse
      subst hparse
      exact ⟨htext, htext.le, rfl⟩
  · intro code message hcode hmessage
    have htrim := Text.trimmed_iff.mp (trimmed_written code hmessage)
    have hbegins : BeginsWithCode (Text.utf8 (Text.trimEndCrLf
        (threeDigits code ++ " " ++ message ++ "\r\n"))) := by
      rw [htrim]
      exact beginsWithCode_written hcode message
    obtain ⟨code', message', htext, hparse, -⟩ := parseResponseLine_of_code hbegins
    rw [htrim] at htext
    obtain ⟨rfl, rfl⟩ := htext.unique (statusText_written hcode message)
    exact hparse

theorem parseResponseLine_exact_on_nine :
    parseResponseLine (threeDigits 9 ++ " " ++ "\u00e9\r " ++ "\r\n") =
      .ok { code := 9, message := "\u00e9\r " } :=
  parseResponseLine_exact.2 9 "\u00e9\r " (by decide) (by simp)

end NzbNntp
