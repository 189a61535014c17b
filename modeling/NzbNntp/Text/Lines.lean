import NzbNntp.Text

/-!
Text that was bytes: what `String::from_utf8_lossy` makes of encoded text and of the
bytes before and after a LF, and the lines of it.
-/

namespace NzbNntp

open Delimited

namespace Text

/-! ### Decoding -/

theorem sequenceLength_two {b : UInt8} (h : 0xC2 ≤ b.toNat ∧ b.toNat ≤ 0xDF) :
    sequenceLength b = 2 := by
  have hlow : ¬ b < 0x80 := by
    rw [UInt8.lt_iff_toNat_lt]
    exact fun h' => absurd (Nat.lt_of_le_of_lt h.1 h') (by decide)
  rw [sequenceLength, if_neg hlow, if_pos (by simpa [UInt8.le_iff_toNat_le] using h)]

theorem sequenceLength_three {b : UInt8} (h : 0xE0 ≤ b.toNat ∧ b.toNat ≤ 0xEF) :
    sequenceLength b = 3 := by
  have hlow : ¬ b < 0x80 := by
    rw [UInt8.lt_iff_toNat_lt]
    exact fun h' => absurd (Nat.lt_of_le_of_lt h.1 h') (by decide)
  have htwo : ¬ (0xC2 ≤ b ∧ b ≤ 0xDF) := by
    simp only [UInt8.le_iff_toNat_le, UInt8.reduceToNat]
    omega
  rw [sequenceLength, if_neg hlow, if_neg htwo, if_pos (by simpa [UInt8.le_iff_toNat_le] using h)]

theorem sequenceLength_four {b : UInt8} (h : 0xF0 ≤ b.toNat ∧ b.toNat ≤ 0xF4) :
    sequenceLength b = 4 := by
  have hlow : ¬ b < 0x80 := by
    rw [UInt8.lt_iff_toNat_lt]
    exact fun h' => absurd (Nat.lt_of_le_of_lt h.1 h') (by decide)
  have htwo : ¬ (0xC2 ≤ b ∧ b ≤ 0xDF) := by
    simp only [UInt8.le_iff_toNat_le, UInt8.reduceToNat]
    omega
  have hthree : ¬ (0xE0 ≤ b ∧ b ≤ 0xEF) := by
    simp only [UInt8.le_iff_toNat_le, UInt8.reduceToNat]
    omega
  rw [sequenceLength, if_neg hlow, if_neg htwo, if_neg hthree,
    if_pos (by simpa [UInt8.le_iff_toNat_le] using h)]

/-- A second byte: after some first ones not every continuation byte will do. -/
theorem continues_second {first b : UInt8} (h : 0x80 ≤ b.toNat ∧ b.toNat ≤ 0xBF)
    (hE0 : first.toNat = 0xE0 → 0xA0 ≤ b.toNat) (hED : first.toNat = 0xED → b.toNat ≤ 0x9F)
    (hF0 : first.toNat = 0xF0 → 0x90 ≤ b.toNat) (hF4 : first.toNat = 0xF4 → b.toNat ≤ 0x8F) :
    continues [first] b = true := by
  unfold continues
  split
  · rename_i heq
    obtain rfl := (List.cons.inj heq).1
    simpa [UInt8.le_iff_toNat_le] using ⟨hE0 rfl, h.2⟩
  · rename_i heq
    obtain rfl := (List.cons.inj heq).1
    simpa [UInt8.le_iff_toNat_le] using ⟨h.1, hED rfl⟩
  · rename_i heq
    obtain rfl := (List.cons.inj heq).1
    simpa [UInt8.le_iff_toNat_le] using ⟨hF0 rfl, h.2⟩
  · rename_i heq
    obtain rfl := (List.cons.inj heq).1
    simpa [UInt8.le_iff_toNat_le] using ⟨h.1, hF4 rfl⟩
  · simpa [UInt8.le_iff_toNat_le] using h

theorem continues_later {first second b : UInt8} {more : Bytes}
    (h : 0x80 ≤ b.toNat ∧ b.toNat ≤ 0xBF) : continues (first :: second :: more) b = true := by
  simpa [continues, UInt8.le_iff_toNat_le] using h

theorem lossyFrom_begin {b : UInt8} (h : 2 ≤ sequenceLength b) (rest : Bytes) :
    lossyFrom [] (b :: rest) = lossyFrom [b] rest := by
  rw [lossyFrom]
  simp only [if_neg (show ¬ sequenceLength b = 0 by omega),
    if_neg (show ¬ sequenceLength b = 1 by omega)]

theorem lossyFrom_continue {first b : UInt8} {more : Bytes} (h : continues (first :: more) b = true)
    (hlen : more.length + 2 < sequenceLength first) (rest : Bytes) :
    lossyFrom (first :: more) (b :: rest) = lossyFrom (first :: more ++ [b]) rest := by
  rw [lossyFrom]
  simp only [if_pos h, if_neg (Nat.ne_of_lt hlen)]

theorem lossyFrom_complete {first b : UInt8} {more : Bytes} {c : Char}
    (h : continues (first :: more) b = true) (hlen : more.length + 2 = sequenceLength first)
    (hchar : String.utf8EncodeChar c = first :: more ++ [b]) (rest : Bytes) :
    lossyFrom (first :: more) (b :: rest) = c :: lossyFrom [] rest := by
  have hdecoded : fromUtf8 (first :: more ++ [b]) = some (.ofList [c]) := by
    rw [fromUtf8_eq_some, utf8, String.toList_ofList, List.flatMap_singleton, hchar]
  rw [lossyFrom]
  simp only [if_pos h, if_pos hlen, hdecoded, Option.map_some, Option.getD_some,
    String.toList_ofList]
  rfl

theorem toNat_byte {n : Nat} (h : n < 256) : (UInt8.ofNat n).toNat = n := by
  rw [UInt8.toNat_ofNat', Nat.mod_eq_of_lt h]

/-- A byte after the first one of a character. -/
theorem tail_byte (n : Nat) : 0x80 ≤ (UInt8.ofNat (n % 0x40 + 0x80)).toNat ∧
    (UInt8.ofNat (n % 0x40 + 0x80)).toNat ≤ 0xBF := by
  rw [toNat_byte (by omega)]
  omega

section Char

variable {c : Char} (rest : Bytes)

theorem lossyFrom_char_two (hlow : 0x7f < c.toNat) (hhigh : c.toNat ≤ 0x7ff) :
    lossyFrom [] (String.utf8EncodeChar c ++ rest) = c :: lossyFrom [] rest := by
  have hbytes : String.utf8EncodeChar c =
      [UInt8.ofNat (c.toNat / 64 % 0x20 + 0xc0), UInt8.ofNat (c.toNat % 0x40 + 0x80)] := by
    rw [String.utf8EncodeChar]
    exact (if_neg (Nat.not_le.mpr hlow)).trans (if_pos hhigh)
  have hlen := sequenceLength_two (b := UInt8.ofNat (c.toNat / 64 % 0x20 + 0xc0))
    (by rw [toNat_byte (by omega)]; omega)
  rw [hbytes, List.cons_append, lossyFrom_begin (by omega), List.cons_append]
  have hcontinues : continues [UInt8.ofNat (c.toNat / 64 % 0x20 + 0xc0)]
      (UInt8.ofNat (c.toNat % 0x40 + 0x80)) = true := by
    apply continues_second (tail_byte _)
    all_goals
      rw [toNat_byte (by omega)]
      omega
  exact lossyFrom_complete hcontinues (by rw [hlen]; rfl) hbytes _

theorem lossyFrom_char_three (hlow : 0x7ff < c.toNat) (hhigh : c.toNat ≤ 0xffff)
    (hvalid : c.toNat < 0xD800 ∨ 0xDFFF < c.toNat) :
    lossyFrom [] (String.utf8EncodeChar c ++ rest) = c :: lossyFrom [] rest := by
  have hbytes : String.utf8EncodeChar c =
      [UInt8.ofNat (c.toNat / 4096 % 0x10 + 0xe0), UInt8.ofNat (c.toNat / 64 % 0x40 + 0x80),
        UInt8.ofNat (c.toNat % 0x40 + 0x80)] := by
    rw [String.utf8EncodeChar]
    exact (if_neg (show ¬ c.toNat ≤ 0x7f by omega)).trans
      ((if_neg (Nat.not_le.mpr hlow)).trans (if_pos hhigh))
  have hlen := sequenceLength_three (b := UInt8.ofNat (c.toNat / 4096 % 0x10 + 0xe0))
    (by rw [toNat_byte (by omega)]; omega)
  rw [hbytes, List.cons_append, lossyFrom_begin (by omega), List.cons_append,
    lossyFrom_continue _ (by rw [hlen]; decide), List.cons_append]
  · exact lossyFrom_complete (continues_later (tail_byte _)) (by rw [hlen]; rfl) hbytes _
  · apply continues_second (tail_byte _)
    all_goals
      rw [toNat_byte (by omega), toNat_byte (by omega)]
      omega

theorem lossyFrom_char_four (hlow : 0xffff < c.toNat) (hhigh : c.toNat < 0x110000) :
    lossyFrom [] (String.utf8EncodeChar c ++ rest) = c :: lossyFrom [] rest := by
  have hbytes : String.utf8EncodeChar c =
      [UInt8.ofNat (c.toNat / 262144 % 0x08 + 0xf0), UInt8.ofNat (c.toNat / 4096 % 0x40 + 0x80),
        UInt8.ofNat (c.toNat / 64 % 0x40 + 0x80), UInt8.ofNat (c.toNat % 0x40 + 0x80)] := by
    rw [String.utf8EncodeChar]
    exact (if_neg (show ¬ c.toNat ≤ 0x7f by omega)).trans
      ((if_neg (show ¬ c.toNat ≤ 0x7ff by omega)).trans (if_neg (Nat.not_le.mpr hlow)))
  have hlen := sequenceLength_four (b := UInt8.ofNat (c.toNat / 262144 % 0x08 + 0xf0))
    (by rw [toNat_byte (by omega)]; omega)
  rw [hbytes, List.cons_append, lossyFrom_begin (by omega), List.cons_append,
    lossyFrom_continue _ (by rw [hlen]; decide), List.cons_append, List.cons_append,
    List.nil_append, lossyFrom_continue (continues_later (tail_byte _))
      (by rw [hlen]; exact Nat.lt_succ_self 3), List.cons_append]
  · exact lossyFrom_complete (continues_later (tail_byte _)) (by rw [hlen]; rfl) hbytes _
  · apply continues_second (tail_byte _)
    all_goals
      rw [toNat_byte (by omega), toNat_byte (by omega)]
      omega

end Char

theorem lossyFrom_ascii {b : UInt8} (h : b < 128) (rest : Bytes) :
    lossyFrom [] (b :: rest) = Char.ofNat b.toNat :: lossyFrom [] rest := by
  have hlen : sequenceLength b = 1 := by rw [sequenceLength, if_pos h]
  rw [lossyFrom]
  simp only [hlen, if_neg (show ¬ (1 = 0) by decide), if_true]

/-- The bytes of a character are decoded to it, however many they are. -/
theorem lossyFrom_char (c : Char) (rest : Bytes) :
    lossyFrom [] (String.utf8EncodeChar c ++ rest) = c :: lossyFrom [] rest := by
  have hvalid : c.toNat < 0xD800 ∨ (0xDFFF < c.toNat ∧ c.toNat < 0x110000) := c.valid
  by_cases hone : c.toNat ≤ 0x7f
  · have hbyte := toNat_byte (show c.toNat < 256 by omega)
    have hascii : UInt8.ofNat c.toNat < 128 := by
      rw [UInt8.lt_iff_toNat_lt, hbyte]
      exact Nat.lt_succ_of_le hone
    rw [utf8EncodeChar_ascii (Nat.lt_succ_of_le hone), List.singleton_append,
      lossyFrom_ascii hascii, hbyte, Char.ofNat_toNat]
  by_cases htwo : c.toNat ≤ 0x7ff
  · exact lossyFrom_char_two rest (by omega) htwo
  by_cases hthree : c.toNat ≤ 0xffff
  · exact lossyFrom_char_three rest (by omega) hthree (by omega)
  · exact lossyFrom_char_four rest (by omega) (by omega)

/-- Encoded text is decoded as it is. -/
theorem lossyFrom_encoded (cs : List Char) (rest : Bytes) :
    lossyFrom [] (cs.flatMap String.utf8EncodeChar ++ rest) = cs ++ lossyFrom [] rest := by
  induction cs with
  | nil => rfl
  | cons c cs ih => rw [List.flatMap_cons, List.append_assoc, lossyFrom_char, ih, List.cons_append]

@[simp] theorem fromUtf8Lossy_utf8 (s : String) : fromUtf8Lossy (utf8 s) = s := by
  have h := lossyFrom_encoded s.toList []
  rw [List.append_nil] at h
  rw [fromUtf8Lossy, utf8, h]
  simp [lossyFrom]

/-- Decoding ASCII bytes, one character each. -/
theorem lossyFrom_of_ascii {bytes : Bytes} (h : ∀ b ∈ bytes, b < 128) :
    lossyFrom [] bytes = bytes.map fun b => Char.ofNat b.toNat := by
  induction bytes with
  | nil => rfl
  | cons b bytes ih =>
      rw [lossyFrom_ascii (h b (by simp)), ih fun d hd => h d (by simp [hd]), List.map_cons]

/-- No sequence goes on at a LF. -/
theorem continues_lf (open_ : Bytes) : continues open_ lf = false := by
  unfold continues
  split <;> decide

/-- A LF ends what is undecoded before it, and what follows is decoded on its own. -/
theorem lossyFrom_lf (open_ front rest : Bytes) :
    lossyFrom open_ (front ++ lf :: rest) =
      lossyFrom open_ front ++ '\n' :: lossyFrom [] rest := by
  have hlen : sequenceLength lf = 1 := by decide
  fun_induction lossyFrom open_ front with
  | case1 open_ hempty =>
      rw [List.isEmpty_iff.mp hempty, List.nil_append, lossyFrom_ascii (by decide)]
      rfl
  | case2 open_ hopen =>
      obtain ⟨first, more, rfl⟩ := List.exists_cons_of_ne_nil (mt List.isEmpty_iff.mpr hopen)
      rw [List.nil_append, lossyFrom]
      simp only [continues_lf, hlen, Bool.false_eq_true, if_false, if_true,
        if_neg (show ¬ (1 = 0) by decide)]
      rfl
  | _ => simp_all [lossyFrom]

/-! ### Lines -/

def chopCr (line : List Char) : List Char :=
  if line.getLast? = some '\r' then line.dropLast else line

theorem chopLineEnd_concat (line : List Char) : chopLineEnd (line ++ ['\n']) = chopCr line := by
  rw [chopLineEnd, if_pos (by simp), List.dropLast_concat]
  rfl

theorem chopLineEnd_of_not_mem {line : List Char} (h : '\n' ∉ line) : chopLineEnd line = line := by
  rw [chopLineEnd, if_neg fun hlast => h (List.mem_of_getLast? hlast)]

theorem chopCr_concat (line : List Char) : chopCr (line ++ ['\r']) = line := by
  simp [chopCr]

/-- A CR is dropped only from the end. -/
theorem chopCr_cases (line : List Char) : chopCr line = line ∨ line = chopCr line ++ ['\r'] := by
  unfold chopCr
  split
  · rename_i h
    obtain ⟨front, rfl⟩ := List.getLast?_eq_some_iff.mp h
    exact .inr (by simp)
  · exact .inl rfl

theorem toNat_charOfByte (b : UInt8) : (Char.ofNat b.toNat).toNat = b.toNat := by
  have hvalid : b.toNat.isValidChar := .inl (Nat.lt_trans b.toNat_lt (by decide))
  rw [Char.ofNat, dif_pos hvalid]
  rfl

theorem charOfByte_ne_lf {b : UInt8} (h : lf ≠ b) : '\n' ≠ Char.ofNat b.toNat := by
  intro heq
  have hnat := congrArg Char.toNat heq
  rw [toNat_charOfByte] at hnat
  exact h (UInt8.toNat_inj.mp hnat)

/-- Decoding makes no line ends. -/
theorem lf_not_mem_lossyFrom {open_ bytes : Bytes} (hopen : lf ∉ open_) (h : lf ∉ bytes) :
    '\n' ∉ lossyFrom open_ bytes := by
  have hreplaced : '\n' ≠ '\uFFFD' := by decide
  fun_induction lossyFrom open_ bytes with
  | case1 => simp
  | case2 => simp
  | case4 b rest hlen hlen' ih =>
      simp only [List.mem_cons, not_or] at h ⊢
      exact ⟨charOfByte_ne_lf h.1, ih hopen h.2⟩
  | case6 b rest first more hgoes hlen ih =>
      simp only [List.mem_cons, not_or] at h hopen
      rw [List.mem_append, not_or]
      refine ⟨?_, ih (by simp) h.2⟩
      cases hdecoded : fromUtf8 (first :: more ++ [b]) with
      | none => simp
      | some s =>
          rw [fromUtf8_eq_some] at hdecoded
          rw [Option.map_some, Option.getD_some, ← lf_mem_utf8, hdecoded]
          simp [hopen, h.1]
  | case9 b rest first more hgoes hlen hlen' ih =>
      simp only [List.mem_cons, not_or] at h ⊢
      exact ⟨hreplaced, charOfByte_ne_lf h.1, ih (by simp) h.2⟩
  | _ => simp_all

/-- The text of a line of bytes, and the lines of the text that follows. -/
theorem lines_lossy_cons {line : Bytes} (h : lf ∉ line) (rest : Bytes) :
    lines (fromUtf8Lossy (line ++ lf :: rest)) =
      .ofList (chopCr (lossyFrom [] line)) :: lines (fromUtf8Lossy rest) := by
  have hfree : '\n' ∉ lossyFrom [] line := lf_not_mem_lossyFrom (by simp) h
  rw [fromUtf8Lossy, lossyFrom_lf, lines, String.toList_ofList, pieces_append hfree,
    List.map_cons, chopLineEnd_concat, lines, fromUtf8Lossy, String.toList_ofList]

/-- Whole lines: nothing, or bytes with a LF at their end. -/
def WholeLines (bytes : Bytes) : Prop := bytes = [] ∨ bytes.getLast? = some lf

/-- Induction along whole lines, from the first one on. -/
theorem wholeLines_induction {P : Bytes → Prop} (nil : P [])
    (cons : ∀ line rest, lf ∉ line → P rest → P (line ++ lf :: rest)) {bytes : Bytes}
    (h : WholeLines bytes) : P bytes := by
  induction bytes using pieces_induction (d := lf) with
  | nil => exact nil
  | last p hfree hne =>
      rcases h with rfl | hlast
      · exact nil
      · exact absurd (List.mem_of_getLast? hlast) hfree
  | cons p rest ih =>
      rw [Piece.full, List.append_assoc, List.singleton_append] at h ⊢
      refine cons p.text rest p.free (ih ?_)
      rcases List.eq_nil_or_concat' rest with rfl | ⟨front, b, rfl⟩
      · exact .inl rfl
      · rcases h with hnil | hlast
        · simp at hnil
        · rw [← List.cons_append, ← List.append_assoc, List.getLast?_concat] at hlast
          exact .inr (by rw [List.getLast?_concat, hlast])

/-- The lines of whole lines, and of what follows them. -/
theorem lines_lossy_append {front : Bytes} (h : WholeLines front) (rest : Bytes) :
    lines (fromUtf8Lossy (front ++ rest)) =
      lines (fromUtf8Lossy front) ++ lines (fromUtf8Lossy rest) := by
  apply wholeLines_induction (P := fun front => lines (fromUtf8Lossy (front ++ rest)) =
    lines (fromUtf8Lossy front) ++ lines (fromUtf8Lossy rest)) rfl _ h
  intro line more hline ih
  rw [List.append_assoc, List.cons_append, lines_lossy_cons hline, lines_lossy_cons hline, ih,
    List.cons_append]

/-! ### Valid encodings -/

def IsUtf8 (bytes : Bytes) : Prop := utf8 (fromUtf8Lossy bytes) = bytes

theorem isUtf8_utf8 (s : String) : IsUtf8 (utf8 s) := by rw [IsUtf8, fromUtf8Lossy_utf8]

theorem fromUtf8_of_isUtf8 {bytes : Bytes} (h : IsUtf8 bytes) :
    fromUtf8 bytes = some (fromUtf8Lossy bytes) := fromUtf8_eq_some.mpr h

theorem fromUtf8_of_not_isUtf8 {bytes : Bytes} (h : ¬ IsUtf8 bytes) : fromUtf8 bytes = none := by
  cases hdecoded : fromUtf8 bytes with
  | none => rfl
  | some text =>
      obtain rfl := fromUtf8_eq_some.mp hdecoded
      exact absurd (isUtf8_utf8 text) h

/-- A line and what follows it are encodings of texts if both are together. -/
theorem isUtf8_cons {line : Bytes} (h : lf ∉ line) (rest : Bytes) :
    IsUtf8 (line ++ lf :: rest) ↔ IsUtf8 line ∧ IsUtf8 rest := by
  have hfree : lf ∉ utf8 (fromUtf8Lossy line) := by
    rw [lf_mem_utf8, fromUtf8Lossy, String.toList_ofList]
    exact lf_not_mem_lossyFrom (by simp) h
  have hdecoded : utf8 (fromUtf8Lossy (line ++ lf :: rest)) =
      utf8 (fromUtf8Lossy line) ++ lf :: utf8 (fromUtf8Lossy rest) := by
    simp only [utf8, fromUtf8Lossy, String.toList_ofList, lossyFrom_lf, List.flatMap_append,
      List.flatMap_cons]
    rfl
  rw [IsUtf8, hdecoded]
  constructor
  · intro heq
    have hbreak := congrArg (breakAfter lf) heq
    rw [breakAfter_append hfree, breakAfter_append h, Option.some.injEq, Prod.mk.injEq] at hbreak
    exact ⟨List.append_cancel_right hbreak.1, hbreak.2⟩
  · rintro ⟨hline, hrest⟩
    rw [hline, hrest]

theorem isUtf8_append {front : Bytes} (h : WholeLines front) (rest : Bytes) :
    IsUtf8 (front ++ rest) ↔ IsUtf8 front ∧ IsUtf8 rest := by
  apply wholeLines_induction (P := fun front =>
    IsUtf8 (front ++ rest) ↔ IsUtf8 front ∧ IsUtf8 rest) _ _ h
  · exact (and_iff_right rfl).symm
  · intro line more hline ih
    rw [List.append_assoc, List.cons_append, isUtf8_cons hline, isUtf8_cons hline, ih, and_assoc]

end Text

end NzbNntp
