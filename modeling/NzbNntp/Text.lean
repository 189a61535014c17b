import NzbNntp.Library.Delimited
import Mathlib.Algebra.Group.Nat.Defs
import Mathlib.Data.List.Infix

/-!
Byte strings and the Rust string operations the crate calls. A `&str` is a
Lean `String`: both are sequences of Unicode scalar values, and `utf8` gives
the bytes Rust would hand to the socket. Byte strings are lists of `UInt8`.
-/

namespace NzbNntp

open Delimited

abbrev Bytes := List UInt8

abbrev lf : UInt8 := 10
abbrev cr : UInt8 := 13
abbrev dot : UInt8 := 46
abbrev crlf : Bytes := [cr, lf]

namespace Text

/-- `str::as_bytes` -/
def utf8 (s : String) : Bytes := s.toList.flatMap String.utf8EncodeChar

def fromUtf8 (b : Bytes) : Option String := String.fromUTF8? b.toByteArray

/-- `char::is_whitespace`: the Unicode property White_Space. -/
def isWhitespace (c : Char) : Bool :=
  let n := c.toNat
  (9 ≤ n ∧ n ≤ 13) || n = 32 || n = 133 || n = 160 || n = 5760 ||
    (8192 ≤ n ∧ n ≤ 8202) || n = 8232 || n = 8233 || n = 8239 || n = 8287 || n = 12288

/-- `str::trim_start` on the characters of the string. -/
def trimStartChars (cs : List Char) : List Char := cs.dropWhile isWhitespace

/-- `str::trim_end` on the characters of the string. -/
def trimEndChars (cs : List Char) : List Char := (cs.reverse.dropWhile isWhitespace).reverse

def trim (s : String) : String := .ofList (trimEndChars (trimStartChars s.toList))

/-- `str::trim_end_matches(['\r', '\n'])` -/
def trimEndCrLf (s : String) : String :=
  .ofList (s.toList.reverse.dropWhile fun c => c = '\r' || c = '\n').reverse

/-- `str::trim_matches(|c| c == '<' || c == '>')` -/
def trimAngles (s : String) : String :=
  let angle : Char → Bool := fun c => c = '<' || c = '>'
  .ofList ((s.toList.dropWhile angle).reverse.dropWhile angle).reverse

/-- The words of `cs`, `word` being the (reversed) beginning of the first. -/
def wordsFrom : List Char → List Char → List String
  | word, [] => if word.isEmpty then [] else [.ofList word.reverse]
  | word, c :: cs =>
      if isWhitespace c then
        if word.isEmpty then wordsFrom [] cs
        else .ofList word.reverse :: wordsFrom [] cs
      else wordsFrom (c :: word) cs

def splitWhitespace (s : String) : List String := wordsFrom [] s.toList

/-- What `str::lines` makes of one piece: the final `\n` goes, and with it a
`\r` right before it; a piece without `\n` keeps its `\r`. -/
def chopLineEnd (piece : List Char) : List Char :=
  if piece.getLast? = some '\n' then
    let line := piece.dropLast
    if line.getLast? = some '\r' then line.dropLast else line
  else piece

def lines (s : String) : List String :=
  (pieces '\n' s.toList).map fun piece => .ofList (chopLineEnd piece)

/-- `str::split(c)` -/
def splitChar (c : Char) (s : String) : List String := (s.toList.splitOn c).map .ofList

def contains (s sub : String) : Bool := decide (sub.toList <:+: s.toList)

def toAsciiLowercase (s : String) : String := .ofList (s.toList.map Char.toLower)

def toAsciiUppercase (s : String) : String := .ofList (s.toList.map Char.toUpper)

def eqIgnoreAsciiCase (s t : String) : Bool := toAsciiLowercase s = toAsciiLowercase t

def digitsValue (cs : List Char) : Nat := cs.foldl (fun n c => 10 * n + (c.toNat - 48)) 0

/-- `str::parse::<u64>`: an optional `+`, then decimal digits, at least one, of
a value below `2 ^ 64`. -/
def parseU64 (s : String) : Option Nat :=
  let digits := if s.toList.head? = some '+' then s.toList.tail else s.toList
  if digits ≠ [] ∧ digits.all Char.isDigit ∧ digitsValue digits < 2 ^ 64 then
    some (digitsValue digits)
  else none

/-- Whether `b` may follow the bytes `first` of an unfinished UTF-8 sequence. -/
def continues : Bytes → UInt8 → Bool
  | [0xE0], b => 0xA0 ≤ b ∧ b ≤ 0xBF
  | [0xED], b => 0x80 ≤ b ∧ b ≤ 0x9F
  | [0xF0], b => 0x90 ≤ b ∧ b ≤ 0xBF
  | [0xF4], b => 0x80 ≤ b ∧ b ≤ 0x8F
  | _, b => 0x80 ≤ b ∧ b ≤ 0xBF

/-- The length of the UTF-8 sequence that `b` begins; `0` where it begins none. -/
def sequenceLength (b : UInt8) : Nat :=
  if b < 0x80 then 1
  else if 0xC2 ≤ b ∧ b ≤ 0xDF then 2
  else if 0xE0 ≤ b ∧ b ≤ 0xEF then 3
  else if 0xF0 ≤ b ∧ b ≤ 0xF4 then 4
  else 0

/-- `String::from_utf8_lossy`, `open_` being the bytes of the unfinished
sequence: a maximal ill-formed part becomes one replacement character. -/
def lossyFrom : Bytes → Bytes → List Char
  | open_, [] => if open_.isEmpty then [] else ['\uFFFD']
  | open_, b :: rest =>
      match open_ with
      | [] =>
          if sequenceLength b = 0 then '\uFFFD' :: lossyFrom [] rest
          else if sequenceLength b = 1 then Char.ofNat b.toNat :: lossyFrom [] rest
          else lossyFrom [b] rest
      | first :: more =>
          if continues (first :: more) b then
            if more.length + 2 = sequenceLength first then
              ((fromUtf8 (first :: more ++ [b])).map String.toList).getD [] ++ lossyFrom [] rest
            else lossyFrom (first :: more ++ [b]) rest
          else if sequenceLength b = 0 then '\uFFFD' :: '\uFFFD' :: lossyFrom [] rest
          else if sequenceLength b = 1 then
            '\uFFFD' :: Char.ofNat b.toNat :: lossyFrom [] rest
          else '\uFFFD' :: lossyFrom [b] rest

def fromUtf8Lossy (b : Bytes) : String := .ofList (lossyFrom [] b)

@[simp] theorem utf8_append (s t : String) : utf8 (s ++ t) = utf8 s ++ utf8 t := by
  simp [utf8]

@[simp] theorem toString_string (s : String) : toString s = s := rfl

theorem utf8_toByteArray (s : String) : (utf8 s).toByteArray = s.toByteArray :=
  s.utf8Encode_toList

theorem fromUtf8_eq_some {b : Bytes} {s : String} : fromUtf8 b = some s ↔ utf8 s = b := by
  constructor
  · intro h
    rw [fromUtf8, String.fromUTF8?] at h
    split at h
    · simp only [Option.some.injEq] at h
      have hs : s.toByteArray = b.toByteArray := by rw [← h]; rfl
      rw [← utf8_toByteArray] at hs
      exact List.toByteArray_inj.mp hs
    · cases h
  · rintro rfl
    rw [fromUtf8, utf8_toByteArray, String.fromUTF8?, dif_pos s.isValidUTF8]
    rfl

@[simp] theorem fromUtf8_utf8 (s : String) : fromUtf8 (utf8 s) = some s :=
  fromUtf8_eq_some.mpr rfl

/-- An ASCII byte occurs in the encoding of its own character only. -/
theorem mem_utf8EncodeChar_ascii {b : UInt8} {c : Char} (hb : b < 128) :
    b ∈ String.utf8EncodeChar c ↔ c.toNat = b.toNat := by
  have hlt : b.toNat < 128 := by simpa [UInt8.lt_iff_toNat_lt] using hb
  simp only [String.utf8EncodeChar, Char.toNat]
  split
  · simp only [List.mem_singleton, ← UInt8.toNat_inj, UInt8.toNat_ofNat']
    omega
  split
  · simp only [List.mem_cons, List.not_mem_nil, or_false, ← UInt8.toNat_inj, UInt8.toNat_ofNat']
    omega
  split
  · simp only [List.mem_cons, List.not_mem_nil, or_false, ← UInt8.toNat_inj, UInt8.toNat_ofNat']
    omega
  · simp only [List.mem_cons, List.not_mem_nil, or_false, ← UInt8.toNat_inj, UInt8.toNat_ofNat']
    omega

theorem utf8EncodeChar_ascii {c : Char} (h : c.toNat < 128) :
    String.utf8EncodeChar c = [UInt8.ofNat c.toNat] := by
  have hle : c.val.toNat ≤ 127 := Nat.le_of_lt_succ h
  simp only [String.utf8EncodeChar, Char.toNat]
  rw [if_pos hle]

theorem lf_mem_utf8 {s : String} : lf ∈ utf8 s ↔ '\n' ∈ s.toList := by
  simp only [utf8, List.mem_flatMap, mem_utf8EncodeChar_ascii (show lf < 128 by decide)]
  constructor
  · rintro ⟨c, hc, h⟩
    rwa [show c = '\n' from Char.toNat_inj.mp h] at hc
  · intro h
    exact ⟨'\n', h, rfl⟩

/-- No line contains the LF that ended it. -/
theorem not_mem_lines {s line : String} (h : line ∈ lines s) : '\n' ∉ line.toList := by
  simp only [lines, List.mem_map] at h
  obtain ⟨piece, hpiece, rfl⟩ := h
  rw [String.toList_ofList]
  rcases mem_pieces hpiece with hfree | ⟨q, rfl⟩
  · rw [chopLineEnd, if_neg fun h => hfree (List.mem_of_getLast? h)]
    exact hfree
  · rw [chopLineEnd, if_pos (by simp [Piece.full])]
    simp only [Piece.full, List.dropLast_concat]
    split
    · exact fun h => q.free (List.mem_of_mem_dropLast h)
    · exact q.free

end Text

end NzbNntp
