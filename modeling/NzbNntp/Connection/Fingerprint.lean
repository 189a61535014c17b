import NzbNntp.Connection.Parsers
import NzbNntp.Library.Chunks
import NzbNntp.Library.Hex
import Mathlib.Data.List.Induction

/-!
Certificate pins. `parse_fingerprint` takes the text of a pin apart into pairs and has
the standard library read each pair as a number. That reads a digit pair, and a sign
before a digit as well: `+a` is the number ten. So a text that is no hexadecimal pin may
stand for one.
-/

namespace NzbNntp

open Chunks Hex

/-! ### One pair -/

def asciiByte (c : Char) : UInt8 := UInt8.ofNat c.toNat

theorem asciiByte_eq_plus_iff {c : Char} (hc : c.toNat < 128) : asciiByte c = 43 ↔ c = '+' := by
  rw [asciiByte, ← UInt8.toNat_inj, UInt8.toNat_ofNat', Nat.mod_eq_of_lt (by omega)]
  exact Char.toNat_inj (d := '+')

/-- The digit that a character of a pin is read as: a sign is no digit, and reads as the
zero that it leaves in front. -/
def pinDigit (c : Char) : Char := if c = '+' then '0' else c.toLower

theorem hexDigit_asciiByte {c : Char} (hc : c.toNat < 128) :
    ((hexDigit (asciiByte c)).isSome ↔ IsDigit c) ∧
      ∀ v ∈ hexDigit (asciiByte c), v < 16 ∧ v.digitChar = c.toLower :=
  ascii_cases (P := fun c => ((hexDigit (asciiByte c)).isSome ↔ IsDigit c) ∧
    ∀ v ∈ hexDigit (asciiByte c), v < 16 ∧ v.digitChar = c.toLower) (by decide +kernel) hc

theorem exists_hexDigit {c : Char} (h : IsDigit c) :
    ∃ v, hexDigit (asciiByte c) = some v ∧ v < 16 ∧ v.digitChar = pinDigit c := by
  obtain ⟨v, hv⟩ := Option.isSome_iff_exists.mp ((hexDigit_asciiByte h.ascii).1.mpr h)
  have hplus : c ≠ '+' := by
    rintro rfl
    exact absurd h (by decide)
  rw [pinDigit, if_neg hplus]
  exact ⟨v, hv, (hexDigit_asciiByte h.ascii).2 v hv⟩

theorem isDigit_of_hexDigit {c : Char} {v : Nat} (hc : c.toNat < 128)
    (h : hexDigit (asciiByte c) = some v) : IsDigit c :=
  (hexDigit_asciiByte hc).1.mp (by rw [h]; rfl)

theorem digits_ofNat {high low : Nat} (hhigh : high < 16) (hlow : low < 16) :
    digits (UInt8.ofNat (16 * high + low)) = [high.digitChar, low.digitChar] := by
  have hvalue : (UInt8.ofNat (16 * high + low)).toNat = 16 * high + low := by
    rw [UInt8.toNat_ofNat', Nat.mod_eq_of_lt (by omega)]
  have hdiv : (16 * high + low) / 16 = high := by omega
  have hmod : (16 * high + low) % 16 = low := by omega
  rw [digits, hvalue, hdiv, hmod]

/-- A pair is read if it is a digit, or a sign, before a digit. -/
theorem u8FromHex_pair {a b : Char} (ha : IsDigit a ∨ a = '+') (hb : IsDigit b) :
    ∃ v, u8FromHex [asciiByte a, asciiByte b] = some v ∧ digits v = [pinDigit a, pinDigit b] := by
  obtain ⟨low, hlow, hlow16, hlowDigit⟩ := exists_hexDigit hb
  rcases ha with ha | rfl
  · obtain ⟨high, hhigh, hhigh16, hhighDigit⟩ := exists_hexDigit ha
    have hplus : asciiByte a ≠ 43 := by
      intro h
      rw [(asciiByte_eq_plus_iff ha.ascii).mp h] at ha
      exact absurd ha (by decide)
    refine ⟨UInt8.ofNat (16 * high + low), ?_, ?_⟩
    · rw [u8FromHex, if_neg hplus, hhigh, hlow]
      rfl
    · rw [digits_ofNat hhigh16 hlow16, hhighDigit, hlowDigit]
  · refine ⟨UInt8.ofNat low, ?_, ?_⟩
    · rw [u8FromHex, if_pos (show asciiByte '+' = 43 from rfl), hlow]
      rfl
    · have hdigits := digits_ofNat (show 0 < 16 by omega) hlow16
      rw [Nat.mul_zero, Nat.zero_add, hlowDigit] at hdigits
      exact hdigits

/-- What is read is a digit, after another one or a sign. -/
theorem u8FromHex_digits {a b v : UInt8} (h : u8FromHex [a, b] = some v) :
    ((∃ high, hexDigit a = some high) ∨ a = 43) ∧ ∃ low, hexDigit b = some low := by
  rw [u8FromHex] at h
  split at h
  · rename_i hplus
    obtain ⟨low, hlow, -⟩ := Option.map_eq_some_iff.mp h
    exact ⟨.inr hplus, low, hlow⟩
  · obtain ⟨high, hhigh, h⟩ := Option.bind_eq_some_iff.mp h
    obtain ⟨low, hlow, -⟩ := Option.bind_eq_some_iff.mp h
    exact ⟨.inl ⟨high, hhigh⟩, low, hlow⟩

theorem of_u8FromHex {a b : Char} {v : UInt8} (ha : a.toNat < 128) (hb : b.toNat < 128)
    (h : u8FromHex [asciiByte a, asciiByte b] = some v) : (IsDigit a ∨ a = '+') ∧ IsDigit b := by
  obtain ⟨hfirst, low, hlow⟩ := u8FromHex_digits h
  refine ⟨?_, isDigit_of_hexDigit hb hlow⟩
  rcases hfirst with ⟨high, hhigh⟩ | hplus
  · exact .inl (isDigit_of_hexDigit ha hhigh)
  · exact .inr ((asciiByte_eq_plus_iff ha).mp hplus)

theorem ascii_of_hexDigit {b : UInt8} {v : Nat} (h : hexDigit b = some v) : b < 128 := by
  apply UInt8.lt_iff_toNat_lt.mpr
  unfold hexDigit at h
  simp only [UInt8.le_iff_toNat_le] at h
  split at h
  · rename_i hrange
    exact Nat.lt_of_le_of_lt hrange.2 (by decide)
  split at h
  · rename_i hrange
    exact Nat.lt_of_le_of_lt hrange.2 (by decide)
  split at h
  · rename_i hrange
    exact Nat.lt_of_le_of_lt hrange.2 (by decide)
  · cases h

theorem ascii_of_u8FromHex {a b v : UInt8} (h : u8FromHex [a, b] = some v) : a < 128 ∧ b < 128 := by
  obtain ⟨hfirst, low, hlow⟩ := u8FromHex_digits h
  refine ⟨?_, ascii_of_hexDigit hlow⟩
  rcases hfirst with ⟨high, hhigh⟩ | rfl
  · exact ascii_of_hexDigit hhigh
  · decide

/-! ### All pairs -/

theorem utf8_eq_asciiBytes {cs : List Char} (h : ∀ c ∈ cs, c.toNat < 128) :
    Text.utf8 (.ofList cs) = cs.map asciiByte := by
  rw [Text.utf8, String.toList_ofList, List.map_eq_flatMap]
  exact List.flatMap_congr fun c hc => Text.utf8EncodeChar_ascii (h c hc)

theorem ascii_of_utf8 {s : String} (h : ∀ b ∈ Text.utf8 s, b < 128) :
    ∀ c ∈ s.toList, c.toNat < 128 := by
  intro c hc
  obtain ⟨b, later, hb⟩ := List.exists_cons_of_ne_nil (String.utf8EncodeChar_ne_nil (c := c))
  have hmem : b ∈ String.utf8EncodeChar c := by rw [hb]; exact List.mem_cons_self
  have hlt : b < 128 := h b (List.mem_flatMap.mpr ⟨c, hc, hmem⟩)
  rw [(Text.mem_utf8EncodeChar_ascii hlt).mp hmem]
  exact UInt8.lt_iff_toNat_lt.mp hlt

theorem asciiByte_ofNat {b : UInt8} (hb : b < 128) :
    (Char.ofNat b.toNat).toNat < 128 ∧ asciiByte (Char.ofNat b.toNat) = b := by
  have hlt : b.toNat < 128 := UInt8.lt_iff_toNat_lt.mp hb
  have hchar : (Char.ofNat b.toNat).toNat = b.toNat := by
    rw [Char.ofNat, dif_pos (.inl (by omega))]
    rfl
  exact ⟨by omega, by rw [asciiByte, hchar, UInt8.ofNat_toNat]⟩

/-- A pair that is no text is no number either. -/
theorem fromUtf8_pair (a b : UInt8) :
    ((Text.fromUtf8 [a, b]).bind fun hex => u8FromHex (Text.utf8 hex)) = u8FromHex [a, b] := by
  cases htext : Text.fromUtf8 [a, b] with
  | some hex =>
      show u8FromHex (Text.utf8 hex) = _
      rw [Text.fromUtf8_eq_some.mp htext]
  | none =>
      cases hvalue : u8FromHex [a, b] with
      | none => rfl
      | some v =>
          obtain ⟨ha, hb⟩ := ascii_of_u8FromHex hvalue
          have hutf8 : Text.utf8 (.ofList [Char.ofNat a.toNat, Char.ofNat b.toNat]) = [a, b] := by
            rw [utf8_eq_asciiBytes (by simp [asciiByte_ofNat ha, asciiByte_ofNat hb])]
            simp [asciiByte_ofNat ha, asciiByte_ofNat hb]
          rw [← hutf8, Text.fromUtf8_utf8] at htext
          cases htext

theorem hexPairs_cons (a b : UInt8) (rest : Bytes) :
    hexPairs (a :: b :: rest) =
      (u8FromHex [a, b]).bind fun v => (hexPairs rest).map (v :: ·) := by
  rw [hexPairs, ← fromUtf8_pair, Option.bind_assoc]
  cases hexPairs rest with
  | none => rfl
  | some more => rfl

theorem hexPairs_cons_eq_some {a b : UInt8} {rest out : Bytes} :
    hexPairs (a :: b :: rest) = some out ↔
      ∃ v more, u8FromHex [a, b] = some v ∧ hexPairs rest = some more ∧ out = v :: more := by
  rw [hexPairs_cons]
  simp only [Option.bind_eq_some_iff, Option.map_eq_some_iff]
  constructor
  · rintro ⟨v, hv, more, hmore, rfl⟩
    exact ⟨v, more, hv, hmore, rfl⟩
  · rintro ⟨v, more, hv, hmore, rfl⟩
    exact ⟨v, hv, more, hmore, rfl⟩

theorem ascii_of_hexPairs {bytes out : Bytes} (h : hexPairs bytes = some out) :
    ∀ b ∈ bytes, b < 128 := by
  induction bytes using List.twoStepInduction generalizing out with
  | nil => simp
  | singleton b => cases h
  | cons_cons a b rest ih =>
      obtain ⟨v, more, hv, hmore, -⟩ := hexPairs_cons_eq_some.mp h
      obtain ⟨ha, hb⟩ := ascii_of_u8FromHex hv
      simp only [List.forall_mem_cons]
      exact ⟨ha, hb, ih hmore⟩

/-- Digits, but that a sign may stand where a pair begins. -/
def SignedDigits (cs : List Char) : Prop :=
  ∀ i c, cs[i]? = some c → IsDigit c ∨ c = '+' ∧ i % 2 = 0

theorem signedDigits_cons_cons {a b : Char} {rest : List Char} :
    SignedDigits (a :: b :: rest) ↔ (IsDigit a ∨ a = '+') ∧ IsDigit b ∧ SignedDigits rest := by
  constructor
  · intro h
    refine ⟨(h 0 a rfl).imp_right And.left, ?_, fun i c hc => ?_⟩
    · rcases h 1 b rfl with hb | ⟨-, hodd⟩
      · exact hb
      · omega
    · rcases h (i + 2) c hc with hdigit | ⟨hplus, heven⟩
      · exact .inl hdigit
      · exact .inr ⟨hplus, by omega⟩
  · rintro ⟨ha, hb, hrest⟩ i c hc
    rcases i with _ | _ | i
    · obtain rfl := Option.some.inj hc
      exact ha.imp_right fun h => ⟨h, rfl⟩
    · obtain rfl := Option.some.inj hc
      exact .inl hb
    · rcases hrest i c hc with hdigit | ⟨hplus, heven⟩
      · exact .inl hdigit
      · exact .inr ⟨hplus, by omega⟩

theorem hexPairs_of_signedDigits {cs : List Char} (heven : cs.length % 2 = 0)
    (h : SignedDigits cs) :
    ∃ out, hexPairs (cs.map asciiByte) = some out ∧ encode out = cs.map pinDigit := by
  induction cs using List.twoStepInduction with
  | nil => exact ⟨[], rfl, rfl⟩
  | singleton a =>
      rw [List.length_singleton] at heven
      omega
  | cons_cons a b rest ih =>
      obtain ⟨ha, hb, hrest⟩ := signedDigits_cons_cons.mp h
      have hlen : rest.length % 2 = 0 := by
        simp only [List.length_cons] at heven
        omega
      obtain ⟨more, hmore, hencode⟩ := ih hlen hrest
      obtain ⟨v, hv, hdigits⟩ := u8FromHex_pair ha hb
      refine ⟨v :: more, hexPairs_cons_eq_some.mpr ⟨v, more, hv, hmore, rfl⟩, ?_⟩
      rw [encode_cons, hdigits, hencode]
      rfl

theorem signedDigits_of_hexPairs {cs : List Char} {out : Bytes} (hascii : ∀ c ∈ cs, c.toNat < 128)
    (h : hexPairs (cs.map asciiByte) = some out) : cs.length % 2 = 0 ∧ SignedDigits cs := by
  induction cs using List.twoStepInduction generalizing out with
  | nil => exact ⟨rfl, fun i c hc => by cases hc⟩
  | singleton a => cases h
  | cons_cons a b rest ih =>
      obtain ⟨v, more, hv, hmore, -⟩ := hexPairs_cons_eq_some.mp h
      simp only [List.forall_mem_cons] at hascii
      obtain ⟨ha, hb, hrest⟩ := hascii
      obtain ⟨heven, hdigits⟩ := ih hrest hmore
      obtain ⟨hfirst, hsecond⟩ := of_u8FromHex ha hb hv
      refine ⟨?_, signedDigits_cons_cons.mpr ⟨hfirst, hsecond, hdigits⟩⟩
      simp only [List.length_cons]
      omega

theorem SignedDigits.ascii {cs : List Char} (h : SignedDigits cs) : ∀ c ∈ cs, c.toNat < 128 := by
  intro c hc
  obtain ⟨i, hi⟩ := List.mem_iff_getElem?.mp hc
  rcases h i c hi with hdigit | ⟨rfl, -⟩
  · exact hdigit.ascii
  · decide

/-! ### The text of a pin -/

def cleaned (s : String) : String :=
  .ofList (s.toList.filter fun c => !Text.isWhitespace c && c ≠ ':')

theorem parseFingerprint_eq (s : String) :
    parseFingerprint s =
      if (Text.utf8 (cleaned s)).length ≠ 64 then none else hexPairs (Text.utf8 (cleaned s)) := rfl

theorem parseFingerprint_eq_some {s : String} {out : Bytes} :
    parseFingerprint s = some out ↔
      (Text.utf8 (cleaned s)).length = 64 ∧ hexPairs (Text.utf8 (cleaned s)) = some out := by
  rw [parseFingerprint_eq]
  split
  · rename_i hlen
    exact iff_of_false (by simp) fun h => hlen h.1
  · rename_i hlen
    rw [and_iff_right (not_not.mp hlen)]

theorem utf8_cleaned {s : String} (h : ∀ c ∈ (cleaned s).toList, c.toNat < 128) :
    Text.utf8 (cleaned s) = (cleaned s).toList.map asciiByte := by
  have hutf8 := utf8_eq_asciiBytes h
  rwa [String.ofList_toList] at hutf8

/-- A pin is read from 64 digits, some of which may be signs, and from nothing else. -/
theorem exists_pin_iff {s : String} :
    (∃ out, parseFingerprint s = some out) ↔
      (cleaned s).toList.length = 64 ∧ SignedDigits (cleaned s).toList := by
  simp only [parseFingerprint_eq_some]
  constructor
  · rintro ⟨out, hlen, hpairs⟩
    have hascii := ascii_of_utf8 (ascii_of_hexPairs hpairs)
    rw [utf8_cleaned hascii] at hlen hpairs
    rw [List.length_map] at hlen
    exact ⟨hlen, (signedDigits_of_hexPairs hascii hpairs).2⟩
  · rintro ⟨hlen, hdigits⟩
    rw [utf8_cleaned hdigits.ascii, List.length_map]
    obtain ⟨out, hout, -⟩ := hexPairs_of_signedDigits (by omega) hdigits
    exact ⟨out, hlen, hout⟩

/-- The pin is what the digits say, a sign being read as zero. -/
theorem encode_pin {s : String} {out : Bytes} (h : parseFingerprint s = some out) :
    encode out = (cleaned s).toList.map pinDigit := by
  obtain ⟨hlen, hdigits⟩ := exists_pin_iff.mp ⟨out, h⟩
  obtain ⟨out', hout', hencode⟩ := hexPairs_of_signedDigits (by omega) hdigits
  obtain ⟨-, hpairs⟩ := parseFingerprint_eq_some.mp h
  rw [utf8_cleaned hdigits.ascii, hout'] at hpairs
  rw [← Option.some.inj hpairs, hencode]

/-- The text is read as a strict reader would: it is a pin exactly if it has 64
hexadecimal digits and nothing else, and then the pin is what they say. -/
structure ReadStrictly (s : String) : Prop where
  accepted : (∃ out, parseFingerprint s = some out) ↔
    (cleaned s).toList.length = 64 ∧ ∀ c ∈ (cleaned s).toList, IsDigit c
  bytes : ∀ out, parseFingerprint s = some out →
    encode out = (Text.toAsciiLowercase (cleaned s)).toList

/-- 64 characters, all hexadecimal digits but for one `+` or more, each where a pair of
digits begins. -/
structure SignedPin (s : String) : Prop where
  length : (cleaned s).toList.length = 64
  digits : SignedDigits (cleaned s).toList
  signed : '+' ∈ (cleaned s).toList

theorem signedDigits_iff {cs : List Char} (h : '+' ∉ cs) :
    SignedDigits cs ↔ ∀ c ∈ cs, IsDigit c := by
  constructor
  · intro hdigits c hc
    obtain ⟨i, hi⟩ := List.mem_iff_getElem?.mp hc
    rcases hdigits i c hi with hdigit | ⟨rfl, -⟩
    · exact hdigit
    · exact absurd hc h
  · intro hdigits i c hi
    exact .inl (hdigits c (List.mem_of_getElem? hi))

theorem map_pinDigit {cs : List Char} (h : '+' ∉ cs) : cs.map pinDigit = cs.map Char.toLower := by
  apply List.map_congr_left
  intro c hc
  exact if_neg (ne_of_mem_of_not_mem hc h)

theorem readStrictly_iff {s : String} : ReadStrictly s ↔ ¬ SignedPin s := by
  constructor
  · intro hstrict hsigned
    have hpin := exists_pin_iff.mpr ⟨hsigned.length, hsigned.digits⟩
    have hplus : IsDigit '+' := (hstrict.accepted.mp hpin).2 '+' hsigned.signed
    exact absurd hplus (by decide)
  · intro hplain
    by_cases hplus : '+' ∈ (cleaned s).toList
    · have hnone : ¬ ∃ out, parseFingerprint s = some out := by
        intro hpin
        obtain ⟨hlen, hdigits⟩ := exists_pin_iff.mp hpin
        exact hplain ⟨hlen, hdigits, hplus⟩
      refine ⟨iff_of_false hnone ?_, fun out hout => absurd ⟨out, hout⟩ hnone⟩
      rintro ⟨-, hdigits⟩
      exact absurd (hdigits '+' hplus) (by decide)
    · refine ⟨?_, fun out hout => ?_⟩
      · rw [exists_pin_iff, signedDigits_iff hplus]
      · rw [encode_pin hout, map_pinDigit hplus, Text.toAsciiLowercase, String.toList_ofList]

/-- Texts that are read strictly give one pin exactly if they differ in case, whitespace
and colons only. -/
theorem ReadStrictly.same_pin {s t : String} {out : Bytes} (hs : ReadStrictly s)
    (ht : ReadStrictly t) (hout : parseFingerprint s = some out) :
    parseFingerprint t = some out ↔
      Text.toAsciiLowercase (cleaned t) = Text.toAsciiLowercase (cleaned s) := by
  rw [← String.toList_inj, ← hs.bytes out hout]
  constructor
  · intro h
    exact (ht.bytes out h).symm
  · intro h
    -- `t` has the digits of `s` up to case, so it is a pin too
    have hlower : (cleaned t).toList.map Char.toLower = (cleaned s).toList.map Char.toLower := by
      have hs := hs.bytes out hout
      rw [← h, Text.toAsciiLowercase, Text.toAsciiLowercase, String.toList_ofList,
        String.toList_ofList] at hs
      exact hs
    obtain ⟨hlen, hdigits⟩ := hs.accepted.mp ⟨out, hout⟩
    have hlen' : (cleaned t).toList.length = 64 := by
      rw [← List.length_map Char.toLower, hlower, List.length_map, hlen]
    have hdigits' : ∀ c ∈ (cleaned t).toList, IsDigit c := by
      intro c hc
      have hmem : c.toLower ∈ (cleaned s).toList.map Char.toLower := by
        rw [← hlower]
        exact List.mem_map_of_mem hc
      obtain ⟨d, hd, hcd⟩ := List.mem_map.mp hmem
      rw [← isDigit_toLower, ← hcd, isDigit_toLower]
      exact hdigits d hd
    obtain ⟨out', hout'⟩ := ht.accepted.mpr ⟨hlen', hdigits'⟩
    rw [hout', encode_injective ((ht.bytes out' hout').trans h)]

/-! ### The loop over the pairs -/

/-- The loop of `parse_fingerprint`, from the chunk `i` on; `none` is the panic of an
index beyond the array. -/
def pinLoop (out : Bytes) : Nat → List Bytes → Option (Option Bytes)
  | _, [] => some (some out)
  | i, chunk :: rest =>
      match (Text.fromUtf8 chunk).bind fun hex => u8FromHex (Text.utf8 hex) with
      | none => some none
      | some byte => if i < out.length then pinLoop (out.set i byte) (i + 1) rest else none

/-- `parse_fingerprint` with the array that it fills; `none` is a panic. -/
def parseFingerprintChecked (s : String) : Option (Option Bytes) :=
  if (Text.utf8 (cleaned s)).length ≠ 64 then some none
  else pinLoop (List.replicate 32 0) 0 (chunks 2 (Text.utf8 (cleaned s)))

/-- The array has room for a byte of each pair that is left. -/
theorem pinLoop_eq {bytes : Bytes} {room : Nat} (hroom : bytes.length = 2 * room) (filled : Bytes) :
    pinLoop (filled ++ List.replicate room 0) filled.length (chunks 2 bytes) =
      some ((hexPairs bytes).map (filled ++ ·)) := by
  induction bytes using List.twoStepInduction generalizing room filled with
  | nil =>
      obtain rfl : room = 0 := by rw [List.length_nil] at hroom; omega
      rfl
  | singleton b =>
      rw [List.length_singleton] at hroom
      omega
  | cons_cons a b rest ih =>
      obtain ⟨room, rfl⟩ : ∃ k, room = k + 1 :=
        ⟨room - 1, by simp only [List.length_cons] at hroom; omega⟩
      have hrest : rest.length = 2 * room := by
        simp only [List.length_cons] at hroom
        omega
      have hchunks : chunks 2 (a :: b :: rest) = [a, b] :: chunks 2 rest :=
        chunks_append (by omega) (show [a, b].length = 2 from rfl) rest
      rw [hchunks, hexPairs_cons, pinLoop, fromUtf8_pair]
      cases u8FromHex [a, b] with
      | none => rfl
      | some v =>
          have hset : (filled ++ List.replicate (room + 1) 0).set filled.length v =
              (filled ++ [v]) ++ List.replicate room 0 := by
            rw [List.set_append_right _ _ (Nat.le_refl _), Nat.sub_self, List.append_assoc]
            rfl
          have hlen : filled.length + 1 = (filled ++ [v]).length := by simp
          dsimp only
          rw [if_pos (by simp), hset, hlen, ih hrest, Option.bind_some, Option.map_map]
          simp [Function.comp_def]

theorem parseFingerprintChecked_eq (s : String) :
    parseFingerprintChecked s = some (parseFingerprint s) := by
  rw [parseFingerprint_eq, parseFingerprintChecked]
  split
  · rfl
  · rename_i hlen
    have hroom : (Text.utf8 (cleaned s)).length = 2 * 32 := not_not.mp hlen
    have hloop := pinLoop_eq hroom []
    rw [List.nil_append, List.length_nil] at hloop
    rw [hloop]
    simp

/-- **Pins are read strictly, except for signs.** A text is a pin exactly if it has 64
hexadecimal digits beside whitespace and colons, which are then the pin, and two texts
are one pin exactly if they have the same digits up to case: so it is of every text
except those in which a `+` stands for the first digit of a pair. No text makes the
parser panic. -/
theorem pins_read_strictly (s : String) :
    (ReadStrictly s ↔ ¬ SignedPin s) ∧
    (∀ t out, ¬ SignedPin s → ¬ SignedPin t → parseFingerprint s = some out →
      (parseFingerprint t = some out ↔
        Text.toAsciiLowercase (cleaned t) = Text.toAsciiLowercase (cleaned s))) ∧
    parseFingerprintChecked s = some (parseFingerprint s) := by
  refine ⟨readStrictly_iff, fun t out hs ht hout => ?_, parseFingerprintChecked_eq s⟩
  exact (readStrictly_iff.mpr hs).same_pin (readStrictly_iff.mpr ht) hout

/-- The text of a pin in capitals, beside the one with colons. -/
theorem pins_read_strictly_on_capitals :
    parseFingerprint (String.join (List.replicate 32 ":0a")) = some (List.replicate 32 10) ↔
      Text.toAsciiLowercase (cleaned (String.join (List.replicate 32 ":0a"))) =
        Text.toAsciiLowercase (cleaned (String.join (List.replicate 32 "0A"))) := by
  refine (pins_read_strictly _).2.1 _ _ ?_ ?_ (by decide +kernel)
  · intro h
    exact absurd h.signed (by decide +kernel)
  · intro h
    exact absurd h.signed (by decide +kernel)

/-- A sign before a digit is read as a zero: two texts with different digits, and no
hexadecimal ones alone in the first, are the same pin. -/
theorem pin_of_signs :
    parseFingerprint (String.join (List.replicate 32 "+a")) = some (List.replicate 32 10) ∧
      parseFingerprint (String.join (List.replicate 32 "0a")) = some (List.replicate 32 10) ∧
      ¬ ReadStrictly (String.join (List.replicate 32 "+a")) := by
  have hpin : parseFingerprint (String.join (List.replicate 32 "+a")) =
      some (List.replicate 32 10) := by decide +kernel
  refine ⟨hpin, by decide +kernel, fun hstrict => ?_⟩
  have hplus : IsDigit '+' := (hstrict.accepted.mp ⟨_, hpin⟩).2 '+' (by decide +kernel)
  exact absurd hplus (by decide)

end NzbNntp
