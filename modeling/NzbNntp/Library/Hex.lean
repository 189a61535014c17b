import Mathlib.Data.List.Basic
import Mathlib.Order.Basic

/-!
Hexadecimal text. A byte is written as two digits in lower case, the high one first; no
two byte strings are written alike.
-/

namespace Hex

def IsDigit (c : Char) : Prop := c ∈ "0123456789abcdefABCDEF".toList

instance : DecidablePred IsDigit := fun c =>
  inferInstanceAs (Decidable (c ∈ "0123456789abcdefABCDEF".toList))

def digits (b : UInt8) : List Char := [Nat.digitChar (b.toNat / 16), Nat.digitChar (b.toNat % 16)]

def encode (bytes : List UInt8) : List Char := bytes.flatMap digits

@[simp] theorem encode_nil : encode [] = [] := rfl

theorem encode_cons (b : UInt8) (bytes : List UInt8) :
    encode (b :: bytes) = digits b ++ encode bytes := rfl

@[simp] theorem length_encode (bytes : List UInt8) : (encode bytes).length = 2 * bytes.length := by
  induction bytes with
  | nil => rfl
  | cons b bytes ih =>
      rw [encode_cons, List.length_append, ih, List.length_cons, digits]
      simp only [List.length_cons, List.length_nil]
      omega

theorem digitChar_inj {n m : Nat} (hn : n < 16) (hm : m < 16)
    (h : n.digitChar = m.digitChar) : n = m := by
  have table : ∀ n < 16, ∀ m < 16, n.digitChar = m.digitChar → n = m := by decide
  exact table n hn m hm h

theorem digits_inj {a b : UInt8} (h : digits a = digits b) : a = b := by
  obtain ⟨hhigh, hrest⟩ := List.cons.inj h
  obtain ⟨hlow, -⟩ := List.cons.inj hrest
  have ha := a.toNat_lt
  have hb := b.toNat_lt
  have hdiv : a.toNat / 16 = b.toNat / 16 := digitChar_inj (by omega) (by omega) hhigh
  have hmod : a.toNat % 16 = b.toNat % 16 := digitChar_inj (by omega) (by omega) hlow
  apply UInt8.toNat_inj.mp
  omega

theorem encode_injective : Function.Injective encode := by
  intro left
  induction left with
  | nil =>
      intro right h
      cases right with
      | nil => rfl
      | cons b right => cases h
  | cons a left ih =>
      intro right h
      cases right with
      | nil => cases h
      | cons b right =>
          rw [encode_cons, encode_cons] at h
          obtain ⟨hdigits, hrest⟩ := List.append_inj h rfl
          rw [digits_inj hdigits, ih hrest]

/-- Every ASCII character, by cases on the character itself. -/
theorem ascii_cases {P : Char → Prop} (h : ∀ n < 128, P (Char.ofNat n)) {c : Char}
    (hc : c.toNat < 128) : P c := by
  have hc := h c.toNat hc
  rwa [Char.ofNat_toNat] at hc

theorem IsDigit.ascii {c : Char} (h : IsDigit c) : c.toNat < 128 := by
  have table : ∀ c ∈ "0123456789abcdefABCDEF".toList, c.toNat < 128 := by simp
  exact table c h

theorem toLower_of_not_ascii {c : Char} (hc : ¬ c.toNat < 128) : c.toLower = c := by
  unfold Char.toLower
  apply dif_neg
  rintro ⟨-, hle⟩
  exact hc (Nat.lt_of_le_of_lt (UInt32.le_iff_toNat_le.mp hle) (by decide))

/-- Case does not matter for being a digit. -/
theorem isDigit_toLower {c : Char} : IsDigit c.toLower ↔ IsDigit c := by
  by_cases hc : c.toNat < 128
  · exact ascii_cases (P := fun c => IsDigit c.toLower ↔ IsDigit c) (by decide +kernel) hc
  · rw [toLower_of_not_ascii hc]

end Hex
