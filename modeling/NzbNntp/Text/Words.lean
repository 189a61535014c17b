import NzbNntp.Library.Trimming
import NzbNntp.Text.Lines

/-!
Text as words with gaps between them, and numbers as words. What is trimmed from a
line before it is split into its words would not have been part of one.
-/

namespace NzbNntp

open Trimming

namespace Text

/-! ### Words -/

@[simp] theorem isWhitespace_space : isWhitespace ' ' = true := by decide

@[simp] theorem isWhitespace_cr : isWhitespace '\r' = true := by decide

/-- What separates the words of a line: a run of spaces and tabs. -/
structure Gap where
  text : List Char
  nonempty : text ≠ []
  blank : ∀ c ∈ text, c = ' ' ∨ c = '\t'

structure Word where
  text : String
  nonempty : text.toList ≠ []
  solid : ∀ c ∈ text.toList, isWhitespace c = false

theorem Gap.isWhitespace (gap : Gap) : ∀ c ∈ gap.text, isWhitespace c = true := by
  intro c hc
  rcases gap.blank c hc with rfl | rfl
  · decide
  · decide

theorem Gap.lf_not_mem (gap : Gap) : '\n' ∉ gap.text := by
  intro hmem
  rcases gap.blank _ hmem with h | h
  · exact absurd h (by decide)
  · exact absurd h (by decide)

theorem Word.lf_not_mem (w : Word) : '\n' ∉ w.text.toList := by
  intro hmem
  exact absurd (w.solid _ hmem) (by decide)

theorem wordsFrom_blank {blank : List Char} (h : ∀ c ∈ blank, isWhitespace c = true)
    (cs : List Char) : wordsFrom [] (blank ++ cs) = wordsFrom [] cs := by
  induction blank with
  | nil => rfl
  | cons c blank ih =>
      rw [List.cons_append, wordsFrom, if_pos (h c (by simp))]
      exact ih fun d hd => h d (by simp [hd])

/-- Whitespace at the end ends a word, or nothing. -/
theorem wordsFrom_append_blank {blank : List Char} (h : ∀ c ∈ blank, isWhitespace c = true)
    (word cs : List Char) : wordsFrom word (cs ++ blank) = wordsFrom word cs := by
  induction cs generalizing word with
  | nil =>
      cases blank with
      | nil => rfl
      | cons c blank =>
          have hrest := wordsFrom_blank (fun d hd => h d (List.mem_cons_of_mem c hd)) []
          rw [List.append_nil] at hrest
          rw [List.nil_append]
          conv_lhs => rw [wordsFrom, if_pos (h c (by simp)), hrest]
          rfl
  | cons c cs ih =>
      rw [List.cons_append, wordsFrom, wordsFrom]
      simp only [ih]

theorem wordsFrom_solid {solid : List Char} (h : ∀ c ∈ solid, isWhitespace c = false)
    (word cs : List Char) :
    wordsFrom word (solid ++ cs) = wordsFrom (solid.reverse ++ word) cs := by
  induction solid generalizing word with
  | nil => rfl
  | cons c solid ih =>
      rw [List.cons_append, wordsFrom, if_neg (by simp [h c (by simp)]),
        ih fun d hd => h d (by simp [hd])]
      simp

theorem wordsFrom_word (w : Word) : wordsFrom [] w.text.toList = [w.text] := by
  have h := wordsFrom_solid w.solid [] []
  rw [List.append_nil, List.append_nil] at h
  rw [h, wordsFrom, if_neg (by simpa using w.nonempty), List.reverse_reverse,
    String.ofList_toList]

theorem wordsFrom_word_gap (w : Word) (gap : Gap) (cs : List Char) :
    wordsFrom [] (w.text.toList ++ (gap.text ++ cs)) = w.text :: wordsFrom [] cs := by
  obtain ⟨c, more, hgap⟩ := List.exists_cons_of_ne_nil gap.nonempty
  have hblank := gap.isWhitespace
  rw [hgap] at hblank ⊢
  rw [wordsFrom_solid w.solid, List.append_nil, List.cons_append, wordsFrom,
    if_pos (hblank c (by simp)), if_neg (by simpa using w.nonempty), List.reverse_reverse,
    String.ofList_toList, wordsFrom_blank fun d hd => hblank d (by simp [hd])]

theorem trim_toList (s : String) :
    (trim s).toList = (s.toList.dropWhile isWhitespace).rdropWhile isWhitespace := by
  rw [trim, String.toList_ofList]
  rfl

/-- The words of a line are those of the line trimmed. -/
@[simp] theorem splitWhitespace_trim (s : String) :
    splitWhitespace (trim s) = splitWhitespace s := by
  have hfront : s.toList = s.toList.takeWhile isWhitespace ++ s.toList.dropWhile isWhitespace :=
    List.takeWhile_append_dropWhile.symm
  have hback := List.rdropWhile_append_rtakeWhile (p := isWhitespace)
    (l := s.toList.dropWhile isWhitespace)
  have hblank : ∀ c ∈ (s.toList.dropWhile isWhitespace).rtakeWhile isWhitespace,
      isWhitespace c = true := fun c hc => List.mem_rtakeWhile_imp hc
  rw [splitWhitespace, splitWhitespace, trim_toList, hfront,
    wordsFrom_blank fun c hc => List.mem_takeWhile_imp hc, ← hfront, ← hback,
    wordsFrom_append_blank hblank, hback]

theorem splitWhitespace_chopCr (line : List Char) :
    splitWhitespace (.ofList (chopCr line)) = splitWhitespace (.ofList line) := by
  rw [splitWhitespace, splitWhitespace, String.toList_ofList, String.toList_ofList]
  rcases chopCr_cases line with h | h
  · rw [h]
  · conv_rhs => rw [h]
    rw [wordsFrom_append_blank (by simp)]

/-! ### Numbers -/

theorem isDigit_bounds {c : Char} (h : c.isDigit = true) : 48 ≤ c.toNat ∧ c.toNat ≤ 57 := by
  simp only [Char.isDigit, Bool.and_eq_true, decide_eq_true_eq] at h
  exact h

theorem isWhitespace_of_isDigit {c : Char} (h : c.isDigit = true) : isWhitespace c = false := by
  have hdigit := isDigit_bounds h
  simp only [isWhitespace, Bool.or_eq_false_iff, decide_eq_false_iff_not]
  omega

theorem isDigit_of_mem_toString {n : Nat} {c : Char} (h : c ∈ (toString n).toList) :
    c.isDigit = true := by
  rw [Nat.toString_eq_repr, Nat.toList_repr] at h
  exact Nat.isDigit_of_mem_toDigits (by decide) (by decide) h

theorem toString_ne_nil (n : Nat) : (toString n).toList ≠ [] := by
  rw [Nat.toString_eq_repr, Nat.toList_repr]
  simp

def Word.number (n : Nat) : Word where
  text := toString n
  nonempty := toString_ne_nil n
  solid _ hc := isWhitespace_of_isDigit (isDigit_of_mem_toString hc)

theorem digitsValue_toString (n : Nat) : digitsValue (toString n).toList = n := by
  rw [Nat.toString_eq_repr, Nat.toList_repr]
  exact Nat.ofDigitChars_ten_toDigits

/-- Printed numbers are read again. -/
theorem parseU64_toString {n : Nat} (h : n < 2 ^ 64) : parseU64 (toString n) = some n := by
  have hsign : (toString n).toList.head? ≠ some '+' := by
    intro hplus
    have hdigit := isDigit_of_mem_toString (List.mem_of_head? hplus)
    exact absurd hdigit (by decide)
  have hall : (toString n).toList.all Char.isDigit = true :=
    List.all_eq_true.mpr fun c hc => isDigit_of_mem_toString hc
  rw [parseU64]
  simp only [if_neg hsign, digitsValue_toString]
  rw [if_pos ⟨toString_ne_nil n, hall, h⟩]

end Text

end NzbNntp
