import NzbNntp.Overview
import Mathlib.Data.Nat.Digits.Lemmas

/-!
The lossless overview parser, line by line. Every wire line gets one verdict: it
is accepted as a row, or it is kept as a defective row with the first test it
fails. The verdict on a line depends on the numbers accepted before it, and on
nothing else that came before.
-/

namespace NzbNntp

open Delimited

namespace Overview

abbrev tab : UInt8 := 9

/-- A line taken apart at its TABs: the bytes before the first one, and the fields. -/
structure Spells (line digits : Bytes) (fields : List Bytes) : Prop where
  line : line = digits ++ (fields.map (tab :: ·)).flatten
  digits : tab ∉ digits
  fields : ∀ field ∈ fields, tab ∉ field

structure Denotes (digits : Bytes) (number : Nat) : Prop where
  nonempty : digits ≠ []
  decimal : ∀ b ∈ digits, isAsciiDigit b = true
  value : Nat.ofDigits 10 (digits.reverse.map fun b => b.toNat - 48) = number
  bounded : number < 2 ^ 64

inductive LineVerdict where
  | accepted (row : LosslessOverviewRow)
  | defective (row : DefectiveOverviewRow)

def LineVerdict.row? : LineVerdict → Option LosslessOverviewRow
  | .accepted row => some row
  | .defective _ => none

def LineVerdict.defect? : LineVerdict → Option DefectiveOverviewRow
  | .accepted _ => none
  | .defective row => some row

def acceptedNumbers (verdicts : List LineVerdict) : List Nat :=
  (verdicts.filterMap (·.row?)).map (·.articleNumber)

section Verdicts

variable (format : OverviewFormat) (startArticle endArticle : Nat)

/-- When a line is accepted, and as which row; `earlier` holds the numbers accepted
before it. -/
structure Accepts (earlier : List Nat) (line : Bytes) (row : LosslessOverviewRow) : Prop where
  spelled : ∃ digits, Spells line digits row.fields ∧ Denotes digits row.articleNumber
  inRange : startArticle ≤ row.articleNumber ∧ row.articleNumber ≤ endArticle
  count : row.fields.length = format.fields.length
  fresh : row.articleNumber ∉ earlier

/-- The first test that fails, with the number as far as there is one. -/
inductive FailsFirst (earlier : List Nat) (digits : Bytes) (fields : List Bytes) :
    Option Nat → DefectiveOverviewRowCode → Prop where
  | number (h : ∀ n, ¬ Denotes digits n) : FailsFirst earlier digits fields none .articleNumberInvalid
  | range {n} (h : Denotes digits n) (hrange : ¬ (startArticle ≤ n ∧ n ≤ endArticle)) :
      FailsFirst earlier digits fields (some n) .articleNumberOutOfRange
  | count {n} (h : Denotes digits n) (hrange : startArticle ≤ n ∧ n ≤ endArticle)
      (hcount : fields.length ≠ format.fields.length) :
      FailsFirst earlier digits fields (some n) .fieldCountInvalid
  | duplicate {n} (h : Denotes digits n) (hrange : startArticle ≤ n ∧ n ≤ endArticle)
      (hcount : fields.length = format.fields.length) (hseen : n ∈ earlier) :
      FailsFirst earlier digits fields (some n) .duplicateArticleNumber

structure Rejects (earlier : List Nat) (line : Bytes) (defect : DefectiveOverviewRow) : Prop where
  exact : defect.wireLine = line
  fails : ∃ digits fields, Spells line digits fields ∧
    FailsFirst format startArticle endArticle earlier digits fields defect.articleNumber
      defect.failureCode

end Verdicts

/-! ### Reading a line -/

theorem asciiDigitsValue_eq (digits : Bytes) :
    asciiDigitsValue digits = Nat.ofDigits 10 (digits.reverse.map fun b => b.toNat - 48) := by
  induction digits using List.reverseRecOn with
  | nil => rfl
  | append_singleton digits b ih =>
      rw [asciiDigitsValue] at ih
      rw [asciiDigitsValue, List.foldl_append, ih, List.reverse_append, List.map_append,
        Nat.ofDigits_append]
      simp [Nat.ofDigits_cons]
      omega

theorem parseAsciiU64_eq_some {digits : Bytes} {n : Nat} :
    parseAsciiU64 digits = some n ↔ Denotes digits n := by
  unfold parseAsciiU64
  constructor
  · intro h
    split at h
    · cases h
    · rename_i hdigits
      simp only [Bool.or_eq_true, Bool.not_eq_true', not_or, Bool.not_eq_false, List.isEmpty_iff,
        List.all_eq_true] at hdigits
      split at h
      · rename_i hbound
        cases h
        exact ⟨hdigits.1, hdigits.2, (asciiDigitsValue_eq digits).symm, hbound⟩
      · cases h
  · rintro ⟨hne, hdigits, hvalue, hbound⟩
    rw [← asciiDigitsValue_eq] at hvalue
    have hall : digits.all isAsciiDigit = true := List.all_eq_true.mpr hdigits
    rw [if_neg (by simp [hne, hall]), hvalue, if_pos hbound]

theorem parseAsciiU64_eq_none {digits : Bytes} :
    parseAsciiU64 digits = none ↔ ∀ n, ¬ Denotes digits n := by
  rw [Option.eq_none_iff_forall_ne_some]
  exact forall_congr' fun n => not_congr parseAsciiU64_eq_some

theorem Denotes.unique {digits : Bytes} {n m : Nat} (h : Denotes digits n) (h' : Denotes digits m) :
    n = m := h.value.symm.trans h'.value

/-- The parts of a line, as `split` gives them. -/
theorem spells_iff {line digits : Bytes} {fields : List Bytes} :
    Spells line digits fields ↔ line.splitOn tab = digits :: fields := by
  have hjoin : digits ++ (fields.map (tab :: ·)).flatten = [tab].intercalate (digits :: fields) := by
    induction fields generalizing digits with
    | nil => simp
    | cons field fields ih =>
        rw [List.intercalate_cons_cons, List.map_cons, List.flatten_cons, ← ih]
        simp
  constructor
  · rintro ⟨rfl, hdigits, hfields⟩
    rw [hjoin]
    refine List.splitOn_intercalate tab ?_ (List.cons_ne_nil _ _)
    simpa using ⟨hdigits, hfields⟩
  · intro h
    have hfree : ∀ part ∈ digits :: fields, tab ∉ part := by
      rw [← h]
      exact fun part hpart => not_mem_of_mem_splitOn hpart
    refine ⟨?_, hfree _ (by simp), fun field hfield => hfree _ (by simp [hfield])⟩
    rw [hjoin, ← h, List.intercalate_splitOn]

theorem exists_spells (line : Bytes) : ∃ digits fields, Spells line digits fields := by
  obtain ⟨digits, fields, h⟩ := List.exists_cons_of_ne_nil (List.splitOn_ne_nil tab line)
  exact ⟨digits, fields, spells_iff.mpr h⟩

theorem Spells.unique {line digits digits' : Bytes} {fields fields' : List Bytes}
    (h : Spells line digits fields) (h' : Spells line digits' fields') :
    digits = digits' ∧ fields = fields' :=
  List.cons.inj ((spells_iff.mp h).symm.trans (spells_iff.mp h'))

/-! ### One line -/

section Lines

variable {format : OverviewFormat} {startArticle endArticle : Nat} {earlier : List Nat}
  {line : Bytes}

/-- A line is not both accepted and defective. -/
theorem Accepts.not_rejects {row : LosslessOverviewRow} {defect : DefectiveOverviewRow}
    (h : Accepts format startArticle endArticle earlier line row) :
    ¬ Rejects format startArticle endArticle earlier line defect := by
  rintro ⟨-, digits, fields, hspells, hfails⟩
  obtain ⟨digits', hspells', hdenotes⟩ := h.spelled
  obtain ⟨rfl, rfl⟩ := hspells.unique hspells'
  generalize defect.articleNumber = number at hfails
  generalize defect.failureCode = code at hfails
  cases hfails with
  | number h' => exact h' _ hdenotes
  | range h' hrange =>
      cases h'.unique hdenotes
      exact hrange h.inRange
  | count h' hrange hcount => exact hcount h.count
  | duplicate h' hrange hcount hseen =>
      cases h'.unique hdenotes
      exact h.fresh hseen

theorem Accepts.unique {row row' : LosslessOverviewRow}
    (h : Accepts format startArticle endArticle earlier line row)
    (h' : Accepts format startArticle endArticle earlier line row') : row = row' := by
  obtain ⟨digits, hspells, hdenotes⟩ := h.spelled
  obtain ⟨digits', hspells', hdenotes'⟩ := h'.spelled
  obtain ⟨rfl, hfields⟩ := hspells.unique hspells'
  have hnumber := hdenotes.unique hdenotes'
  cases row
  cases row'
  simp_all

theorem Rejects.unique {defect defect' : DefectiveOverviewRow}
    (h : Rejects format startArticle endArticle earlier line defect)
    (h' : Rejects format startArticle endArticle earlier line defect') : defect = defect' := by
  obtain ⟨number, wireLine, code⟩ := defect
  obtain ⟨number', wireLine', code'⟩ := defect'
  obtain ⟨rfl, digits, fields, hspells, hfails⟩ := h
  obtain ⟨rfl, digits', fields', hspells', hfails'⟩ := h'
  obtain ⟨rfl, rfl⟩ := hspells.unique hspells'
  have hsame : number = number' ∧ code = code' := by
    cases hfails with
    | number h =>
        cases hfails' with
        | number => exact ⟨rfl, rfl⟩
        | range h' | count h' | duplicate h' => exact absurd h' (h _)
    | range h hrange =>
        cases hfails' with
        | number h' => exact absurd h (h' _)
        | range h' => exact ⟨congrArg some (h.unique h'), rfl⟩
        | count h' hrange' | duplicate h' hrange' =>
            cases h.unique h'
            exact absurd hrange' hrange
    | count h hrange hcount =>
        cases hfails' with
        | number h' => exact absurd h (h' _)
        | range h' hrange' =>
            cases h.unique h'
            exact absurd hrange hrange'
        | count h' => exact ⟨congrArg some (h.unique h'), rfl⟩
        | duplicate h' hrange' hcount' => exact absurd hcount' hcount
    | duplicate h hrange hcount hseen =>
        cases hfails' with
        | number h' => exact absurd h (h' _)
        | range h' hrange' =>
            cases h.unique h'
            exact absurd hrange hrange'
        | count h' hrange' hcount' => exact absurd hcount hcount'
        | duplicate h' => exact ⟨congrArg some (h.unique h'), rfl⟩
  simp [hsame]

def Judged (format : OverviewFormat) (startArticle endArticle : Nat) (earlier : List Nat)
    (line : Bytes) : LineVerdict → Prop
  | .accepted row => Accepts format startArticle endArticle earlier line row
  | .defective defect => Rejects format startArticle endArticle earlier line defect

theorem Judged.iff {verdict : LineVerdict}
    (h : Judged format startArticle endArticle earlier line verdict) :
    (∀ row, verdict = .accepted row ↔ Accepts format startArticle endArticle earlier line row) ∧
      ∀ defect, verdict = .defective defect ↔
        Rejects format startArticle endArticle earlier line defect := by
  cases verdict with
  | accepted row =>
      have hrow : Accepts format startArticle endArticle earlier line row := h
      refine ⟨fun row' => ⟨?_, fun h' => by rw [hrow.unique h']⟩, fun defect => ⟨?_, fun h' => ?_⟩⟩
      · rintro ⟨⟩
        exact hrow
      · rintro ⟨⟩
      · exact absurd h' hrow.not_rejects
  | defective defect =>
      have hdefect : Rejects format startArticle endArticle earlier line defect := h
      refine ⟨fun row => ⟨?_, fun h' => ?_⟩, fun defect' => ⟨?_, fun h' => by rw [hdefect.unique h']⟩⟩
      · rintro ⟨⟩
      · exact absurd hdefect h'.not_rejects
      · rintro ⟨⟩
        exact hdefect

def RowScan.put (scan : RowScan) : LineVerdict → RowScan
  | .accepted row =>
      { scan with rows := scan.rows ++ [row], seen := row.articleNumber :: scan.seen }
  | .defective row => { scan with defectiveRows := scan.defectiveRows ++ [row] }

/-- One round of the loop puts down the verdict on its line. -/
theorem scanRow_judged {scan : RowScan} (hseen : ∀ n, n ∈ scan.seen ↔ n ∈ earlier) (line : Bytes) :
    ∃ verdict, scanRow format startArticle endArticle scan line = scan.put verdict ∧
      Judged format startArticle endArticle earlier line verdict := by
  obtain ⟨digits, fields, hspells⟩ := exists_spells line
  have hsplit : line.splitOn 9 = digits :: fields := spells_iff.mp hspells
  simp only [scanRow, hsplit, List.headD_cons, List.tail_cons]
  cases hnumber : parseAsciiU64 digits with
  | none =>
      have hnone := parseAsciiU64_eq_none.mp hnumber
      exact ⟨.defective _, rfl, rfl, digits, fields, hspells, .number hnone⟩
  | some n =>
      have hdenotes := parseAsciiU64_eq_some.mp hnumber
      dsimp only
      split
      · have hrange : ¬ (startArticle ≤ n ∧ n ≤ endArticle) := by omega
        exact ⟨.defective _, rfl, rfl, digits, fields, hspells, .range hdenotes hrange⟩
      have hrange : startArticle ≤ n ∧ n ≤ endArticle := by omega
      split
      · rename_i hcount
        exact ⟨.defective _, rfl, rfl, digits, fields, hspells, .count hdenotes hrange hcount⟩
      rename_i hcount
      have hcount : fields.length = format.fields.length := by omega
      split
      · rename_i hmem
        exact ⟨.defective _, rfl, rfl, digits, fields, hspells,
          .duplicate hdenotes hrange hcount ((hseen n).mp hmem)⟩
      · rename_i hmem
        exact ⟨.accepted ⟨n, fields⟩, rfl, ⟨digits, hspells, hdenotes⟩, hrange, hcount,
          fun h => hmem ((hseen n).mpr h)⟩

end Lines

/-! ### All lines -/

section Parser

variable (format : OverviewFormat) (startArticle endArticle : Nat)

/-- The verdicts on the lines from some line on; `earlier` holds the numbers accepted
before. -/
inductive JudgedAll : List Nat → List Bytes → List LineVerdict → Prop where
  | nil {earlier} : JudgedAll earlier [] []
  | accepted {earlier line row lines verdicts}
      (h : Accepts format startArticle endArticle earlier line row)
      (rest : JudgedAll (earlier ++ [row.articleNumber]) lines verdicts) :
      JudgedAll earlier (line :: lines) (.accepted row :: verdicts)
  | defective {earlier line defect lines verdicts}
      (h : Rejects format startArticle endArticle earlier line defect)
      (rest : JudgedAll earlier lines verdicts) :
      JudgedAll earlier (line :: lines) (.defective defect :: verdicts)

theorem foldl_scanRow_judged (lines : List Bytes) {scan : RowScan} {earlier : List Nat}
    (hseen : ∀ n, n ∈ scan.seen ↔ n ∈ earlier) :
    ∃ verdicts, JudgedAll format startArticle endArticle earlier lines verdicts ∧
      (lines.foldl (scanRow format startArticle endArticle) scan).rows =
        scan.rows ++ verdicts.filterMap (·.row?) ∧
      (lines.foldl (scanRow format startArticle endArticle) scan).defectiveRows =
        scan.defectiveRows ++ verdicts.filterMap (·.defect?) := by
  induction lines generalizing scan earlier with
  | nil => exact ⟨[], .nil, by simp, by simp⟩
  | cons line lines ih =>
      obtain ⟨verdict, hscan, hjudged⟩ := scanRow_judged hseen line
      rw [List.foldl_cons, hscan]
      cases verdict with
      | accepted row =>
          have hseen' : ∀ n, n ∈ (scan.put (.accepted row)).seen ↔
              n ∈ earlier ++ [row.articleNumber] := by
            intro n
            simp [RowScan.put, hseen, or_comm]
          obtain ⟨verdicts, hall, hrows, hdefects⟩ := ih hseen'
          refine ⟨.accepted row :: verdicts, .accepted hjudged hall, ?_, ?_⟩
          · rw [hrows]
            simp [RowScan.put, LineVerdict.row?]
          · rw [hdefects]
            simp [RowScan.put, LineVerdict.defect?]
      | defective defect =>
          have hseen' : ∀ n, n ∈ (scan.put (.defective defect)).seen ↔ n ∈ earlier := hseen
          obtain ⟨verdicts, hall, hrows, hdefects⟩ := ih hseen'
          refine ⟨.defective defect :: verdicts, .defective hjudged hall, ?_, ?_⟩
          · rw [hrows]
            simp [RowScan.put, LineVerdict.row?]
          · rw [hdefects]
            simp [RowScan.put, LineVerdict.defect?]

variable {format startArticle endArticle} {earlier : List Nat} {lines : List Bytes}
  {verdicts : List LineVerdict}

theorem JudgedAll.length_eq
    (h : JudgedAll format startArticle endArticle earlier lines verdicts) :
    verdicts.length = lines.length := by
  induction h with
  | nil => rfl
  | accepted _ _ ih => simp [ih]
  | defective _ _ ih => simp [ih]

/-- The verdict at a place depends on the numbers accepted before that place. -/
theorem JudgedAll.at (h : JudgedAll format startArticle endArticle earlier lines verdicts)
    {i : Nat} {line : Bytes} {verdict : LineVerdict} (hline : lines[i]? = some line)
    (hverdict : verdicts[i]? = some verdict) :
    Judged format startArticle endArticle (earlier ++ acceptedNumbers (verdicts.take i)) line
      verdict := by
  induction h generalizing i with
  | nil => simp at hline
  | @accepted earlier head row lines verdicts h rest ih =>
      cases i with
      | zero =>
          cases hline
          cases hverdict
          have hnone : earlier ++ acceptedNumbers [] = earlier := List.append_nil earlier
          rw [List.take_zero, hnone]
          exact h
      | succ i =>
          have hlater := ih hline hverdict
          simpa [acceptedNumbers, LineVerdict.row?] using hlater
  | @defective earlier head defect lines verdicts h rest ih =>
      cases i with
      | zero =>
          cases hline
          cases hverdict
          have hnone : earlier ++ acceptedNumbers [] = earlier := List.append_nil earlier
          rw [List.take_zero, hnone]
          exact h
      | succ i =>
          have hlater := ih hline hverdict
          simpa [acceptedNumbers, LineVerdict.row?] using hlater

/-- No number is accepted twice. -/
theorem JudgedAll.nodup (h : JudgedAll format startArticle endArticle earlier lines verdicts)
    (hnodup : earlier.Nodup) : (earlier ++ acceptedNumbers verdicts).Nodup := by
  induction h with
  | nil => simpa [acceptedNumbers] using hnodup
  | @accepted earlier line row lines verdicts h rest ih =>
      have hnext : (earlier ++ [row.articleNumber]).Nodup := by
        rw [List.nodup_append_comm]
        exact List.nodup_cons.mpr ⟨h.fresh, hnodup⟩
      simpa [acceptedNumbers, LineVerdict.row?] using ih hnext
  | defective h rest ih => simpa [acceptedNumbers, LineVerdict.row?] using ih hnodup

end Parser

/-- **Nothing is lost and nothing invented.** There is one verdict a line, in order;
the rows are those of the accepted lines and the defective rows those of the others.
A line is accepted exactly if it is a number in range before the right number of
fields, and no line accepted before has the number; otherwise the first test that
fails is kept with the whole line. -/
theorem parseLosslessOverviewRows_lossless (data : Bytes) (format : OverviewFormat)
    (startArticle endArticle : Nat) :
    ∃ verdicts : List LineVerdict, verdicts.length = (wireLines data).length ∧
      (parseLosslessOverviewRows data format startArticle endArticle).rows =
        verdicts.filterMap (·.row?) ∧
      (parseLosslessOverviewRows data format startArticle endArticle).defectiveRows =
        verdicts.filterMap (·.defect?) ∧
      (∀ (i : Nat) (line : Bytes) (verdict : LineVerdict), (wireLines data)[i]? = some line →
        verdicts[i]? = some verdict →
        (∀ row, verdict = .accepted row ↔ Accepts format startArticle endArticle
          (acceptedNumbers (verdicts.take i)) line row) ∧
        ∀ defect, verdict = .defective defect ↔ Rejects format startArticle endArticle
          (acceptedNumbers (verdicts.take i)) line defect) ∧
      ((parseLosslessOverviewRows data format startArticle endArticle).rows.map
        (·.articleNumber)).Nodup := by
  have hseen : ∀ n, n ∈ ({} : RowScan).seen ↔ n ∈ ([] : List Nat) := fun n => Iff.rfl
  obtain ⟨verdicts, hall, hrows, hdefects⟩ :=
    foldl_scanRow_judged format startArticle endArticle (wireLines data) hseen
  have hrows' : (parseLosslessOverviewRows data format startArticle endArticle).rows =
      verdicts.filterMap (·.row?) := hrows
  refine ⟨verdicts, hall.length_eq, hrows', hdefects, ?_, ?_⟩
  · intro i line verdict hline hverdict
    exact (hall.at hline hverdict).iff
  · rw [hrows']
    exact hall.nodup List.nodup_nil

end Overview

end NzbNntp
