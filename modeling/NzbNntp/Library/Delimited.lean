import Mathlib.Data.List.Basic
import Mathlib.Order.Basic

/-!
Lists cut at a delimiter. `breakAfter d l` is the first piece of `l`, up to and
with the first `d`, and what follows it; `pieces d l` is all of `l` in such
pieces, the last of which may lack its delimiter.
-/

namespace Delimited

variable {α : Type} [DecidableEq α]

/-- A list without the delimiter `d` in it. -/
structure Piece (d : α) where
  text : List α
  free : d ∉ text

def Piece.full {d : α} (p : Piece d) : List α := p.text ++ [d]

def breakAfter (d : α) : List α → Option (List α × List α)
  | [] => none
  | a :: l =>
      if a = d then some ([a], l)
      else (breakAfter d l).map fun p => (a :: p.1, p.2)

def pieces (d : α) : List α → List (List α)
  | [] => []
  | a :: l =>
      if a = d then [a] :: pieces d l
      else
        match pieces d l with
        | [] => [[a]]
        | p :: ps => (a :: p) :: ps

theorem breakAfter_append {d : α} {p : List α} (hp : d ∉ p) (r : List α) :
    breakAfter d (p ++ d :: r) = some (p ++ [d], r) := by
  induction p with
  | nil => simp [breakAfter]
  | cons a p ih =>
      simp only [List.mem_cons, not_or] at hp
      simp [breakAfter, Ne.symm hp.1, ih hp.2]

theorem breakAfter_of_not_mem {d : α} {l : List α} (hl : d ∉ l) : breakAfter d l = none := by
  induction l with
  | nil => rfl
  | cons a l ih =>
      simp only [List.mem_cons, not_or] at hl
      simp [breakAfter, Ne.symm hl.1, ih hl.2]

theorem breakAfter_eq_some {d : α} {l q r : List α} :
    breakAfter d l = some (q, r) ↔ ∃ p, d ∉ p ∧ q = p ++ [d] ∧ l = p ++ d :: r := by
  constructor
  · intro h
    by_cases hd : d ∈ l
    · obtain ⟨p, s, rfl, hp⟩ := List.eq_append_cons_of_mem hd
      rw [breakAfter_append hp] at h
      simp only [Option.some.injEq, Prod.mk.injEq] at h
      obtain ⟨rfl, rfl⟩ := h
      exact ⟨p, hp, rfl, rfl⟩
    · rw [breakAfter_of_not_mem hd] at h
      cases h
  · rintro ⟨p, hp, rfl, rfl⟩
    exact breakAfter_append hp r

theorem breakAfter_eq_none {d : α} {l : List α} : breakAfter d l = none ↔ d ∉ l := by
  constructor
  · intro h hd
    obtain ⟨p, r, rfl, hp⟩ := List.eq_append_cons_of_mem hd
    rw [breakAfter_append hp] at h
    cases h
  · exact breakAfter_of_not_mem

@[simp] theorem breakAfter_full {d : α} (p : Piece d) (r : List α) :
    breakAfter d (p.full ++ r) = some (p.full, r) := by
  simpa [Piece.full] using breakAfter_append p.free r

@[simp] theorem pieces_nil (d : α) : pieces d [] = [] := rfl

theorem pieces_append {d : α} {p : List α} (hp : d ∉ p) (r : List α) :
    pieces d (p ++ d :: r) = (p ++ [d]) :: pieces d r := by
  induction p with
  | nil => simp [pieces]
  | cons a p ih =>
      simp only [List.mem_cons, not_or] at hp
      simp [pieces, Ne.symm hp.1, ih hp.2]

theorem pieces_of_not_mem {d : α} {l : List α} (hl : d ∉ l) (hne : l ≠ []) :
    pieces d l = [l] := by
  induction l with
  | nil => contradiction
  | cons a l ih =>
      simp only [List.mem_cons, not_or] at hl
      cases l with
      | nil => simp [pieces, Ne.symm hl.1]
      | cons b l =>
          rw [pieces, if_neg (Ne.symm hl.1), ih hl.2 (by simp)]

@[simp] theorem pieces_full {d : α} (p : Piece d) (r : List α) :
    pieces d (p.full ++ r) = p.full :: pieces d r := by
  simpa [Piece.full] using pieces_append p.free r

@[simp] theorem flatten_pieces (d : α) (l : List α) : (pieces d l).flatten = l := by
  induction l with
  | nil => rfl
  | cons a l ih =>
      rw [pieces]
      split
      · simp [ih]
      · split
        · rename_i h
          rw [h] at ih
          simpa using ih
        · rename_i h
          rw [h] at ih
          simpa using ih

/-- Induction along the pieces of a list: a list is empty, or one unfinished
piece, or a finished piece before a shorter list. -/
theorem pieces_induction {d : α} {P : List α → Prop} (nil : P [])
    (last : ∀ p, d ∉ p → p ≠ [] → P p)
    (cons : ∀ (p : Piece d) r, P r → P (p.full ++ r)) (l : List α) : P l := by
  induction hn : l.length using Nat.strongRecOn generalizing l with
  | _ n ih =>
      by_cases hd : d ∈ l
      · obtain ⟨p, r, rfl, hp⟩ := List.eq_append_cons_of_mem hd
        have hr : P r := ih r.length (by simp at hn; omega) r rfl
        simpa [Piece.full] using cons ⟨p, hp⟩ r hr
      · by_cases hne : l = []
        · exact hne ▸ nil
        · exact last l hd hne

/-- Every piece is free of the delimiter, or a finished piece. -/
theorem mem_pieces {d : α} {l p : List α} (hp : p ∈ pieces d l) :
    d ∉ p ∨ ∃ q : Piece d, p = q.full := by
  induction l using pieces_induction (d := d) with
  | nil => cases hp
  | last l hfree hne =>
      rw [pieces_of_not_mem hfree hne, List.mem_singleton] at hp
      exact .inl (hp ▸ hfree)
  | cons q r ih =>
      rw [pieces_full, List.mem_cons] at hp
      rcases hp with rfl | hp
      · exact .inr ⟨q, rfl⟩
      · exact ih hp

/-- A list with a delimiter in it, cut at the last one. -/
theorem eq_append_last_of_mem {α : Type*} {d : α} {l : List α} (h : d ∈ l) :
    ∃ a b, l = a ++ d :: b ∧ d ∉ b := by
  obtain ⟨b, a, hl, hb⟩ := List.eq_append_cons_of_mem (List.mem_reverse.mpr h)
  refine ⟨a.reverse, b.reverse, ?_, by rwa [List.mem_reverse]⟩
  rw [← l.reverse_reverse, hl]
  simp

theorem eq_nil_of_prefix_cons {α : Type*} {d : α} {w l : List α} (hw : d ∉ w)
    (h : w <+: d :: l) : w = [] := by
  rcases List.prefix_cons_iff.mp h with rfl | ⟨w', rfl, -⟩
  · rfl
  · simp at hw

/-- What has no delimiter in it stands on one side of each. -/
theorem infix_append_cons_iff {α : Type*} {d : α} {w a b : List α} (hw : d ∉ w) :
    w <:+: a ++ d :: b ↔ w <:+: a ∨ w <:+: b := by
  constructor
  · intro h
    rcases List.infix_append_iff.mp h with h | h | ⟨left, right, rfl, hleft, hright⟩
    · exact .inl h
    · rcases List.infix_cons_iff.mp h with h | h
      · rw [eq_nil_of_prefix_cons hw h]
        exact .inl List.nil_infix
      · exact .inr h
    · have hfree : d ∉ right := fun hmem => hw (List.mem_append_right left hmem)
      rw [eq_nil_of_prefix_cons hfree hright, List.append_nil]
      exact .inl hleft.isInfix
  · intro h
    rcases h with h | h
    · exact List.infix_append_of_infix_left h
    · exact List.infix_append_of_infix_right (List.infix_cons h)

/-- The parts of a split hold no delimiter. -/
theorem not_mem_of_mem_splitOn {α : Type*} [BEq α] [LawfulBEq α] {d : α} {l part : List α}
    (h : part ∈ l.splitOn d) : d ∉ part := by
  induction l generalizing part with
  | nil =>
      obtain rfl : part = [] := by simpa using h
      exact List.not_mem_nil
  | cons x l ih =>
      rw [List.splitOn_cons_eq_if_modifyHead] at h
      split at h
      · rcases List.mem_cons.mp h with rfl | h
        · exact List.not_mem_nil
        · exact ih h
      · rename_i hx
        obtain ⟨first, rest, hsplit⟩ := List.exists_cons_of_ne_nil (List.splitOn_ne_nil d l)
        rw [hsplit] at ih h
        rcases List.mem_cons.mp h with rfl | h
        · simp only [List.mem_cons, not_or]
          exact ⟨fun hdx => hx (by simp [hdx]), ih (by simp)⟩
        · exact ih (by simp [h])

/-- Splitting commutes with a renaming that keeps the elements apart. -/
theorem splitOn_map {α β : Type*} [BEq α] [LawfulBEq α] [BEq β] [LawfulBEq β] {f : α → β}
    (hf : Function.Injective f) (d : α) (l : List α) :
    (l.map f).splitOn (f d) = (l.splitOn d).map (List.map f) := by
  induction l with
  | nil => rfl
  | cons a l ih =>
      rw [List.map_cons, List.splitOn_cons_eq_if_modifyHead, List.splitOn_cons_eq_if_modifyHead, ih]
      by_cases had : a = d
      · rw [if_pos (by simp [had]), if_pos (by simp [had])]
        rfl
      · rw [if_neg (by simp [hf.eq_iff, had]), if_neg (by simp [had])]
        obtain ⟨first, rest, hsplit⟩ := List.exists_cons_of_ne_nil (List.splitOn_ne_nil d l)
        rw [hsplit]
        rfl

/-- What follows a list without a delimiter belongs to its last part. -/
theorem exists_splitOn_append {α : Type*} [BEq α] [LawfulBEq α] {d : α} {ends : List α}
    (hends : d ∉ ends) (l : List α) :
    ∃ parts last, l.splitOn d = parts ++ [last] ∧
      (l ++ ends).splitOn d = parts ++ [last ++ ends] := by
  induction l with
  | nil => exact ⟨[], [], by simp, by simpa using List.splitOn_eq_singleton hends⟩
  | cons a l ih =>
      obtain ⟨parts, last, hl, hends⟩ := ih
      rw [List.cons_append, List.splitOn_cons_eq_if_modifyHead,
        List.splitOn_cons_eq_if_modifyHead, hl, hends]
      by_cases had : (a == d) = true
      · exact ⟨[] :: parts, last, by rw [if_pos had]; rfl, by rw [if_pos had]; rfl⟩
      · rw [if_neg had, if_neg had]
        cases parts with
        | nil => exact ⟨[], a :: last, rfl, rfl⟩
        | cons first parts => exact ⟨(a :: first) :: parts, last, rfl, rfl⟩

end Delimited
