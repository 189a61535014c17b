import Mathlib.Data.List.DropRight

/-!
Lists trimmed of the elements that satisfy a test: at the end, and at both ends.
-/

namespace Trimming

variable {α : Type*} {p : α → Bool}

/-- A list that neither begins nor ends with an element that is trimmed. -/
structure Bare (p : α → Bool) (l : List α) : Prop where
  head : ∀ x, l.head? = some x → p x = false
  last : ∀ x, l.getLast? = some x → p x = false

theorem rdropWhile_append_of_forall {l ends : List α} (h : ∀ x ∈ ends, p x = true) :
    (l ++ ends).rdropWhile p = l.rdropWhile p := by
  rw [List.rdropWhile, List.reverse_append, List.dropWhile_append_of_pos]
  · rfl
  · intro x hx
    exact h x (List.mem_reverse.mp hx)

theorem rdropWhile_of_last {l : List α} (h : ∀ x, l.getLast? = some x → p x = false) :
    l.rdropWhile p = l := by
  rw [List.rdropWhile_eq_self_iff]
  intro hl
  rw [h _ (List.getLast?_eq_some_getLast hl)]
  decide

theorem dropWhile_of_head {l : List α} (h : ∀ x, l.head? = some x → p x = false) :
    l.dropWhile p = l := by
  cases l with
  | nil => rfl
  | cons x l => rw [List.dropWhile_cons, h x rfl, if_neg (by decide)]

/-- What is left after trimming the end: the part before elements that all satisfy
the test, whose own last one does not. -/
theorem rdropWhile_eq_iff {l m : List α} :
    l.rdropWhile p = m ↔
      (∃ ends, l = m ++ ends ∧ ∀ x ∈ ends, p x = true) ∧
        ∀ x, m.getLast? = some x → p x = false := by
  constructor
  · rintro rfl
    refine ⟨⟨l.rtakeWhile p, List.rdropWhile_append_rtakeWhile.symm, fun x hx =>
      List.mem_rtakeWhile_imp hx⟩, fun x hx => ?_⟩
    have hne : l.rdropWhile p ≠ [] := by
      intro hnil
      rw [hnil] at hx
      cases hx
    rw [List.getLast?_eq_some_getLast hne, Option.some.injEq] at hx
    rw [← hx]
    simpa using List.rdropWhile_last_not p l hne
  · rintro ⟨⟨ends, rfl, hends⟩, hlast⟩
    rw [rdropWhile_append_of_forall hends, rdropWhile_of_last hlast]

/-- Trimming both ends finds what is bare between them. -/
theorem trim_append {front core ends : List α} (hcore : Bare p core)
    (hfront : ∀ x ∈ front, p x = true) (hends : ∀ x ∈ ends, p x = true) :
    ((front ++ (core ++ ends)).dropWhile p).rdropWhile p = core := by
  rw [List.dropWhile_append_of_pos hfront]
  cases core with
  | nil =>
      rw [List.nil_append, List.dropWhile_eq_nil_iff.mpr hends]
      rfl
  | cons x core =>
      rw [List.cons_append, List.dropWhile_cons, hcore.head x rfl, if_neg (by decide),
        ← List.cons_append, rdropWhile_append_of_forall hends, rdropWhile_of_last hcore.last]

theorem trim_of_bare {core : List α} (hcore : Bare p core) :
    (core.dropWhile p).rdropWhile p = core := by
  rw [dropWhile_of_head hcore.head, rdropWhile_of_last hcore.last]

/-- What is trimmed away anyway can be put at the end. -/
theorem trim_append_ends {ends : List α} (h : ∀ x ∈ ends, p x = true) (l : List α) :
    ((l ++ ends).dropWhile p).rdropWhile p = (l.dropWhile p).rdropWhile p := by
  rw [List.dropWhile_append]
  split
  · rename_i hempty
    rw [List.isEmpty_iff.mp hempty, List.dropWhile_eq_nil_iff.mpr h]
  · exact rdropWhile_append_of_forall h

end Trimming
