import Mathlib.Data.List.Sort

/-!
Stability of insertion sort. A list whose entries carry their places, sorted by
anything, is sorted by that and among equals by the place.
-/

namespace StableSort

open List

variable {α : Type} {r s : α → α → Prop} [DecidableRel r]

/-- The places do not change the order. -/
theorem map_insertionSort_zipIdx (l : List α) (n : Nat) :
    ((l.zipIdx n).insertionSort fun a b => r a.1 b.1).map (·.1) = l.insertionSort r := by
  rw [map_insertionSort _ r _ _ fun _ _ _ _ => Iff.rfl, zipIdx_map_fst]

theorem pairwise_zipIdx (l : List α) (n : Nat) : (l.zipIdx n).Pairwise fun a b => a.2 < b.2 := by
  have h : ((l.zipIdx n).map (·.2)).Pairwise (· < ·) := by
    rw [zipIdx_map_snd]
    exact pairwise_lt_range'
  exact pairwise_map.mp h

section Stability

variable [Std.Total r] [IsTrans α r]

/-- An entry that stands before the others goes before those it is not above. -/
theorem pairwise_orderedInsert {a : α} {l : List α} (ha : ∀ b ∈ l, s a b)
    (hl : l.Pairwise fun a b => r a b ∧ (r b a → s a b)) :
    (l.orderedInsert r a).Pairwise fun a b => r a b ∧ (r b a → s a b) := by
  induction l with
  | nil => simp
  | cons b l ih =>
      obtain ⟨hb, hrest⟩ := pairwise_cons.mp hl
      by_cases hab : r a b
      · rw [orderedInsert_cons_of_le r l hab]
        refine pairwise_cons.mpr ⟨fun c hc => ⟨?_, fun _ => ha c hc⟩, hl⟩
        rcases mem_cons.mp hc with rfl | hc
        · exact hab
        · exact IsTrans.trans a b c hab (hb c hc).1
      · rw [orderedInsert_of_not_le r l hab]
        refine pairwise_cons.mpr ⟨fun c hc => ?_, ih (fun c hc => ha c (mem_cons_of_mem b hc)) hrest⟩
        rcases (mem_orderedInsert r).mp hc with rfl | hc
        · exact ⟨(Std.Total.total b c).resolve_right hab, fun h => absurd h hab⟩
        · exact hb c hc

/-- **Insertion sort is stable**: entries that are equal for `r` stay in the order `s`
they were in. -/
theorem pairwise_insertionSort {l : List α} (h : l.Pairwise s) :
    (l.insertionSort r).Pairwise fun a b => r a b ∧ (r b a → s a b) := by
  induction h with
  | nil => simp
  | cons ha _ ih =>
      rw [insertionSort_cons]
      apply pairwise_orderedInsert _ ih
      intro b hb
      exact ha b ((mem_insertionSort r).mp hb)

end Stability

end StableSort
