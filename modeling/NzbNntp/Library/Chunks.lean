import Mathlib.Data.List.Basic
import Mathlib.Order.Basic

/-!
A list in chunks of a fixed size, in order, the last one possibly smaller. The
chunks together are the list, and all but the last one are full.
-/

namespace Chunks

variable {α β : Type}

/-- `slice::chunks`, with at most `fuel` chunks. A chunk takes an element at least,
so the length of the list is fuel enough. -/
def chunksFrom (size : Nat) : Nat → List α → List (List α)
  | 0, _ => []
  | _ + 1, [] => []
  | fuel + 1, a :: l => (a :: l).take size :: chunksFrom size fuel ((a :: l).drop size)

def chunks (size : Nat) (l : List α) : List (List α) := chunksFrom size l.length l

/-- Non-empty chunks in their order: all but the last one have the full size. -/
def Chunked (size : Nat) : List (List α) → Prop
  | [] => True
  | chunk :: rest =>
      chunk ≠ [] ∧ chunk.length ≤ size ∧ (rest ≠ [] → chunk.length = size) ∧ Chunked size rest

theorem flatten_chunksFrom {size : Nat} (hsize : 0 < size) (fuel : Nat) (l : List α)
    (hfuel : l.length ≤ fuel) : (chunksFrom size fuel l).flatten = l := by
  induction fuel generalizing l with
  | zero => simpa [chunksFrom] using (List.length_eq_zero_iff.mp (Nat.le_zero.mp hfuel)).symm
  | succ fuel ih =>
      cases l with
      | nil => rfl
      | cons a l =>
          have hrest : ((a :: l).drop size).length ≤ fuel := by
            rw [List.length_drop]
            rw [List.length_cons] at hfuel ⊢
            omega
          rw [chunksFrom, List.flatten_cons, ih _ hrest, List.take_append_drop]

theorem flatten_chunks {size : Nat} (hsize : 0 < size) (l : List α) :
    (chunks size l).flatten = l :=
  flatten_chunksFrom hsize _ l (Nat.le_refl _)

theorem chunked_chunksFrom {size : Nat} (hsize : 0 < size) (fuel : Nat) (l : List α) :
    Chunked size (chunksFrom size fuel l) := by
  induction fuel generalizing l with
  | zero => trivial
  | succ fuel ih =>
      cases l with
      | nil => trivial
      | cons a l =>
          obtain ⟨k, rfl⟩ : ∃ k, size = k + 1 := ⟨size - 1, by omega⟩
          refine ⟨List.cons_ne_nil _ _, by rw [List.length_take]; omega, fun hne => ?_, ih _⟩
          have hrest : (a :: l).drop (k + 1) ≠ [] := by
            intro hnil
            rw [hnil] at hne
            cases fuel <;> exact hne rfl
          rw [Ne, List.drop_eq_nil_iff, Nat.not_le] at hrest
          rw [List.length_take]
          omega

theorem chunked_chunks {size : Nat} (hsize : 0 < size) (l : List α) :
    Chunked size (chunks size l) :=
  chunked_chunksFrom hsize _ l

/-- More fuel than there are elements changes nothing. -/
theorem chunksFrom_fuel {size : Nat} (hsize : 0 < size) {fuel more : Nat} {l : List α}
    (hfuel : l.length ≤ fuel) (hmore : l.length ≤ more) :
    chunksFrom size fuel l = chunksFrom size more l := by
  induction fuel generalizing more l with
  | zero =>
      obtain rfl := List.length_eq_zero_iff.mp (Nat.le_zero.mp hfuel)
      cases more <;> rfl
  | succ fuel ih =>
      cases l with
      | nil => cases more <;> rfl
      | cons a l =>
          rw [List.length_cons] at hfuel hmore
          obtain ⟨more, rfl⟩ : ∃ k, more = k + 1 := ⟨more - 1, by omega⟩
          have hdrop : ((a :: l).drop size).length ≤ l.length := by
            rw [List.length_drop, List.length_cons]
            omega
          have hrest : chunksFrom size fuel ((a :: l).drop size) =
              chunksFrom size more ((a :: l).drop size) := ih (by omega) (by omega)
          rw [chunksFrom, chunksFrom, hrest]

/-- A full chunk in front is a chunk of its own. -/
theorem chunks_append {size : Nat} (hsize : 0 < size) {p : List α} (hp : p.length = size)
    (l : List α) : chunks size (p ++ l) = p :: chunks size l := by
  cases p with
  | nil => simp only [List.length_nil] at hp; omega
  | cons a p =>
      rw [List.cons_append, chunks, List.length_cons, chunksFrom, ← List.cons_append,
        List.take_left' hp, List.drop_left' hp]
      have hfuel : l.length ≤ (p ++ l).length := by rw [List.length_append]; omega
      rw [chunksFrom_fuel hsize hfuel (Nat.le_refl _), chunks]

theorem chunksFrom_map (f : α → β) (size fuel : Nat) (l : List α) :
    chunksFrom size fuel (l.map f) = (chunksFrom size fuel l).map (·.map f) := by
  induction fuel generalizing l with
  | zero => rfl
  | succ fuel ih =>
      cases l with
      | nil => rfl
      | cons a l =>
          rw [List.map_cons, chunksFrom, chunksFrom, ← List.map_cons, ← List.map_drop, ih,
            ← List.map_take, List.map_cons]

theorem chunks_map (f : α → β) (size : Nat) (l : List α) :
    chunks size (l.map f) = (chunks size l).map (·.map f) := by
  rw [chunks, List.length_map]
  exact chunksFrom_map f size _ l

end Chunks
