import Mathlib.Data.List.Basic

/-!
Machines that read a symbol at a time and write some symbols for each. Two of them that read
the same input are compared by a relation between their states: what holds of one symbol
holds of every input.
-/

namespace Transducer

variable {σ τ ι ο : Type*}

/-- A machine goes through an input, and what it writes is put together. -/
def run (step : σ → ι → σ × List ο) : σ → List ι → σ × List ο
  | s, [] => (s, [])
  | s, i :: rest =>
      let first := step s i
      let later := run step first.1 rest
      (later.1, first.2 ++ later.2)

variable {step : σ → ι → σ × List ο} {step' : τ → ι → τ × List ο}

theorem run_append (s : σ) (input rest : List ι) :
    run step s (input ++ rest) =
      ((run step (run step s input).1 rest).1,
        (run step s input).2 ++ (run step (run step s input).1 rest).2) := by
  induction input generalizing s with
  | nil => rfl
  | cons i input ih => simp [run, ih]

theorem run_concat (s : σ) (input : List ι) (i : ι) :
    (run step s (input ++ [i])).1 = (step (run step s input).1 i).1 := by
  rw [run_append]
  rfl

/-- What every symbol keeps is kept by every input. -/
theorem run_invariant {P : σ → Prop} (hstep : ∀ s i, P s → P (step s i).1) {s : σ} (h : P s)
    (input : List ι) : P (run step s input).1 := by
  induction input generalizing s with
  | nil => exact h
  | cons i input ih => exact ih (hstep s i h)

/-- An event that is never taken back, and that happens in the course of an input, happens at
one of its symbols. -/
theorem exists_step_of_run {P : σ → Prop} {s : σ} {input : List ι} (h : ¬ P s)
    (hrun : P (run step s input).1) :
    ∃ before i after, input = before ++ i :: after ∧ ¬ P (run step s before).1 ∧
      P (step (run step s before).1 i).1 := by
  induction input generalizing s with
  | nil => exact absurd hrun h
  | cons i input ih =>
      by_cases hfirst : P (step s i).1
      · exact ⟨[], i, input, rfl, h, hfirst⟩
      · obtain ⟨before, j, after, rfl, hbefore, hat⟩ := ih hfirst hrun
        exact ⟨i :: before, j, after, rfl, hbefore, hat⟩

/-- Machines that write the same for every symbol write the same for every input, as long as
nothing happens after which they may differ. -/
theorem run_agree {R : σ → τ → Prop} {Parted : σ → Prop}
    (hparted : ∀ s i, Parted s → Parted (step s i).1)
    (hstep : ∀ s t i, R s t → Parted (step s i).1 ∨
      ((step s i).2 = (step' t i).2 ∧ R (step s i).1 (step' t i).1))
    {s : σ} {t : τ} (h : R s t) (input : List ι) (hnot : ¬ Parted (run step s input).1) :
    (run step s input).2 = (run step' t input).2 ∧
      R (run step s input).1 (run step' t input).1 := by
  induction input generalizing s t with
  | nil => exact ⟨rfl, h⟩
  | cons i input ih =>
      rcases hstep s t i h with hdiffer | ⟨hwrites, hnext⟩
      · exact absurd (run_invariant hparted hdiffer input) hnot
      · obtain ⟨hrest, hlast⟩ := ih hnext hnot
        exact ⟨by rw [run, run, hwrites, hrest], hlast⟩

/-- The same where nothing ever parts them. -/
theorem run_same {R : σ → τ → Prop}
    (hstep : ∀ s t i, R s t → (step s i).2 = (step' t i).2 ∧ R (step s i).1 (step' t i).1)
    {s : σ} {t : τ} (h : R s t) (input : List ι) :
    (run step s input).2 = (run step' t input).2 ∧
      R (run step s input).1 (run step' t input).1 :=
  run_agree (R := R) (fun _ _ => False.elim) (fun s t i h => .inr (hstep s t i h)) h input id

/-- What one symbol adds to a count of what is written, every input adds. -/
theorem run_written {written : τ → Nat}
    (hwritten : ∀ t i, written (step' t i).1 = written t + (step' t i).2.length) (t : τ)
    (input : List ι) :
    written (run step' t input).1 = written t + (run step' t input).2.length := by
  induction input generalizing t with
  | nil => rfl
  | cons i input ih =>
      rw [run]
      dsimp only
      rw [ih, hwritten, List.length_append, Nat.add_assoc]

/-- A machine that writes what another does, but only up to a total of `limit`, `written`
being what the other has written. -/
theorem run_cut {R : σ → τ → Prop} (written : τ → Nat) {limit : Nat}
    (hwritten : ∀ t i, written (step' t i).1 = written t + (step' t i).2.length)
    (hstep : ∀ s t i, R s t → R (step s i).1 (step' t i).1 ∧
      (step s i).2 = (step' t i).2.take (limit - written t))
    {s : σ} {t : τ} (h : R s t) (input : List ι) :
    R (run step s input).1 (run step' t input).1 ∧
      (run step s input).2 = (run step' t input).2.take (limit - written t) := by
  induction input generalizing s t with
  | nil => exact ⟨h, List.take_nil.symm⟩
  | cons i input ih =>
      obtain ⟨hnext, hwrites⟩ := hstep s t i h
      obtain ⟨hlast, hrest⟩ := ih hnext
      refine ⟨hlast, ?_⟩
      rw [run, run]
      dsimp only
      rw [hrest, hwrites, List.take_append, hwritten, Nat.sub_add_eq]

end Transducer
