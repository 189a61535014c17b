import NzbNntp.Library.Interleaving

/-!
A lock that the tasks of a system take and give back. The task that holds it is the only
one: what it knows of the shared state stays true while the others go on, as long as no step
without the lock takes it away.
-/

namespace Interleaving

variable {σ τ : Type*}

def holders (holds : τ → Bool) (tasks : Multiset τ) : ℕ := load (fun t => (holds t).toNat) tasks

@[simp] theorem holders_zero (holds : τ → Bool) : holders holds 0 = 0 := rfl

@[simp] theorem holders_cons (holds : τ → Bool) (t : τ) (ts : Multiset τ) :
    holders holds (t ::ₘ ts) = (holds t).toNat + holders holds ts := load_cons _ t ts

@[simp] theorem holders_singleton (holds : τ → Bool) (t : τ) :
    holders holds {t} = (holds t).toNat := load_singleton _ t

@[simp] theorem holders_add (holds : τ → Bool) (ts us : Multiset τ) :
    holders holds (ts + us) = holders holds ts + holders holds us := load_add _ ts us

/-- A task can take the lock if it is free, and give it back if it holds it. -/
structure Lock (R : Local σ τ) (starts : τ → Prop) (free : σ → Bool) (holds : τ → Bool) :
    Prop where
  move : ∀ s t s' ts, R s t s' ts → (holds t = true → free s = false) →
    (free s').toNat + holders holds ts = (free s).toNat + (holds t).toNat
  start : ∀ t, starts t → holds t = false

variable {R : Local σ τ} {starts : τ → Prop} {free : σ → Bool} {holds : τ → Bool} {s₀ : σ}

/-- The lock is free or one task holds it. -/
theorem Lock.total (hlock : Lock R starts free holds) {c : σ × Multiset τ}
    (h : Reachable R starts s₀ c) : (free c.1).toNat + holders holds c.2 = (free s₀).toNat := by
  refine h.invariant
    (P := fun c => (free c.1).toNat + holders holds c.2 = (free s₀).toNat) rfl ?_ ?_
  · intro s t s' ts rest htotal hstep
    dsimp only at htotal ⊢
    rw [holders_cons] at htotal
    have hone := Bool.toNat_le (free s₀)
    have hheld : holds t = true → free s = false := by
      intro ht
      rw [ht, Bool.toNat_true] at htotal
      apply Bool.toNat_eq_zero.mp
      omega
    have hmove := hlock.move s t s' ts hstep hheld
    rw [holders_add]
    omega
  · intro s t rest htotal hstart
    rwa [holders_cons, hlock.start t hstart, Bool.toNat_false, zero_add]

/-- Who holds the lock is alone. -/
theorem Lock.alone (hlock : Lock R starts free holds) {s : σ} {t : τ} {rest : Multiset τ}
    (h : Reachable R starts s₀ (s, t ::ₘ rest)) (ht : holds t = true) :
    ∀ u ∈ rest, holds u = false := by
  intro u hu
  obtain ⟨others, rfl⟩ := Multiset.exists_cons_of_mem hu
  have htotal : (free s).toNat + holders holds (t ::ₘ u ::ₘ others) = (free s₀).toNat :=
    hlock.total h
  have hone := Bool.toNat_le (free s₀)
  rw [holders_cons, holders_cons, ht, Bool.toNat_true] at htotal
  apply Bool.toNat_eq_zero.mp
  omega

/-- A condition `J` on the shared state, and what a task with the lock knows of it. -/
theorem Lock.protects {J : σ → Prop} {K : σ → τ → Prop} (hlock : Lock R starts free holds)
    {c : σ × Multiset τ} (h : Reachable R starts s₀ c) (init : J s₀)
    (move : ∀ s t s' ts, J s → K s t → R s t s' ts → J s' ∧ ∀ u ∈ ts, K s' u)
    (unlocked : ∀ s t, holds t = false → K s t)
    (stable : ∀ s t s' ts u, R s t s' ts → holds t = false → K s u → K s' u) :
    J c.1 ∧ ∀ t ∈ c.2, K c.1 t := by
  induction h with
  | refl => exact ⟨init, fun t ht => absurd ht (Multiset.notMem_zero t)⟩
  | tail hrun step ih =>
      obtain ⟨hJ, hK⟩ := ih
      cases step with
      | @move s s' t ts rest hstep =>
          obtain ⟨hJ', hts⟩ := move s t s' ts hJ (hK t (Multiset.mem_cons_self t rest)) hstep
          refine ⟨hJ', fun u hu => ?_⟩
          rcases Multiset.mem_add.mp hu with hu | hu
          · exact hts u hu
          cases ht : holds t with
          | true => exact unlocked s' u (hlock.alone hrun ht u hu)
          | false => exact stable s t s' ts u hstep ht (hK u (Multiset.mem_cons_of_mem hu))
      | @start s t rest hstart =>
          refine ⟨hJ, fun u hu => ?_⟩
          rcases Multiset.mem_cons.mp hu with rfl | hu
          · exact unlocked s u (hlock.start u hstart)
          · exact hK u hu

end Interleaving
