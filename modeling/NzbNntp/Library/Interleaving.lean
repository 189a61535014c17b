import Mathlib.Algebra.BigOperators.Group.Multiset.Basic
import Mathlib.Algebra.Order.Monoid.Defs
import Mathlib.Data.Multiset.Count
import Mathlib.Logic.Relation

/-!
Tasks that run side by side on a shared state. A step lets one of the tasks make
its next atomic step, with which it may end or go on as other tasks, or it
starts a task. No order of the steps is assumed, and tasks have no names: they
are a multiset.

What is proved for one step of one task holds in every reachable state: a
condition on the shared state and on each task, and the conservation of a
quantity to which the shared state and each task contribute.

A part of such a system may be a system of its own, with tasks that the tasks of the
whole carry out for it; what holds of the part alone then holds of it in the whole.
-/

namespace Interleaving

variable {σ τ : Type*}

/-- The atomic steps of a task: with the shared state `s` and the task `t`, the
next shared state and what the task has become. -/
abbrev Local (σ τ : Type*) := σ → τ → σ → Multiset τ → Prop

inductive Step (R : Local σ τ) (starts : τ → Prop) : σ × Multiset τ → σ × Multiset τ → Prop where
  | move {s s' : σ} {t : τ} {ts rest : Multiset τ} (h : R s t s' ts) :
      Step R starts (s, t ::ₘ rest) (s', ts + rest)
  | start {s : σ} {t : τ} {rest : Multiset τ} (h : starts t) :
      Step R starts (s, rest) (s, t ::ₘ rest)

/-- What can be reached from `s₀` and no tasks. -/
def Reachable (R : Local σ τ) (starts : τ → Prop) (s₀ : σ) (c : σ × Multiset τ) : Prop :=
  Relation.ReflTransGen (Step R starts) (s₀, 0) c

section Rules

variable {R : Local σ τ} {starts : τ → Prop} {s₀ : σ} {c : σ × Multiset τ}

/-- An invariant holds in every reachable state. -/
theorem Reachable.invariant {P : σ × Multiset τ → Prop} (h : Reachable R starts s₀ c)
    (init : P (s₀, 0))
    (move : ∀ s t s' ts rest, P (s, t ::ₘ rest) → R s t s' ts → P (s', ts + rest))
    (start : ∀ s t rest, P (s, rest) → starts t → P (s, t ::ₘ rest)) : P c := by
  induction h with
  | refl => exact init
  | tail _ step ih =>
      cases step with
      | move h => exact move _ _ _ _ _ ih h
      | start h => exact start _ _ _ ih h

/-- A task goes on beside the others. -/
theorem Reachable.move_on {s s' : σ} {t u : τ} {rest : Multiset τ}
    (h : Reachable R starts s₀ (s, t ::ₘ rest)) (hstep : R s t s' {u}) :
    Reachable R starts s₀ (s', u ::ₘ rest) := by
  have hmove : Step R starts (s, t ::ₘ rest) (s', {u} + rest) := .move hstep
  rw [Multiset.singleton_add] at hmove
  exact h.tail hmove

/-- A step of the only task. -/
theorem Reachable.move_alone {s s' : σ} {t : τ} {ts : Multiset τ}
    (h : Reachable R starts s₀ (s, {t})) (hstep : R s t s' ts) :
    Reachable R starts s₀ (s', ts) := by
  have hmove : Step R starts (s, t ::ₘ 0) (s', ts + 0) := .move hstep
  rw [add_zero] at hmove
  exact h.tail hmove

/-- More steps reach more. -/
theorem Reachable.mono {R' : Local σ τ} (h : Reachable R starts s₀ c)
    (hsteps : ∀ s t s' ts, R s t s' ts → R' s t s' ts) : Reachable R' starts s₀ c := by
  refine h.invariant (P := Reachable R' starts s₀) .refl ?_ ?_
  · exact fun s t s' ts rest hrun hstep => hrun.tail (.move (hsteps s t s' ts hstep))
  · exact fun s t rest hrun hstart => hrun.tail (.start hstart)

structure Keeps (R : Local σ τ) (starts : τ → Prop) (J : σ → Prop) (I : τ → Prop) : Prop where
  move : ∀ s t s' ts, J s → I t → R s t s' ts → J s' ∧ ∀ u ∈ ts, I u
  start : ∀ t, starts t → I t

variable {J : σ → Prop} {I : τ → Prop}

theorem Reachable.keeps (h : Reachable R starts s₀ c) (hkeeps : Keeps R starts J I)
    (init : J s₀) : J c.1 ∧ ∀ t ∈ c.2, I t := by
  refine h.invariant (P := fun c => J c.1 ∧ ∀ t ∈ c.2, I t) ⟨init, by simp⟩ ?_ ?_
  · rintro s t s' ts rest ⟨hJ, hI⟩ hstep
    obtain ⟨hJ', hts⟩ := hkeeps.move s t s' ts hJ (hI t (Multiset.mem_cons_self t rest)) hstep
    refine ⟨hJ', fun u hu => ?_⟩
    rcases Multiset.mem_add.mp hu with hu | hu
    · exact hts u hu
    · exact hI u (Multiset.mem_cons_of_mem hu)
  · rintro s t rest ⟨hJ, hI⟩ hstart
    refine ⟨hJ, fun u hu => ?_⟩
    rcases Multiset.mem_cons.mp hu with rfl | hu
    · exact hkeeps.start u hstart
    · exact hI u hu

theorem Keeps.mono {R' : Local σ τ} (h : Keeps R starts J I)
    (hsteps : ∀ s t s' ts, R' s t s' ts → R s t s' ts) : Keeps R' starts J I :=
  ⟨fun s t s' ts hs ht hstep => h.move s t s' ts hs ht (hsteps s t s' ts hstep), h.start⟩

/-- An invariant of the whole, next to a condition on its parts. -/
theorem Reachable.invariant_of_keeps {P : σ × Multiset τ → Prop} (h : Reachable R starts s₀ c)
    (hkeeps : Keeps R starts J I) (hJ : J s₀) (init : P (s₀, 0))
    (move : ∀ s t s' ts rest, J s → I t → P (s, t ::ₘ rest) → R s t s' ts → P (s', ts + rest))
    (start : ∀ s t rest, P (s, rest) → starts t → P (s, t ::ₘ rest)) : P c := by
  induction h with
  | refl => exact init
  | tail hrun step ih =>
      have hall := Reachable.keeps hrun hkeeps hJ
      cases step with
      | move h => exact move _ _ _ _ _ hall.1 (hall.2 _ (Multiset.mem_cons_self _ _)) ih h
      | start h => exact start _ _ _ ih h

def load {M : Type*} [AddCommMonoid M] (f : τ → M) (tasks : Multiset τ) : M := (tasks.map f).sum

section Load

variable {M : Type*} [AddCommMonoid M] (f : τ → M)

@[simp] theorem load_zero : load f 0 = 0 := rfl

@[simp] theorem load_cons (t : τ) (ts : Multiset τ) : load f (t ::ₘ ts) = f t + load f ts := by
  simp [load]

@[simp] theorem load_singleton (t : τ) : load f {t} = f t := by simp [load]

@[simp] theorem load_add (ts us : Multiset τ) : load f (ts + us) = load f ts + load f us := by
  simp [load]

theorem load_add_fun (g : τ → M) (ts : Multiset τ) :
    load (fun t => f t + g t) ts = load f ts + load g ts := by
  simp [load]

/-- Counting the tasks of a kind. -/
theorem load_ite (p : τ → Prop) [DecidablePred p] (ts : Multiset τ) :
    load (fun t => if p t then 1 else 0) ts = ts.countP p := by
  induction ts using Multiset.induction with
  | empty => rfl
  | cons t ts ih => rw [load_cons, ih, Multiset.countP_cons, add_comm]

theorem countP_cons (p : τ → Bool) (t : τ) (ts : Multiset τ) :
    (t ::ₘ ts).countP (p ·) = (p t).toNat + ts.countP (p ·) := by
  rw [Multiset.countP_cons, Nat.add_comm]
  cases p t <;> rfl

theorem countP_singleton (p : τ → Bool) (t : τ) :
    ({t} : Multiset τ).countP (p ·) = (p t).toNat := by
  rw [← Multiset.cons_zero, countP_cons, Multiset.countP_zero, Nat.add_zero]

theorem countP_map_eq_zero {τ' : Type*} {p : τ → Bool} {f : τ' → τ} (h : ∀ u, p (f u) = false)
    (us : Multiset τ') : (us.map f).countP (p ·) = 0 := by
  rw [Multiset.countP_eq_zero]
  intro t ht
  obtain ⟨u, -, rfl⟩ := Multiset.mem_map.mp ht
  simp [h u]

end Load

/-- **Conservation.** A quantity that no step of a task changes is the same in
every reachable state. -/
theorem Reachable.conserves {M : Type*} [AddCommMonoid M] {g : σ → M} {f : τ → M}
    (h : Reachable R starts s₀ c) (hkeeps : Keeps R starts J I) (hJ : J s₀)
    (move : ∀ s t s' ts, J s → I t → R s t s' ts → g s' + load f ts = g s + f t)
    (start : ∀ t, starts t → f t = 0) : g c.1 + load f c.2 = g s₀ := by
  refine h.invariant_of_keeps (P := fun c => g c.1 + load f c.2 = g s₀) hkeeps hJ (by simp) ?_ ?_
  · intro s t s' ts rest hs ht hP hstep
    rw [← hP, load_add, ← add_assoc, move s t s' ts hs ht hstep, load_cons, add_assoc]
  · intro s t rest hP hstart
    rw [← hP, load_cons, start t hstart, zero_add]

/-- A quantity that no step of a task increases stays below its first value. -/
theorem Reachable.bounds {M : Type*} [AddCommMonoid M] [PartialOrder M] [IsOrderedAddMonoid M]
    {g : σ → M} {f : τ → M} (h : Reachable R starts s₀ c) (hkeeps : Keeps R starts J I) (hJ : J s₀)
    (move : ∀ s t s' ts, J s → I t → R s t s' ts → g s' + load f ts ≤ g s + f t)
    (start : ∀ t, starts t → f t = 0) : g c.1 + load f c.2 ≤ g s₀ := by
  refine h.invariant_of_keeps (P := fun c => g c.1 + load f c.2 ≤ g s₀) hkeeps hJ (by simp) ?_ ?_
  · intro s t s' ts rest hs ht hP hstep
    calc g s' + load f (ts + rest) = g s' + load f ts + load f rest := by rw [load_add, add_assoc]
      _ ≤ g s + f t + load f rest := add_le_add_left (move s t s' ts hs ht hstep) (load f rest)
      _ = g s + load f (t ::ₘ rest) := by rw [load_cons, add_assoc]
      _ ≤ g s₀ := hP
  · intro s t rest hP hstart
    rwa [load_cons, start t hstart, zero_add]

end Rules

/-! ### Coming to an end -/

section Endings

variable {R : Local σ τ} {starts : τ → Prop} {J : σ → Prop} {I : τ → Prop} {s : σ}
  {tasks : Multiset τ}

end Endings

/-! ### Parts -/

section Parts

variable {σ' τ' : Type*} {R : Local σ τ} {starts : τ → Prop} {R' : Local σ' τ'}
  {starts' : τ' → Prop} {s₀ : σ} {c : σ × Multiset τ}

/-- What a step of the whole is to a part: `view` is the part of the shared state, and `task`
gives the task of the part that a task of the whole carries out. -/
inductive PartMove (R' : Local σ' τ') (starts' : τ' → Prop) (view : σ → σ') (task : τ → Option τ')
    (s : σ) (t : τ) (s' : σ) (ts : Multiset τ) : Prop where
  | outside (hview : view s' = view s) (htasks : ts.filterMap task = ↑(task t).toList)
  | inside {u : τ'} (htask : task t = some u)
      (hmove : R' (view s) u (view s') (ts.filterMap task))
  | starting {u : τ'} (hview : view s' = view s) (htask : task t = none) (hstart : starts' u)
      (htasks : ts.filterMap task = {u})

structure Part (R : Local σ τ) (starts : τ → Prop) (R' : Local σ' τ') (starts' : τ' → Prop)
    (view : σ → σ') (task : τ → Option τ') : Prop where
  move : ∀ {s t s' ts}, R s t s' ts → PartMove R' starts' view task s t s' ts
  start : ∀ {t}, starts t → task t = none

theorem filterMap_cons (task : τ → Option τ') (t : τ) (ts : Multiset τ) :
    (t ::ₘ ts).filterMap task = ↑(task t).toList + ts.filterMap task := by
  cases h : task t with
  | none => rw [Multiset.filterMap_cons_none _ _ h]; simp
  | some u => rw [Multiset.filterMap_cons_some _ _ _ h]; simp

@[simp] theorem filterMap_singleton (task : τ → Option τ') (t : τ) :
    ({t} : Multiset τ).filterMap task = ↑(task t).toList := by
  rw [← Multiset.cons_zero, filterMap_cons, Multiset.filterMap_zero, add_zero]

/-- A part of a run is a run of the part. -/
theorem Reachable.part {view : σ → σ'} {task : τ → Option τ'} (h : Reachable R starts s₀ c)
    (hpart : Part R starts R' starts' view task) :
    Reachable R' starts' (view s₀) (view c.1, c.2.filterMap task) := by
  refine h.invariant (P := fun c => Reachable R' starts' (view s₀) (view c.1, c.2.filterMap task))
    .refl ?_ ?_
  · intro s t s' ts rest hrun hstep
    dsimp only at hrun ⊢
    rw [filterMap_cons] at hrun
    rw [Multiset.filterMap_add]
    cases hpart.move hstep with
    | outside hview htasks => rwa [hview, htasks]
    | inside htask hmove =>
        rw [htask] at hrun
        exact hrun.tail (.move hmove)
    | starting hview htask hstart htasks =>
        rw [htask] at hrun
        rw [hview, htasks]
        exact hrun.tail (by simpa using .start hstart)
  · intro s t rest hrun hstart
    dsimp only at hrun ⊢
    rw [filterMap_cons, hpart.start hstart]
    simpa using hrun

end Parts

end Interleaving
