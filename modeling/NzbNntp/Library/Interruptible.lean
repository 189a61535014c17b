import Mathlib.Logic.Basic

/-!
State computations that can be abandoned. A computation over a state `σ` ends
in one of three ways: it returns a value, it fails with an error, or its caller
drops it while it waits. A dropped computation leaves the state as it stood at
the last wait, and no code of its own runs afterwards; in particular a handler
attached to its errors does not. That is the difference between `err` and
`dropped` throughout.

`wp x Q` is the weakest precondition of `x` for a postcondition with one part
for each ending; the `wp` lemmas compute it along the structure of `x`.
-/

namespace Interruptible

inductive Outcome (ε σ α : Type) where
  | ok (value : α) (state : σ)
  | err (error : ε) (state : σ)
  | dropped (state : σ)

namespace Outcome

variable {ε σ α β : Type}

def state : Outcome ε σ α → σ
  | .ok _ s | .err _ s | .dropped s => s

def Returned : Outcome ε σ α → Prop
  | .dropped _ => False
  | _ => True

/-- What the caller is given, unless it has dropped the computation. -/
def result : Outcome ε σ α → Option (Except ε α)
  | .ok a _ => some (.ok a)
  | .err e _ => some (.error e)
  | .dropped _ => none

def bind (o : Outcome ε σ α) (f : α → σ → Outcome ε σ β) : Outcome ε σ β :=
  match o with
  | .ok a s => f a s
  | .err e s => .err e s
  | .dropped s => .dropped s

def mapState (f : σ → σ) : Outcome ε σ α → Outcome ε σ α
  | .ok a s => .ok a (f s)
  | .err e s => .err e (f s)
  | .dropped s => .dropped (f s)

@[simp] theorem state_ok (a : α) (s : σ) : (.ok a s : Outcome ε σ α).state = s := rfl
@[simp] theorem state_err (e : ε) (s : σ) : (.err e s : Outcome ε σ α).state = s := rfl
@[simp] theorem state_dropped (s : σ) : (.dropped s : Outcome ε σ α).state = s := rfl

@[simp] theorem bind_ok (a : α) (s : σ) (f : α → σ → Outcome ε σ β) :
    (Outcome.ok a s).bind f = f a s := rfl
@[simp] theorem bind_err (e : ε) (s : σ) (f : α → σ → Outcome ε σ β) :
    (Outcome.err e s).bind f = .err e s := rfl
@[simp] theorem bind_dropped (s : σ) (f : α → σ → Outcome ε σ β) :
    (Outcome.dropped s).bind f = .dropped s := rfl

end Outcome

def Comp (ε σ α : Type) : Type := σ → Outcome ε σ α

namespace Comp

variable {ε σ α β : Type}

instance : Monad (Comp ε σ) where
  pure a := fun s => .ok a s
  bind x f := fun s => (x s).bind f

theorem pure_apply (a : α) (s : σ) : (pure a : Comp ε σ α) s = .ok a s := rfl

theorem bind_apply (x : Comp ε σ α) (f : α → Comp ε σ β) (s : σ) :
    (x >>= f) s = (x s).bind f := rfl

instance : LawfulMonad (Comp ε σ) := by
  refine LawfulMonad.mk' _ ?_ ?_ ?_
  · intro α x
    funext s
    change (x s).bind (fun a t => .ok a t) = x s
    cases x s <;> rfl
  · intro α β a f
    rfl
  · intro α β γ x f g
    funext s
    change ((x s).bind f).bind g = (x s).bind (fun a t => ((f a) t).bind g)
    cases x s <;> rfl

def fail (e : ε) : Comp ε σ α := fun s => .err e s

def drop : Comp ε σ α := fun s => .dropped s

def get : Comp ε σ σ := fun s => .ok s s

def modify (f : σ → σ) : Comp ε σ Unit := fun s => .ok () (f s)

def ofExcept : Except ε α → Comp ε σ α
  | .ok a => pure a
  | .error e => fail e

/-- Run `f` on the state when `x` fails, and pass the error on. A drop runs
nothing. -/
def inspectErr (x : Comp ε σ α) (f : σ → σ) : Comp ε σ α := fun s =>
  match x s with
  | .err e s' => .err e (f s')
  | o => o

/-- Make the errors of `x` values of the caller. A drop is not an error. -/
def attempt (x : Comp ε σ α) : Comp ε σ (Except ε α) := fun s =>
  match x s with
  | .ok a s' => .ok (.ok a) s'
  | .err e s' => .ok (.error e) s'
  | .dropped s' => .dropped s'

def onSnd {ρ : Type} (x : Comp ε σ α) : Comp ε (ρ × σ) α := fun s =>
  match x s.2 with
  | .ok a s' => .ok a (s.1, s')
  | .err e s' => .err e (s.1, s')
  | .dropped s' => .dropped (s.1, s')

/-- Run a computation on a pair, from a first component that is let go at its end. -/
def withFst {ρ : Type} (a : ρ) (x : Comp ε (ρ × σ) α) : Comp ε σ α := fun s =>
  match x (a, s) with
  | .ok r s' => .ok r s'.2
  | .err e s' => .err e s'.2
  | .dropped s' => .dropped s'.2

theorem state_withFst {ρ : Type} (a : ρ) (x : Comp ε (ρ × σ) α) (s : σ) :
    (x.withFst a s).state = (x (a, s)).state.2 := by
  rw [withFst]
  cases x (a, s) <;> rfl

theorem bind_of_ok {x : Comp ε σ α} {f : α → Comp ε σ β} {s s' : σ} {a : α}
    (h : x s = .ok a s') : (x >>= f) s = f a s' := by
  rw [bind_apply, h]
  rfl

theorem bind_of_err {x : Comp ε σ α} {f : α → Comp ε σ β} {s s' : σ} {e : ε}
    (h : x s = .err e s') : (x >>= f) s = .err e s' := by
  rw [bind_apply, h]
  rfl

theorem bind_of_dropped {x : Comp ε σ α} {f : α → Comp ε σ β} {s s' : σ}
    (h : x s = .dropped s') : (x >>= f) s = .dropped s' := by
  rw [bind_apply, h]
  rfl

theorem bind_eq_ok_iff {x : Comp ε σ α} {f : α → Comp ε σ β} {s s' : σ} {b : β} :
    (x >>= f) s = .ok b s' ↔ ∃ a s₁, x s = .ok a s₁ ∧ f a s₁ = .ok b s' := by
  constructor
  · intro h
    cases hx : x s with
    | ok a s₁ => exact ⟨a, s₁, rfl, (bind_of_ok hx).symm.trans h⟩
    | err e s₁ => cases (bind_of_err hx).symm.trans h
    | dropped s₁ => cases (bind_of_dropped hx).symm.trans h
  · rintro ⟨a, s₁, hx, hf⟩
    rw [bind_of_ok hx, hf]

/-- An error of a sequence is one of its parts. -/
theorem inspectErr_bind (x : Comp ε σ α) (f : α → Comp ε σ β) (g : σ → σ) :
    (x >>= f).inspectErr g = x.inspectErr g >>= fun a => (f a).inspectErr g := by
  funext s
  simp only [inspectErr, bind_apply]
  cases x s with
  | ok a s' => rfl
  | err e s' => rfl
  | dropped s' => rfl

theorem inspectErr_of_ok {x : Comp ε σ α} {g : σ → σ} {s s' : σ} {a : α}
    (h : x s = .ok a s') : x.inspectErr g s = .ok a s' := by
  rw [inspectErr, h]

theorem inspectErr_of_err {x : Comp ε σ α} {g : σ → σ} {s s' : σ} {e : ε}
    (h : x s = .err e s') : x.inspectErr g s = .err e (g s') := by
  rw [inspectErr, h]

theorem inspectErr_of_dropped {x : Comp ε σ α} {g : σ → σ} {s s' : σ}
    (h : x s = .dropped s') : x.inspectErr g s = .dropped s' := by
  rw [inspectErr, h]

theorem fail_apply (e : ε) (s : σ) : (fail e : Comp ε σ α) s = .err e s := rfl
theorem drop_apply (s : σ) : (drop : Comp ε σ α) s = .dropped s := rfl
theorem get_apply (s : σ) : (get : Comp ε σ σ) s = .ok s s := rfl
theorem modify_apply (f : σ → σ) (s : σ) : (modify f : Comp ε σ Unit) s = .ok () (f s) := rfl

end Comp

/-! ### Weakest preconditions -/

/-- A postcondition: what holds of the value and the state after a return, of
the error and the state after a failure, and of the state after a drop. -/
structure Post (ε σ α : Type) where
  ok : α → σ → Prop
  err : ε → σ → Prop
  dropped : σ → Prop

def Post.Holds {ε σ α : Type} (Q : Post ε σ α) : Outcome ε σ α → Prop
  | .ok a s => Q.ok a s
  | .err e s => Q.err e s
  | .dropped s => Q.dropped s

section WeakestPrecondition

variable {ε σ ρ α β : Type} {Q : Post ε σ α}

def wp (x : Comp ε σ α) (Q : Post ε σ α) (s : σ) : Prop := Q.Holds (x s)

@[simp] theorem wp_pure (a : α) (s : σ) : wp (pure a) Q s ↔ Q.ok a s := Iff.rfl

@[simp] theorem wp_fail (e : ε) (s : σ) : wp (Comp.fail e) Q s ↔ Q.err e s := Iff.rfl

@[simp] theorem wp_drop (s : σ) : wp Comp.drop Q s ↔ Q.dropped s := Iff.rfl

@[simp] theorem wp_get {Q : Post ε σ σ} (s : σ) : wp Comp.get Q s ↔ Q.ok s s := Iff.rfl

@[simp] theorem wp_modify {Q : Post ε σ Unit} (f : σ → σ) (s : σ) :
    wp (Comp.modify f) Q s ↔ Q.ok () (f s) := Iff.rfl

@[simp] theorem wp_bind {Q : Post ε σ β} (x : Comp ε σ α) (f : α → Comp ε σ β) (s : σ) :
    wp (x >>= f) Q s ↔ wp x ⟨fun a => wp (f a) Q, Q.err, Q.dropped⟩ s := by
  change Q.Holds ((x s).bind f) ↔ _
  unfold wp
  cases x s <;> rfl

@[simp] theorem wp_map {Q : Post ε σ β} (f : α → β) (x : Comp ε σ α) (s : σ) :
    wp (f <$> x) Q s ↔ wp x ⟨fun a => Q.ok (f a), Q.err, Q.dropped⟩ s := by
  rw [← bind_pure_comp, wp_bind]
  rfl

@[simp] theorem wp_inspectErr (x : Comp ε σ α) (f : σ → σ) (s : σ) :
    wp (x.inspectErr f) Q s ↔ wp x ⟨Q.ok, fun e s' => Q.err e (f s'), Q.dropped⟩ s := by
  unfold wp Comp.inspectErr
  cases x s <;> rfl

@[simp] theorem wp_attempt {Q : Post ε σ (Except ε α)} (x : Comp ε σ α) (s : σ) :
    wp x.attempt Q s ↔
      wp x ⟨fun a => Q.ok (.ok a), fun e => Q.ok (.error e), Q.dropped⟩ s := by
  unfold wp Comp.attempt
  cases x s <;> rfl

@[simp] theorem wp_onSnd {Q : Post ε (ρ × σ) α} (x : Comp ε σ α) (s : ρ × σ) :
    wp x.onSnd Q s ↔
      wp x ⟨fun a s' => Q.ok a (s.1, s'), fun e s' => Q.err e (s.1, s'),
        fun s' => Q.dropped (s.1, s')⟩ s.2 := by
  unfold wp Comp.onSnd
  cases x s.2 <;> rfl

@[simp] theorem wp_withFst (a : ρ) (x : Comp ε (ρ × σ) α) (s : σ) :
    wp (x.withFst a) Q s ↔
      wp x ⟨fun r s' => Q.ok r s'.2, fun e s' => Q.err e s'.2, fun s' => Q.dropped s'.2⟩ (a, s) := by
  unfold wp Comp.withFst
  cases x (a, s) <;> rfl

theorem wp_ofExcept (r : Except ε α) (s : σ) :
    wp (Comp.ofExcept r) Q s ↔
      (∀ a, r = .ok a → Q.ok a s) ∧ (∀ e, r = .error e → Q.err e s) := by
  cases r <;> simp [Comp.ofExcept]

/-- **Consequence.** -/
theorem wp_mono {x : Comp ε σ α} {Q R : Post ε σ α} {s : σ} (h : wp x Q s)
    (hok : ∀ a s', Q.ok a s' → R.ok a s') (herr : ∀ e s', Q.err e s' → R.err e s')
    (hdrop : ∀ s', Q.dropped s' → R.dropped s') : wp x R s := by
  unfold wp at h ⊢
  cases hx : x s with
  | ok a s' => rw [hx] at h; exact hok a s' h
  | err e s' => rw [hx] at h; exact herr e s' h
  | dropped s' => rw [hx] at h; exact hdrop s' h

/-- **Sequencing.** The first computation is known by its postcondition only. -/
theorem wp_seq {x : Comp ε σ α} {f : α → Comp ε σ β} {Q : Post ε σ α} {R : Post ε σ β} {s : σ}
    (h : wp x Q s) (hok : ∀ a s', Q.ok a s' → wp (f a) R s')
    (herr : ∀ e s', Q.err e s' → R.err e s') (hdrop : ∀ s', Q.dropped s' → R.dropped s') :
    wp (x >>= f) R s :=
  (wp_bind x f s).mpr (wp_mono h hok herr hdrop)

/-- The same where the end of the first computation is known. -/
theorem wp_bind_of_ok {x : Comp ε σ α} {f : α → Comp ε σ β} {R : Post ε σ β} {s s' : σ} {a : α}
    (h : x s = .ok a s') : wp (x >>= f) R s ↔ wp (f a) R s' := by
  unfold wp
  rw [Comp.bind_of_ok h]

/-- Computations that run alike satisfy the same conditions. -/
theorem wp_congr {x y : Comp ε σ α} {s : σ} (h : x s = y s) (hy : wp y Q s) : wp x Q s := by
  unfold wp at hy ⊢
  rwa [h]

/-- Two facts about the same run hold together. -/
theorem wp_and {x : Comp ε σ α} {Q R : Post ε σ α} {s : σ} (h : wp x Q s) (h' : wp x R s) :
    wp x ⟨fun a s' => Q.ok a s' ∧ R.ok a s', fun e s' => Q.err e s' ∧ R.err e s',
      fun s' => Q.dropped s' ∧ R.dropped s'⟩ s := by
  unfold wp at *
  cases hx : x s with
  | ok a s' => rw [hx] at h h'; exact ⟨h, h'⟩
  | err e s' => rw [hx] at h h'; exact ⟨h, h'⟩
  | dropped s' => rw [hx] at h h'; exact ⟨h, h'⟩

/-- What a run does is a fact about it. -/
theorem wp_run (x : Comp ε σ α) (s : σ) :
    wp x ⟨fun a s' => x s = .ok a s', fun e s' => x s = .err e s', fun s' => x s = .dropped s'⟩
      s := by
  unfold wp
  cases x s <;> rfl

def gives (a : α) (P : σ → Prop) : Post ε σ α :=
  ⟨fun r s => r = a ∧ P s, fun _ _ => False, fun _ => False⟩

/-- Sequencing, where the first computation gives a known value. -/
theorem wp_gives_seq {x : Comp ε σ α} {f : α → Comp ε σ β} {a : α} {P : σ → Prop}
    {R : Post ε σ β} {s : σ} (h : wp x (gives a P) s) (hrest : ∀ s', P s' → wp (f a) R s') :
    wp (x >>= f) R s := by
  refine wp_seq h ?_ (fun _ _ h => h.elim) (fun _ h => h.elim)
  rintro _ s' ⟨rfl, hP⟩
  exact hrest s' hP

def always (P : σ → Prop) : Post ε σ α := ⟨fun _ => P, fun _ => P, P⟩

theorem wp_always_iff {x : Comp ε σ α} {P : σ → Prop} {s : σ} :
    wp x (always P) s ↔ P (x s).state := by
  unfold wp
  cases x s <;> rfl

theorem wp_trivial (x : Comp ε σ α) (s : σ) : wp x (always fun _ => True) s :=
  wp_always_iff.mpr trivial

/-- A computation that can end in one way only does. -/
theorem exists_ok_of_wp {x : Comp ε σ α} {P : α → σ → Prop} {s : σ}
    (h : wp x ⟨P, fun _ _ => False, fun _ => False⟩ s) : ∃ a s', x s = .ok a s' ∧ P a s' := by
  unfold wp at h
  cases hx : x s with
  | ok a s' => rw [hx] at h; exact ⟨a, s', rfl, h⟩
  | err e s' => rw [hx] at h; exact h.elim
  | dropped s' => rw [hx] at h; exact h.elim

theorem exists_err_of_wp {x : Comp ε σ α} {P : ε → σ → Prop} {s : σ}
    (h : wp x ⟨fun _ _ => False, P, fun _ => False⟩ s) : ∃ e s', x s = .err e s' ∧ P e s' := by
  unfold wp at h
  cases hx : x s with
  | ok a s' => rw [hx] at h; exact h.elim
  | err e s' => rw [hx] at h; exact ⟨e, s', rfl, h⟩
  | dropped s' => rw [hx] at h; exact h.elim

theorem wp_ok {x : Comp ε σ α} {s s' : σ} {a : α} (h : wp x Q s) (hx : x s = .ok a s') :
    Q.ok a s' := by
  unfold wp at h
  rwa [hx] at h

theorem wp_err {x : Comp ε σ α} {s s' : σ} {e : ε} (h : wp x Q s) (hx : x s = .err e s') :
    Q.err e s' := by
  unfold wp at h
  rwa [hx] at h

theorem wp_dropped {x : Comp ε σ α} {s s' : σ} (h : wp x Q s) (hx : x s = .dropped s') :
    Q.dropped s' := by
  unfold wp at h
  rwa [hx] at h

end WeakestPrecondition

/-! ### Invariants

`x` preserves `P` if it leaves it in force however it ends; the rules follow the
structure of `x`. -/

def Preserves {ε σ α : Type} (P : σ → Prop) (x : Comp ε σ α) : Prop :=
  ∀ s, P s → wp x (always P) s

section Invariants

variable {ε σ ρ α β : Type} {P : σ → Prop}

theorem Preserves.state {x : Comp ε σ α} (h : Preserves P x) {s : σ} (hs : P s) :
    P (x s).state :=
  wp_always_iff.mp (h s hs)

theorem preserves_pure (a : α) : Preserves P (pure a : Comp ε σ α) := fun _ h => h

theorem preserves_fail (e : ε) : Preserves P (Comp.fail e : Comp ε σ α) := fun _ h => h

theorem preserves_drop : Preserves P (Comp.drop : Comp ε σ α) := fun _ h => h

theorem preserves_get : Preserves P (Comp.get : Comp ε σ σ) := fun _ h => h

theorem preserves_modify {f : σ → σ} (h : ∀ s, P s → P (f s)) :
    Preserves P (Comp.modify f : Comp ε σ Unit) := h

theorem preserves_ofExcept (r : Except ε α) : Preserves P (Comp.ofExcept r : Comp ε σ α) := by
  cases r with
  | ok a => exact preserves_pure a
  | error e => exact preserves_fail e

theorem preserves_bind {x : Comp ε σ α} {f : α → Comp ε σ β} (hx : Preserves P x)
    (hf : ∀ a, Preserves P (f a)) : Preserves P (x >>= f) :=
  fun s hs => wp_seq (hx s hs) (fun a s' h => hf a s' h) (fun _ _ h => h) (fun _ h => h)

theorem preserves_inspectErr {x : Comp ε σ α} {f : σ → σ} (hx : Preserves P x)
    (hf : ∀ s, P s → P (f s)) : Preserves P (x.inspectErr f) :=
  fun s hs => (wp_inspectErr x f s).mpr
    (wp_mono (hx s hs) (fun _ _ h => h) (fun _ s' h => hf s' h) (fun _ h => h))

theorem preserves_attempt {x : Comp ε σ α} (hx : Preserves P x) : Preserves P x.attempt :=
  fun s hs => (wp_attempt x s).mpr
    (wp_mono (hx s hs) (fun _ _ h => h) (fun _ _ h => h) (fun _ h => h))

theorem preserves_onSnd {x : Comp ε σ α} (hx : Preserves P x) :
    Preserves (fun s : ρ × σ => P s.2) x.onSnd :=
  fun s hs => (wp_onSnd x s).mpr
    (wp_mono (hx s.2 hs) (fun _ _ h => h) (fun _ _ h => h) (fun _ h => h))

/-- What `onSnd` leaves alone. -/
theorem preserves_onSnd_fst {R : ρ → Prop} (x : Comp ε σ α) :
    Preserves (fun s : ρ × σ => R s.1) x.onSnd :=
  fun s hs => (wp_onSnd x s).mpr
    (wp_mono (wp_trivial x s.2) (fun _ _ _ => hs) (fun _ _ _ => hs) (fun _ _ => hs))

end Invariants

/-! ### Computations without errors -/

def NeverFails {ε σ α : Type} (x : Comp ε σ α) : Prop :=
  ∀ s, wp x ⟨fun _ _ => True, fun _ _ => False, fun _ => True⟩ s

section NeverFails

variable {ε σ α β : Type}

theorem neverFails_pure (a : α) : NeverFails (pure a : Comp ε σ α) := fun _ => trivial

theorem neverFails_get : NeverFails (Comp.get : Comp ε σ σ) := fun _ => trivial

theorem neverFails_modify (f : σ → σ) : NeverFails (Comp.modify f : Comp ε σ Unit) :=
  fun _ => trivial

theorem neverFails_attempt (x : Comp ε σ α) : NeverFails x.attempt := fun s =>
  (wp_attempt x s).mpr
    (wp_mono (wp_trivial x s) (fun _ _ _ => trivial) (fun _ _ _ => trivial) (fun _ _ => trivial))

theorem neverFails_bind {x : Comp ε σ α} {f : α → Comp ε σ β} (hx : NeverFails x)
    (hf : ∀ a, NeverFails (f a)) : NeverFails (x >>= f) :=
  fun s => wp_seq (hx s) (fun a s' _ => hf a s') (fun _ _ h => h) (fun _ h => h)

end NeverFails

/-! ### The errors of a computation -/

def Raises {ε σ α : Type} (E : ε → Prop) (x : Comp ε σ α) : Prop :=
  ∀ s, wp x ⟨fun _ _ => True, fun e _ => E e, fun _ => True⟩ s

section Raises

variable {ε σ α β : Type} {E : ε → Prop}

theorem raises_pure (a : α) : Raises E (pure a : Comp ε σ α) := fun _ => trivial

theorem raises_fail {e : ε} (h : E e) : Raises E (Comp.fail e : Comp ε σ α) := fun _ => h

theorem raises_drop : Raises E (Comp.drop : Comp ε σ α) := fun _ => trivial

theorem raises_get : Raises E (Comp.get : Comp ε σ σ) := fun _ => trivial

theorem raises_modify (f : σ → σ) : Raises E (Comp.modify f : Comp ε σ Unit) := fun _ => trivial

theorem raises_ofExcept {r : Except ε α} (h : ∀ e, r = .error e → E e) :
    Raises E (Comp.ofExcept r : Comp ε σ α) := fun s =>
  (wp_ofExcept r s).mpr ⟨fun _ _ => trivial, h⟩

theorem raises_bind {x : Comp ε σ α} {f : α → Comp ε σ β} (hx : Raises E x)
    (hf : ∀ a, Raises E (f a)) : Raises E (x >>= f) :=
  fun s => wp_seq (hx s) (fun a s' _ => hf a s') (fun _ _ h => h) (fun _ h => h)

theorem raises_inspectErr {x : Comp ε σ α} (hx : Raises E x) (f : σ → σ) :
    Raises E (x.inspectErr f) :=
  fun s => (wp_inspectErr x f s).mpr (hx s)

end Raises

/-! ### Failures -/

def FailsIn {ε σ α : Type} (P : σ → Prop) (x : Comp ε σ α) (s : σ) : Prop :=
  ∃ e s', x s = .err e s' ∧ P s'

section Failures

variable {ε σ α β : Type} {P : σ → Prop} {s : σ}

@[simp] theorem failsIn_pure (a : α) : ¬ FailsIn P (pure a : Comp ε σ α) s := by
  rintro ⟨e, s', h, -⟩
  cases h

@[simp] theorem failsIn_modify (f : σ → σ) :
    ¬ FailsIn P (Comp.modify f : Comp ε σ Unit) s := by
  rintro ⟨e, s', h, -⟩
  cases h

@[simp] theorem failsIn_fail (e : ε) : FailsIn P (Comp.fail e : Comp ε σ α) s ↔ P s := by
  constructor
  · rintro ⟨_, _, h, hP⟩
    cases h
    exact hP
  · exact fun hP => ⟨e, s, rfl, hP⟩

/-- A sequence fails in its first part, or in its second after the first has returned. -/
theorem failsIn_bind {x : Comp ε σ α} {f : α → Comp ε σ β} :
    FailsIn P (x >>= f) s ↔ FailsIn P x s ∨ ∃ a s', x s = .ok a s' ∧ FailsIn P (f a) s' := by
  cases hx : x s with
  | ok a s' =>
      simp only [FailsIn, hx, Comp.bind_of_ok hx]
      constructor
      · exact fun h => .inr ⟨a, s', rfl, h⟩
      · rintro (⟨_, _, h, _⟩ | ⟨_, _, h, hf⟩)
        · cases h
        · cases h
          exact hf
  | err e s' => simp [FailsIn, hx, Comp.bind_of_err hx]
  | dropped s' => simp [FailsIn, hx, Comp.bind_of_dropped hx]

theorem NeverFails.not_failsIn {x : Comp ε σ α} (h : NeverFails x) : ¬ FailsIn P x s :=
  fun ⟨_, _, hx, _⟩ => wp_err (h s) hx

end Failures

/-! ### Obliviousness

`f i` overwrites a part of the state. A computation that does not read this part runs
the same whatever is there; what it leaves there may differ. -/

/-- `x` does not read what `f` overwrites. -/
def Oblivious {ε σ α ι : Type} (f : ι → σ → σ) (x : Comp ε σ α) : Prop :=
  ∀ s i, ∃ j, x (f i s) = (x s).mapState (f j)

section Obliviousness

variable {ε σ α β ι : Type} {f : ι → σ → σ}

theorem oblivious_pure (a : α) : Oblivious f (pure a : Comp ε σ α) := fun _ i => ⟨i, rfl⟩

theorem oblivious_fail (e : ε) : Oblivious f (Comp.fail e : Comp ε σ α) := fun _ i => ⟨i, rfl⟩

theorem oblivious_drop : Oblivious f (Comp.drop : Comp ε σ α) := fun _ i => ⟨i, rfl⟩

theorem oblivious_ofExcept (r : Except ε α) : Oblivious f (Comp.ofExcept r : Comp ε σ α) := by
  cases r with
  | ok a => exact oblivious_pure a
  | error e => exact oblivious_fail e

theorem oblivious_modify {g : σ → σ} (h : ∀ s i, ∃ j, g (f i s) = f j (g s)) :
    Oblivious f (Comp.modify g : Comp ε σ Unit) := by
  intro s i
  obtain ⟨j, hj⟩ := h s i
  exact ⟨j, congrArg (Outcome.ok ()) hj⟩

theorem oblivious_bind {x : Comp ε σ α} {g : α → Comp ε σ β} (hx : Oblivious f x)
    (hg : ∀ a, Oblivious f (g a)) : Oblivious f (x >>= g) := by
  intro s i
  obtain ⟨j, hj⟩ := hx s i
  rw [Comp.bind_apply, Comp.bind_apply, hj]
  cases x s with
  | ok a s' => exact hg a s' j
  | err e s' => exact ⟨j, rfl⟩
  | dropped s' => exact ⟨j, rfl⟩

/-- The state may be read where what is done with it does not depend on the part. -/
theorem oblivious_get_bind {g : σ → Comp ε σ β} (hsame : ∀ s i, g (f i s) = g s)
    (hg : ∀ s, Oblivious f (g s)) : Oblivious f (Comp.get >>= g) := by
  intro s i
  change ∃ j, g (f i s) (f i s) = (g s s).mapState (f j)
  rw [hsame s i]
  exact hg s s i

theorem oblivious_attempt {x : Comp ε σ α} (hx : Oblivious f x) : Oblivious f x.attempt := by
  intro s i
  obtain ⟨j, hj⟩ := hx s i
  rw [Comp.attempt, Comp.attempt, hj]
  cases x s with
  | ok a s' => exact ⟨j, rfl⟩
  | err e s' => exact ⟨j, rfl⟩
  | dropped s' => exact ⟨j, rfl⟩

theorem oblivious_inspectErr {x : Comp ε σ α} {g : σ → σ} (hx : Oblivious f x)
    (h : ∀ s i, ∃ j, g (f i s) = f j (g s)) : Oblivious f (x.inspectErr g) := by
  intro s i
  obtain ⟨j, hj⟩ := hx s i
  rw [Comp.inspectErr, Comp.inspectErr, hj]
  cases x s with
  | ok a s' => exact ⟨j, rfl⟩
  | err e s' =>
      obtain ⟨k, hk⟩ := h s' j
      exact ⟨k, congrArg (Outcome.err e) hk⟩
  | dropped s' => exact ⟨j, rfl⟩

theorem oblivious_onSnd {ρ : Type} {x : Comp ε σ α} (hx : Oblivious f x) :
    Oblivious (fun i (s : ρ × σ) => (s.1, f i s.2)) x.onSnd := by
  intro s i
  obtain ⟨j, hj⟩ := hx s.2 i
  refine ⟨j, ?_⟩
  rw [Comp.onSnd, Comp.onSnd, hj]
  cases x s.2 with
  | ok a s' => rfl
  | err e s' => rfl
  | dropped s' => rfl

/-- Where `x` keeps what `f i` has written, that is still there at its end. -/
theorem Oblivious.apply {x : Comp ε σ α} {P : ι → σ → Prop} (hx : Oblivious f x)
    (hkeeps : ∀ i, Preserves (P i) x) (hwrites : ∀ i s, P i (f i s))
    (hsame : ∀ i j s, P i (f j s) → i = j) (i : ι) (s : σ) :
    x (f i s) = (x s).mapState (f i) := by
  obtain ⟨j, hj⟩ := hx s i
  have hend : P i (x (f i s)).state := (hkeeps i).state (hwrites i s)
  rw [hj] at hend ⊢
  cases hrun : x s with
  | ok a s' | err a s' =>
      rw [hrun] at hend
      rw [hsame i j s' hend]
  | dropped s' =>
      rw [hrun] at hend
      rw [hsame i j s' hend]

end Obliviousness

end Interruptible
