import Mathlib.Data.List.Induction
import Mathlib.Order.Basic

/-!
Windows over a history. Entries come in at one end of a queue, and those that have become
stale leave it at the other, as long as the entry in front is stale. Where the entries come
in order of time, the queue is always the part of the history that is not stale.
-/

namespace SlidingWindow

/-- When entries are made, and which moments are stale at which. What is stale stays so, and
so is everything before it. -/
structure Window (α τ : Type*) [LE τ] where
  time : α → τ
  stale : τ → τ → Bool
  fresh : ∀ now, stale now now = false
  later : ∀ {now now' t : τ}, now ≤ now' → stale now t = true → stale now' t = true
  earlier : ∀ {now t t' : τ}, t' ≤ t → stale now t = true → stale now t' = true

namespace Window

variable {α τ : Type*} [Preorder τ] (W : Window α τ)

/-- The queue without the stale entries in front. -/
def expire (now : τ) (kept : List α) : List α := kept.dropWhile fun a => W.stale now (W.time a)

def push (kept : List α) (a : α) : List α := W.expire (W.time a) (kept ++ [a])

/-- The entries of the history that are not stale. -/
def current (now : τ) (history : List α) : List α :=
  history.filter fun a => !W.stale now (W.time a)

def InOrder (history : List α) : Prop := history.Pairwise fun a b => W.time a ≤ W.time b

variable {W} {kept history : List α} {a : α} {now : τ}

/-- It makes no difference whether the entry or the stale ones go first. -/
theorem push_eq : W.push kept a = W.expire (W.time a) kept ++ [a] := by
  induction kept with
  | nil => simp [push, expire, W.fresh]
  | cons b kept ih =>
      simp only [push, expire, List.cons_append, List.dropWhile_cons] at ih ⊢
      split
      · exact ih
      · rfl

theorem expire_eq_current (h : W.InOrder kept) : W.expire now kept = W.current now kept := by
  induction kept with
  | nil => rfl
  | cons a kept ih =>
      obtain ⟨hfirst, hrest⟩ := List.pairwise_cons.mp h
      rw [expire, List.dropWhile_cons, current, List.filter_cons]
      cases hstale : W.stale now (W.time a) with
      | true => exact ih hrest
      | false =>
          have hall : kept.filter (fun b => !W.stale now (W.time b)) = kept := by
            apply List.filter_eq_self.mpr
            intro b hb
            rw [Bool.not_eq_true']
            apply Bool.eq_false_iff.mpr
            intro hb'
            rw [W.earlier (hfirst b hb) hb'] at hstale
            cases hstale
          rw [hall]
          rfl

/-- What has left the queue would have to leave it later too. -/
theorem current_current {before : τ} (h : before ≤ now) :
    W.current now (W.current before history) = W.current now history := by
  rw [current, current, List.filter_filter]
  apply List.filter_congr
  intro a _
  cases hbefore : W.stale before (W.time a) with
  | false => simp
  | true => simp [W.later h hbefore]

theorem current_concat : W.current (W.time a) (history ++ [a]) =
    W.current (W.time a) history ++ [a] := by
  simp [current, W.fresh]

/-- **The queue is the window.** After a history of entries in order of time the queue holds
those that are not stale at the time of the last one. -/
theorem pushes_eq_current (h : W.InOrder (history ++ [a])) :
    (history ++ [a]).foldl W.push [] = W.current (W.time a) (history ++ [a]) := by
  induction history using List.reverseRecOn generalizing a with
  | nil => simp [push, expire, current, W.fresh]
  | append_singleton history b ih =>
      have hbefore : W.InOrder (history ++ [b]) := (List.pairwise_append.mp h).1
      have hlast : W.time b ≤ W.time a := (List.pairwise_append.mp h).2.2 b (by simp) a (by simp)
      have hkept : W.InOrder (W.current (W.time b) (history ++ [b])) :=
        hbefore.sublist List.filter_sublist
      rw [List.foldl_append, ih hbefore, List.foldl_cons, List.foldl_nil, push_eq,
        expire_eq_current hkept, current_current hlast, current_concat]

end Window

end SlidingWindow
