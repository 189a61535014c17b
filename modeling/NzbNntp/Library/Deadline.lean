import Mathlib.Order.Lattice
import Mathlib.Data.List.Basic

/-!
Deadlines set one after the other in one place. Every entry of a list has a span, from
the moment at which it is made to its deadline; the place keeps the deadline of the entry
made last. It is faithful if it shows that a deadline is running whenever one is.
-/

namespace Deadline

structure Timing (α τ : Type*) [LE τ] where
  start : α → τ
  stop : α → τ
  ordered : ∀ a, start a ≤ stop a

namespace Timing

variable {α τ : Type*} [LinearOrder τ] (T : Timing α τ)

def InOrder (l : List α) : Prop := l.Pairwise fun a b => T.start a ≤ T.start b

/-- At the moment `t` the entries of `before` are made, and those of `after` are not. -/
structure Moment (l before after : List α) (t : τ) : Prop where
  split : l = before ++ after
  begun : ∀ a ∈ before, T.start a ≤ t
  ahead : ∀ a ∈ after, t ≤ T.start a

def Running (made : List α) (t : τ) : Prop := ∃ a ∈ made, t ≤ T.stop a

def Shown (made : List α) (t : τ) : Prop := ∃ a, made.getLast? = some a ∧ t ≤ T.stop a

def Faithful (l : List α) : Prop :=
  ∀ before after t, T.Moment l before after t → T.Running before t → T.Shown before t

/-- An entry ends no earlier than those before it, or is followed by another while it is
running. -/
def Relayed (l : List α) : Prop :=
  ∀ before last after, l = before ++ last :: after →
    (∀ a ∈ before, T.stop a ≤ T.stop last) ∨
      ∃ next, after.head? = some next ∧ T.start next ≤ T.stop last

variable {T} {l : List α}

theorem Relayed.faithful (h : T.Relayed l) : T.Faithful l := by
  intro before after t hmoment hrunning
  obtain ⟨a, ha, hta⟩ := hrunning
  obtain ⟨front, last, rfl⟩ :=
    (List.eq_nil_or_concat' before).resolve_left (List.ne_nil_of_mem ha)
  refine ⟨last, by simp, ?_⟩
  rcases List.mem_append.mp ha with ha | ha
  · have hsplit : l = front ++ last :: after := by simp [hmoment.split]
    rcases h front last after hsplit with hlonger | ⟨next, hnext, hbefore⟩
    · exact hta.trans (hlonger a ha)
    · exact (hmoment.ahead next (List.mem_of_head? hnext)).trans hbefore
  · obtain rfl := List.mem_singleton.mp ha
    exact hta

/-- A deadline that is cut short is seen to be: at its end, or when the next entry is
made, whichever comes first. -/
theorem Faithful.relayed (horder : T.InOrder l) (h : T.Faithful l) : T.Relayed l := by
  intro before last after hsplit
  by_contra hcut
  rw [not_or] at hcut
  obtain ⟨hshorter, hnext⟩ := hcut
  simp only [not_forall, not_exists, not_and, not_le, exists_prop] at hshorter hnext
  obtain ⟨a, ha, hlonger⟩ := hshorter
  rw [InOrder, hsplit, List.pairwise_append, List.pairwise_cons] at horder
  obtain ⟨-, ⟨hafter, hrest⟩, hbefore⟩ := horder
  have hmoment : ∀ t, T.stop last < t → t ≤ T.stop a → (∀ b ∈ after, t ≤ T.start b) → False := by
    intro t hlast ht hahead
    have hbegun : ∀ b ∈ before ++ [last], T.start b ≤ t := by
      intro b hb
      rcases List.mem_append.mp hb with hb | hb
      · exact (hbefore b hb last List.mem_cons_self).trans ((T.ordered last).trans hlast.le)
      · obtain rfl := List.mem_singleton.mp hb
        exact (T.ordered b).trans hlast.le
    obtain ⟨shown, hshown, hstop⟩ := h (before ++ [last]) after t
      ⟨by simp [hsplit], hbegun, hahead⟩ ⟨a, by simp [ha], ht⟩
    obtain rfl : last = shown := by simpa using hshown
    exact absurd hstop (not_le_of_gt hlast)
  cases after with
  | nil => exact hmoment _ hlonger le_rfl (by simp)
  | cons next rest =>
      have hgap : T.stop last < T.start next := hnext next rfl
      refine hmoment (min (T.stop a) (T.start next)) (lt_min hlonger hgap) (min_le_left _ _) ?_
      intro b hb
      rcases List.mem_cons.mp hb with rfl | hb
      · exact min_le_right _ _
      · exact (min_le_right _ _).trans ((List.pairwise_cons.mp hrest).1 b hb)

theorem faithful_iff (horder : T.InOrder l) : T.Faithful l ↔ T.Relayed l :=
  ⟨Faithful.relayed horder, Relayed.faithful⟩

/-- Entries with later and later deadlines. -/
theorem relayed_of_pairwise (h : l.Pairwise fun a b => T.stop a ≤ T.stop b) : T.Relayed l := by
  intro before last after hsplit
  rw [hsplit, List.pairwise_append] at h
  exact .inl fun a ha => h.2.2 a ha last List.mem_cons_self

end Timing

end Deadline
