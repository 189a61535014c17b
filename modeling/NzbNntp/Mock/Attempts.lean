import NzbNntp.Mock.Basic

/-!
The limit on attempts to log in, which all sessions of a server share. It counts every attempt,
also one that it turns away, and lets an attempt through as long as not too many fall within
the window that ends with it.
-/

namespace NzbNntp

open SlidingWindow

namespace AuthRateLimit

/-- The window of the limit: an attempt is stale when it is longer ago than that. -/
def recency (window : Nat) : Window Nat Nat where
  time := id
  stale now t := decide (window < now - t)
  fresh now := by simp
  later h hstale := by
    rw [decide_eq_true_eq] at hstale ⊢
    omega
  earlier h hstale := by
    rw [decide_eq_true_eq] at hstale ⊢
    omega

def attempts (limit : AuthRateLimit) (instants : List Nat) : AuthRateLimit :=
  instants.foldl (fun limit now => (limit.checkAndRecord now).2) limit

def letThrough (limit : AuthRateLimit) : List Nat → List Nat
  | [] => []
  | now :: later =>
      (if (limit.checkAndRecord now).1 then [] else [now]) ++
        letThrough (limit.checkAndRecord now).2 later

def recent (window now : Nat) (instants : List Nat) : List Nat :=
  instants.filter fun t => t ≤ now ∧ now ≤ t + window

section Attempts

variable {limit : AuthRateLimit} {instants : List Nat} {now : Nat}

theorem checkAndRecord_state (limit : AuthRateLimit) (now : Nat) :
    (limit.checkAndRecord now).2 =
      { limit with state := (recency limit.window).push limit.state now } := by
  rw [Window.push_eq]
  rfl

theorem attempts_eq (limit : AuthRateLimit) (instants : List Nat) :
    limit.attempts instants =
      { limit with state := instants.foldl (recency limit.window).push limit.state } := by
  induction instants generalizing limit with
  | nil => rfl
  | cons now instants ih =>
      rw [attempts, List.foldl_cons, checkAndRecord_state]
      exact ih { limit with state := _ }

theorem letThrough_append (instants later : List Nat) :
    limit.letThrough (instants ++ later) =
      limit.letThrough instants ++ (limit.attempts instants).letThrough later := by
  induction instants generalizing limit with
  | nil => rfl
  | cons now instants ih =>
      rw [List.cons_append, letThrough, letThrough, ih, List.append_assoc]
      rfl

theorem letThrough_sublist (instants : List Nat) :
    (limit.letThrough instants).Sublist instants := by
  induction instants generalizing limit with
  | nil => exact List.Sublist.slnil
  | cons now instants ih =>
      rw [letThrough]
      split
      · exact ih.cons now
      · exact ih.cons_cons now

/-- The queue holds the attempts of the window. -/
theorem attempts_state (hnew : limit.state = [])
    (horder : (instants ++ [now]).Pairwise (· ≤ ·)) :
    (limit.attempts (instants ++ [now])).state = recent limit.window now (instants ++ [now]) := by
  have hqueue : (instants ++ [now]).foldl (recency limit.window).push [] = _ :=
    Window.pushes_eq_current horder
  rw [attempts_eq, hnew]
  refine hqueue.trans ?_
  rw [Window.current, recent]
  apply List.filter_congr
  intro t ht
  have hbefore : t ≤ now := by
    rcases List.mem_append.mp ht with hmem | hmem
    · exact (List.pairwise_append.mp horder).2.2 t hmem now (by simp)
    · exact Nat.le_of_eq (List.mem_singleton.mp hmem)
  show (!decide (limit.window < now - t)) = decide (t ≤ now ∧ now ≤ t + limit.window)
  rw [← decide_not]
  apply decide_eq_decide.mpr
  omega

/-- An attempt is turned away if there are too many in the window that ends with it. -/
theorem limited_iff (hnew : limit.state = []) (horder : (instants ++ [now]).Pairwise (· ≤ ·))
    (hfew : (instants ++ [now]).length < 2 ^ 32) :
    ((limit.attempts instants).checkAndRecord now).1 = true ↔
      limit.maxAttempts.toNat < (recent limit.window now (instants ++ [now])).length := by
  have hstate := attempts_state hnew horder
  have hmax : (limit.attempts instants).maxAttempts = limit.maxAttempts := by rw [attempts_eq]
  have hnext : ((limit.attempts instants).checkAndRecord now).2 =
      limit.attempts (instants ++ [now]) := by
    rw [attempts, attempts, List.foldl_append, List.foldl_cons, List.foldl_nil]
  have hcount : (recent limit.window now (instants ++ [now])).length < 2 ^ 32 :=
    Nat.lt_of_le_of_lt (List.length_filter_le _ _) hfew
  have hverdict : ((limit.attempts instants).checkAndRecord now).1 =
      decide ((limit.attempts instants).maxAttempts <
        UInt32.ofNat ((limit.attempts instants).checkAndRecord now).2.state.length) := rfl
  rw [hverdict, hnext, hstate, hmax, decide_eq_true_eq, UInt32.lt_iff_toNat_lt,
    UInt32.toNat_ofNat_of_lt' hcount]

theorem recent_append (window now : Nat) (instants later : List Nat) :
    recent window now (instants ++ later) = recent window now instants ++ recent window now later :=
  List.filter_append ..

/-- What falls in the window of a later moment falls in that of the last attempt. -/
theorem recent_le (window : Nat) {last : Nat} (hlast : last ≤ now)
    (hbefore : ∀ t ∈ instants, t ≤ last) :
    (recent window now instants).length ≤ (recent window last instants).length := by
  rw [recent, recent, ← List.countP_eq_length_filter, ← List.countP_eq_length_filter]
  apply List.countP_mono_left
  intro t ht hrecent
  have horder := hbefore t ht
  rw [decide_eq_true_eq] at hrecent ⊢
  omega

/-- **The limit on attempts.** Over any attempts in order of time, by whatever sessions, one is
turned away if and only if more than the allowed number, itself and those turned away counted,
fall in the window that ends with it. So no window, whenever it ends, has more than the allowed
number of passwords that are looked at. -/
theorem attempts_limited (limit : AuthRateLimit) (hnew : limit.state = []) (instants : List Nat)
    (horder : instants.Pairwise (· ≤ ·)) (hfew : instants.length < 2 ^ 32) :
    (∀ before now later, instants = before ++ [now] ++ later →
      (((limit.attempts before).checkAndRecord now).1 = true ↔
        limit.maxAttempts.toNat < (recent limit.window now (before ++ [now])).length)) ∧
      ∀ now, (recent limit.window now (limit.letThrough instants)).length ≤
        limit.maxAttempts.toNat := by
  constructor
  · rintro before now later rfl
    have hfew' : (before ++ [now]).length < 2 ^ 32 := by
      rw [List.length_append] at hfew
      exact Nat.lt_of_le_of_lt (Nat.le_add_right _ _) hfew
    exact limited_iff hnew (List.pairwise_append.mp horder).1 hfew'
  · intro now
    induction instants using List.reverseRecOn with
    | nil => exact Nat.zero_le _
    | append_singleton instants last ih =>
        have hrest := ih (List.pairwise_append.mp horder).1 (by
          rw [List.length_append] at hfew
          omega)
        have hverdict := limited_iff hnew horder hfew
        rw [letThrough_append, recent_append, List.length_append]
        by_cases hlimited : ((limit.attempts instants).checkAndRecord last).1 = true
        · rw [letThrough, if_pos hlimited]
          exact hrest
        rw [letThrough, if_neg hlimited]
        by_cases hwindow : last ≤ now ∧ now ≤ last + limit.window
        -- The attempts let through before this one are among those that its verdict has counted.
        · have hbefore : ∀ t ∈ instants, t ≤ last := fun t ht =>
            (List.pairwise_append.mp horder).2.2 t ht last (by simp)
          have hthrough : (recent limit.window now (limit.letThrough instants)).length ≤
              (recent limit.window now instants).length :=
            ((letThrough_sublist instants).filter _).length_le
          have hall := recent_le limit.window hwindow.1 hbefore
          rw [hverdict, recent_append, List.length_append] at hlimited
          have hself : (recent limit.window last [last]).length = 1 := by simp [recent]
          have hone : (recent limit.window now [last]).length ≤ 1 :=
            (List.length_filter_le _ _).trans (by simp)
          change _ + (recent limit.window now [last]).length ≤ _
          omega
        · have hnone : recent limit.window now [last] = [] := by simp [recent, hwindow]
          change _ + (recent limit.window now [last]).length ≤ _
          rw [hnone]
          exact hrest

end Attempts

/-- Three attempts a second apart, of which a limit of two in five seconds lets two through. -/
theorem attempts_limited_of_three :
    let limit : AuthRateLimit := { maxAttempts := 2, window := 5 }
    ((limit.attempts [1, 2]).checkAndRecord 3).1 = true ∧
      (recent 5 6 (limit.letThrough [1, 2, 3])).length ≤ 2 := by
  intro limit
  have h := attempts_limited limit rfl [1, 2, 3] (by simp) (by simp)
  exact ⟨(h.1 [1, 2] 3 [] rfl).mpr (by decide), h.2 6⟩

end AuthRateLimit

end NzbNntp
