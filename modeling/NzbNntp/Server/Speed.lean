import NzbNntp.Library.SlidingWindow
import Mathlib.Algebra.BigOperators.Group.List.Basic
import Mathlib.Algebra.GroupWithZero.Nat
import Mathlib.Algebra.Order.Group.Nat
import Mathlib.Data.List.Induction

/-!
The speed of a server, measured over the downloads of the last ten seconds. Instants and
durations are in nanoseconds here. `Float` is the `f64` of the source, and the sum of the
bytes wraps as it does without overflow checks.
-/

namespace NzbNntp

open SlidingWindow

structure SpeedSample where
  bytes : UInt64
  timestamp : Nat
  deriving DecidableEq

structure SpeedTracker where
  samples : List SpeedSample
  window : Nat
  deriving DecidableEq

def asSecsF64 (duration : Nat) : Float :=
  (duration / 1000000000).toUInt64.toFloat +
    (duration % 1000000000).toUInt32.toFloat / 1000000000.0

namespace SpeedTracker

/-- `new`: the window is ten seconds. The capacity the source asks for is no bound. -/
def new : SpeedTracker := { samples := [], window := 10 * 1000000000 }

def record (tracker : SpeedTracker) (bytes : UInt64) (now : Nat) : SpeedTracker :=
  let samples := tracker.samples ++ [{ bytes, timestamp := now }]
  let cutoff := now - tracker.window
  { tracker with samples := samples.dropWhile fun s => s.timestamp < cutoff }

/-- `iter().map(|s| s.bytes).sum()` -/
def totalBytes (samples : List SpeedSample) : UInt64 :=
  samples.foldl (fun total s => total + s.bytes) 0

def bytesPerSecond (tracker : SpeedTracker) : Float :=
  if tracker.samples.length < 2 then 0.0
  else
    match tracker.samples.head?, tracker.samples.getLast? with
    | some first, some last =>
        let elapsed := asSecsF64 (last.timestamp - first.timestamp)
        if elapsed < 0.001 then 0.0
        else (totalBytes tracker.samples).toFloat / elapsed
    | _, _ => 0.0

def recordAll (tracker : SpeedTracker) (history : List SpeedSample) : SpeedTracker :=
  history.foldl (fun tracker s => tracker.record s.bytes s.timestamp) tracker

def recency (window : Nat) : Window SpeedSample Nat where
  time := SpeedSample.timestamp
  stale now t := t < now - window
  fresh now := by simp
  later h hstale := by
    simp only [decide_eq_true_eq] at hstale ⊢
    omega
  earlier h hstale := by
    simp only [decide_eq_true_eq] at hstale ⊢
    omega

/-- The samples that are older than `now` by no more than the window. -/
def recent (window now : Nat) (history : List SpeedSample) : List SpeedSample :=
  history.filter fun s => now - window ≤ s.timestamp

section History

variable {history : List SpeedSample} {first last : SpeedSample} {window now : Nat}

theorem recordAll_concat (tracker : SpeedTracker) : tracker.recordAll (history ++ [last]) =
    (tracker.recordAll history).record last.bytes last.timestamp := by
  rw [recordAll, List.foldl_append]
  rfl

theorem recordAll_window (tracker : SpeedTracker) :
    (tracker.recordAll history).window = tracker.window := by
  induction history using List.reverseRecOn with
  | nil => rfl
  | append_singleton history last ih =>
      rw [recordAll_concat]
      exact ih

/-- The tracker's queue goes through the history as the window does. -/
theorem recordAll_samples : (recordAll { samples := [], window } history).samples =
    history.foldl (recency window).push [] := by
  induction history using List.reverseRecOn with
  | nil => rfl
  | append_singleton history last ih =>
      rw [recordAll_concat, List.foldl_append, ← ih]
      simp only [record, recordAll_window, List.foldl_cons, List.foldl_nil, Window.push,
        Window.expire, recency]

theorem samples_eq_recent (h : (recency window).InOrder (history ++ [last])) :
    (recordAll { samples := [], window } (history ++ [last])).samples =
      recent window last.timestamp (history ++ [last]) := by
  rw [recordAll_samples, Window.pushes_eq_current h, Window.current, recent]
  apply List.filter_congr
  intro s _
  simp only [recency, ← decide_not, not_lt]

theorem recent_concat : recent window last.timestamp (history ++ [last]) =
    recent window last.timestamp history ++ [last] := by
  simp [recent]

/-- A single sample spans no time, so it is no special case. -/
theorem bytesPerSecond_eq {samples : List SpeedSample} (h : samples.head? = some first)
    (hlast : samples.getLast? = some last) (window : Nat) :
    bytesPerSecond { samples, window } =
      if asSecsF64 (last.timestamp - first.timestamp) < 0.001 then 0.0
      else (totalBytes samples).toFloat / asSecsF64 (last.timestamp - first.timestamp) := by
  rw [bytesPerSecond]
  dsimp only
  by_cases hshort : samples.length < 2
  · have hsame : samples = [first] := by
      obtain ⟨rest, rfl⟩ := List.head?_eq_some_iff.mp h
      rw [List.length_cons] at hshort
      rw [List.eq_nil_of_length_eq_zero (show rest.length = 0 by omega)]
    obtain rfl : first = last := by simpa [hsame] using hlast
    have hnone : asSecsF64 0 < 0.001 := by decide
    rw [if_pos hshort, Nat.sub_self, if_pos hnone]
  · rw [if_neg hshort]
    simp only [h, hlast]

theorem toNat_foldl_bytes (samples : List SpeedSample) (total : UInt64)
    (h : total.toNat + (samples.map (·.bytes.toNat)).sum < 2 ^ 64) :
    (samples.foldl (fun total s => total + s.bytes) total).toNat =
      total.toNat + (samples.map (·.bytes.toNat)).sum := by
  induction samples generalizing total with
  | nil => simp
  | cons s samples ih =>
      rw [List.map_cons, List.sum_cons, ← Nat.add_assoc] at h ⊢
      have hnext : (total + s.bytes).toNat = total.toNat + s.bytes.toNat := by
        rw [UInt64.toNat_add]
        exact Nat.mod_eq_of_lt (by omega)
      rw [List.foldl_cons, ih _ (by rwa [hnext]), hnext]

/-- A sum that fits into 64 bits is the sum. -/
theorem toNat_totalBytes {samples : List SpeedSample}
    (h : (samples.map (·.bytes.toNat)).sum < 2 ^ 64) :
    (totalBytes samples).toNat = (samples.map (·.bytes.toNat)).sum := by
  rw [totalBytes, toNat_foldl_bytes samples 0 (by simpa using h), UInt64.toNat_zero, Nat.zero_add]

/-- A sample at the front of the window, with the time from it to the last one. -/
theorem exists_first (window : Nat) (h : (recency window).InOrder (history ++ [last])) :
    ∃ first span, (recent window last.timestamp (history ++ [last])).head? = some first ∧
      last.timestamp = first.timestamp + span ∧ span ≤ window := by
  obtain ⟨first, hfirst⟩ : ∃ first,
      (recent window last.timestamp (history ++ [last])).head? = some first := by
    rw [recent_concat]
    cases recent window last.timestamp history with
    | nil => exact ⟨last, rfl⟩
    | cons s rest => exact ⟨s, rfl⟩
  have hmem := List.mem_of_head? hfirst
  rw [recent, List.mem_filter, decide_eq_true_eq] at hmem
  have hbefore : first.timestamp ≤ last.timestamp := by
    rcases List.mem_append.mp hmem.1 with hmem | hmem
    · exact (List.pairwise_append.mp h).2.2 first hmem last (by simp)
    · rw [List.mem_singleton.mp hmem]
  exact ⟨first, last.timestamp - first.timestamp, hfirst, by omega, by omega⟩

end History

/-- **The speed is that of the last ten seconds.** Whatever has been downloaded, the tracker
holds exactly the samples at most ten seconds older than the last one. The speed is the `f64`
quotient of the bytes they count and the seconds they span, which are at most ten, and it is
zero where these seconds are under `0.001`. The bytes are counted exactly while they are fewer
than `2 ^ 64`. -/
theorem speed_of_last_seconds (history : List SpeedSample) (last : SpeedSample)
    (h : (history ++ [last]).Pairwise fun a b => a.timestamp ≤ b.timestamp) :
    let tracker := new.recordAll (history ++ [last])
    let counted := recent new.window last.timestamp (history ++ [last])
    tracker.samples = counted ∧
      ∃ first span, counted.head? = some first ∧ last.timestamp = first.timestamp + span ∧
        span ≤ new.window ∧
        (tracker.bytesPerSecond = if asSecsF64 span < 0.001 then 0.0
          else (totalBytes counted).toFloat / asSecsF64 span) ∧
        ((counted.map (·.bytes.toNat)).sum < 2 ^ 64 →
          (totalBytes counted).toNat = (counted.map (·.bytes.toNat)).sum) := by
  dsimp only
  have hsamples : (new.recordAll (history ++ [last])).samples =
      recent new.window last.timestamp (history ++ [last]) := samples_eq_recent h
  obtain ⟨first, span, hfirst, hspan, hwidth⟩ := exists_first new.window h
  have hlast : (recent new.window last.timestamp (history ++ [last])).getLast? = some last := by
    rw [recent_concat, List.getLast?_concat]
  have hspeed := bytesPerSecond_eq hfirst hlast (new.recordAll (history ++ [last])).window
  rw [show last.timestamp - first.timestamp = span by omega] at hspeed
  rw [← hsamples] at hspeed ⊢
  exact ⟨rfl, first, span, by rw [hsamples, hfirst], hspan, hwidth, hspeed, toNat_totalBytes⟩

/-- Twelve seconds, in which the first of three samples goes out of the window. -/
theorem speed_of_last_seconds_after_twelve :
    let samples : List SpeedSample := [⟨5, 0⟩, ⟨600, 4 * 1000000000⟩]
    (new.recordAll (samples ++ [⟨1000, 12 * 1000000000⟩])).bytesPerSecond = 200.0 := by
  intro samples
  obtain ⟨-, first, span, hfirst, hspan, -, hspeed, -⟩ :=
    speed_of_last_seconds samples ⟨1000, 12 * 1000000000⟩ (by simp [samples])
  have hcounted : recent new.window (12 * 1000000000) (samples ++ [⟨1000, 12 * 1000000000⟩]) =
      [⟨600, 4 * 1000000000⟩, ⟨1000, 12 * 1000000000⟩] := by
    simp [recent, new, samples]
  rw [hcounted] at hfirst hspeed
  obtain rfl : ⟨600, 4 * 1000000000⟩ = first := by simpa using hfirst
  obtain rfl : span = 8 * 1000000000 := by
    dsimp only at hspan
    omega
  rw [hspeed]
  decide

end SpeedTracker

end NzbNntp
