import NzbNntp.Downloader.Penalty
import Mathlib.Algebra.Group.Prod

/-!
The statistics of a server after a call of `download` that runs alone: what the call has
fetched from the server and delivered of it is what its counters have grown by. The counters
are 64 bits wide and wrap.
-/

namespace NzbNntp

open RetryQueue

namespace Downloader

def fetchesFrom (index : Nat) (r : Round) : Bool :=
  r.output.attempt.any fun attempt =>
    attempt.pick.index = index && (r.input.acquire attempt.pick.pool).isOk

/-- What the server at `index` has given in this turn, as it is sent to the caller. -/
def deliveredFrom (index : Nat) (seen : Seen) : Option Bytes :=
  seen.attempt.bind fun attempt =>
    if attempt.pick.index = index then seen.sent.bind fun sent => sent.result.toOption else none

def failsFrom (index : Nat) (r : Round) : Bool :=
  fetchesFrom index r && (deliveredFrom index r.output).isNone

/-- What is delivered from the server at `index` in these turns, one after the other. -/
def delivered (index : Nat) (rounds : List Round) : List Bytes :=
  rounds.filterMap fun r => deliveredFrom index r.output

/-- The server, after so many fetches and failures and bytes since `server`. -/
structure Credited (server : ServerState) (fetches failures bytes : Nat) (after : ServerState) :
    Prop where
  tried : after.articlesTried = server.articlesTried + .ofNat fetches
  failed : after.articlesFailed = server.articlesFailed + .ofNat failures
  downloaded : after.bytesDownloaded = server.bytesDownloaded + .ofNat bytes
  active : after.connectionsActive = server.connectionsActive

def received (fetched : NntpResult NntpResponse) : Nat :=
  (fetched.toOption.map fun response => (response.data.getD []).length).getD 0

/-- What `record` does to the counters. -/
theorem record_counts (fetched : NntpResult NntpResponse) (now : Nat) (server : ServerState) :
    (record fetched now server).articlesTried = server.articlesTried + 1 ∧
      (record fetched now server).articlesFailed =
        server.articlesFailed + .ofNat (!fetched.isOk).toNat ∧
      (record fetched now server).bytesDownloaded =
        server.bytesDownloaded + .ofNat (received fetched) ∧
      (record fetched now server).connectionsActive = server.countReturned.connectionsActive := by
  cases fetched with
  | ok response => exact ⟨rfl, (UInt64.add_zero _).symm, rfl, rfl⟩
  | error e =>
      unfold record
      split
      · rename_i h
        cases h
      · exact ⟨rfl, rfl, (UInt64.add_zero _).symm, rfl⟩
      · dsimp only
        split
        · exact ⟨rfl, rfl, (UInt64.add_zero _).symm, rfl⟩
        · exact ⟨rfl, rfl, (UInt64.add_zero _).symm, rfl⟩

namespace Credited

variable {server after : ServerState} {fetches failures bytes : Nat}

theorem refl (server : ServerState) : Credited server 0 0 0 server := by
  constructor <;> simp

theorem penalizeFor (h : Credited server fetches failures bytes after) (reason : String)
    (now : Nat) : Credited server fetches failures bytes (after.penalizeFor reason now) :=
  ⟨h.tried, h.failed, h.downloaded, h.active⟩

/-- A connection that is counted is taken off the counter again. -/
theorem countReturned_countAcquired (hroom : server.connectionsActive ≠ 65535) :
    server.countAcquired.countReturned.connectionsActive = server.connectionsActive := by
  have hne : server.connectionsActive + 1 ≠ 0 := by
    intro h
    apply hroom
    rw [← UInt16.add_sub_cancel server.connectionsActive 1, h]
    rfl
  rw [ServerState.countReturned, ServerState.countAcquired, if_neg hne, UInt16.add_sub_cancel]

/-- An attempt that gets a connection, from its count to its record. -/
theorem attempt (h : Credited server fetches failures bytes after)
    (hroom : server.connectionsActive ≠ 65535) (fetched : NntpResult NntpResponse) (now : Nat) :
    Credited server (fetches + 1) (failures + (!fetched.isOk).toNat) (bytes + received fetched)
      (record fetched now after.countAcquired) := by
  obtain ⟨htried, hfailed, hdownloaded, hactive⟩ :=
    record_counts fetched now after.countAcquired
  constructor
  · rw [htried, UInt64.ofNat_add, ← UInt64.add_assoc, ← h.tried]
    rfl
  · rw [hfailed, UInt64.ofNat_add, ← UInt64.add_assoc, ← h.failed]
    rfl
  · rw [hdownloaded, UInt64.ofNat_add, ← UInt64.add_assoc, ← h.downloaded]
    rfl
  · rw [hactive, countReturned_countAcquired (h.active ▸ hroom), h.active]

end Credited

section Rounds

variable {r : Round} {index : Nat} {server : ServerState}

/-- The result of a successful attempt is sent at once. -/
theorem serve_sent (h : r.Of Turn.serve) {attempt : Attempt}
    (hattempt : r.output.attempt = some attempt) :
    r.output.sent.bind (·.result.toOption) =
      attempt.outcome.toOption.map fun response => response.data.getD [] := by
  obtain ⟨back, h⟩ := h
  simp only [Turn.serve] at h
  split at h
  · cases h
  split at h
  · simp only [Except.ok.injEq, Prod.mk.injEq] at h
    rw [← h.2.1] at hattempt
    cases hattempt
  · rename_i pick hpick
    split at h
    · rename_i response houtcome
      simp only [Except.ok.injEq, Prod.mk.injEq] at h
      rw [← h.2.1] at hattempt ⊢
      cases hattempt
      rw [houtcome]
      rfl
    · rename_i e houtcome
      simp only [Except.ok.injEq, Prod.mk.injEq] at h
      rw [← h.2.1] at hattempt ⊢
      cases hattempt
      rw [houtcome]
      rfl

def tally (index : Nat) (r : Round) : ℕ × ℕ × ℕ :=
  ((fetchesFrom index r).toNat, (failsFrom index r).toNat,
    ((deliveredFrom index r.output).map List.length).getD 0)

def CreditedAt (index : Nat) (server : ServerState) (total : ℕ × ℕ × ℕ)
    (servers : List ServerState) : Prop :=
  ∃ after, servers[index]? = some after ∧ Credited server total.1 total.2.1 total.2.2 after

theorem deliveredFrom_of_attempt (index : Nat) (h : r.Of Turn.serve) {attempt : Attempt}
    (hattempt : r.output.attempt = some attempt) :
    deliveredFrom index r.output =
      if attempt.pick.index = index then
        attempt.outcome.toOption.map fun response => response.data.getD []
      else none := by
  rw [deliveredFrom, hattempt, Option.bind_some, serve_sent h hattempt]

theorem CreditedAt.modify_of_ne {total : ℕ × ℕ × ℕ} {servers : List ServerState} {place : Nat}
    (h : CreditedAt index server total servers) (hne : place ≠ index)
    (f : ServerState → ServerState) : CreditedAt index server total (servers.modify place f) := by
  obtain ⟨after, hafter, hcredited⟩ := h
  exact ⟨after, by simp [hne, hafter], hcredited⟩

theorem CreditedAt.modify {total total' : ℕ × ℕ × ℕ} {servers : List ServerState}
    (h : CreditedAt index server total servers) {f : ServerState → ServerState}
    (hf : ∀ after, Credited server total.1 total.2.1 total.2.2 after →
      Credited server total'.1 total'.2.1 total'.2.2 (f after)) :
    CreditedAt index server total' (servers.modify index f) := by
  obtain ⟨after, hafter, hcredited⟩ := h
  exact ⟨f after, by simp [hafter], hf after hcredited⟩

/-- One turn: the attempt on a server, and its record there. -/
theorem CreditedAt.round {total : ℕ × ℕ × ℕ} (h : CreditedAt index server total r.before)
    (hr : r.Of Turn.serve) (halone : r.input.Alone) (hroom : server.connectionsActive ≠ 65535) :
    CreditedAt index server (total + tally index r) r.after := by
  obtain ⟨hpickIdle, hcountIdle, hrecordIdle⟩ := halone
  rcases serve_cases hr with ⟨hnone, hafter⟩ | ⟨attempt, hattempt, -, hrun⟩
  · have htally : tally index r = 0 := by
      simp [tally, fetchesFrom, failsFrom, deliveredFrom, hnone]
    rw [hafter, hpickIdle, htally, add_zero]
    exact h
  · rw [hpickIdle] at hrun
    rw [Turn.attempt, hcountIdle, hrecordIdle] at hrun
    have hdelivered := deliveredFrom_of_attempt index hr hattempt
    by_cases hindex : attempt.pick.index = index
    · rw [if_pos hindex] at hdelivered
      cases hacquire : r.input.acquire attempt.pick.pool with
      | ok held =>
          rw [hacquire] at hrun
          obtain ⟨hafter, houtcome⟩ := Prod.mk.inj hrun
          have htally : tally index r =
              (1, (!attempt.outcome.isOk).toNat, received attempt.outcome) := by
            have hfetches : fetchesFrom index r = true := by
              simp [fetchesFrom, hattempt, hindex, hacquire, Except.isOk, Except.toBool]
            rw [tally, failsFrom, hfetches, hdelivered, received]
            cases attempt.outcome with
            | ok response => rfl
            | error e => rfl
          rw [← hafter, htally, hindex, houtcome]
          simp only [Others.idle, id_eq, List.modify_modify_eq]
          exact h.modify fun after hcredited => hcredited.attempt hroom attempt.outcome _
      | error e =>
          rw [hacquire] at hrun
          obtain ⟨hafter, houtcome⟩ := Prod.mk.inj hrun
          have htally : tally index r = 0 := by
            have hfetches : fetchesFrom index r = false := by
              simp [fetchesFrom, hattempt, hacquire, Except.isOk, Except.toBool]
            rw [tally, failsFrom, hfetches, hdelivered, ← houtcome]
            rfl
          rw [← hafter, htally, hindex, add_zero]
          exact h.modify fun after hcredited => hcredited.penalizeFor _ _
    · have htally : tally index r = 0 := by
        have hfetches : fetchesFrom index r = false := by simp [fetchesFrom, hattempt, hindex]
        rw [tally, failsFrom, hfetches, hdelivered, if_neg hindex]
        rfl
      rw [htally, add_zero]
      cases hacquire : r.input.acquire attempt.pick.pool with
      | ok held =>
          rw [hacquire] at hrun
          rw [← (Prod.mk.inj hrun).1]
          exact (h.modify_of_ne hindex _).modify_of_ne hindex _
      | error e =>
          rw [hacquire] at hrun
          rw [← (Prod.mk.inj hrun).1]
          exact h.modify_of_ne hindex _

end Rounds

/-! ### The whole run -/

section Runs

variable {index : Nat}

/-- A fetch that does not fail delivers. -/
theorem fetchesFrom_of_deliveredFrom {r : Round} (hr : r.Of Turn.serve) {data : Bytes}
    (h : deliveredFrom index r.output = some data) : fetchesFrom index r = true := by
  rcases serve_cases hr with ⟨hnone, -⟩ | ⟨attempt, hattempt, -, hrun⟩
  · rw [deliveredFrom, hnone] at h
    cases h
  · rw [deliveredFrom_of_attempt _ hr hattempt] at h
    by_cases hindex : attempt.pick.index = index
    · rw [if_pos hindex] at h
      cases hacquire : r.input.acquire attempt.pick.pool with
      | ok held => simp [fetchesFrom, hattempt, hindex, hacquire, Except.isOk, Except.toBool]
      | error e =>
          rw [Turn.attempt, hacquire] at hrun
          rw [← (Prod.mk.inj hrun).2] at h
          cases h
    · rw [if_neg hindex] at h
      cases h

theorem sum_tally (rounds : List Round) :
    (rounds.map (tally index)).sum =
      (rounds.countP (fetchesFrom index), rounds.countP (failsFrom index),
        ((delivered index rounds).map List.length).sum) := by
  induction rounds with
  | nil => rfl
  | cons r rounds ih =>
      have htoNat : ∀ b : Bool, b.toNat = if b then 1 else 0 := by decide
      rw [List.map_cons, List.sum_cons, ih, List.countP_cons, List.countP_cons, tally]
      unfold delivered
      rw [List.filterMap_cons]
      cases hdata : deliveredFrom index r.output with
      | none => simp [htoNat, Nat.add_comm]
      | some data => simp [htoNat, Nat.add_comm]

/-- Every fetch fails or delivers. -/
theorem countP_fetchesFrom (rounds : List Round) (hrounds : ∀ r ∈ rounds, r.Of Turn.serve) :
    rounds.countP (fetchesFrom index) =
      rounds.countP (failsFrom index) + (delivered index rounds).length := by
  induction rounds with
  | nil => rfl
  | cons r rounds ih =>
      have hrest := ih fun r' h => hrounds r' (List.mem_cons_of_mem _ h)
      rw [List.countP_cons, List.countP_cons, delivered, List.filterMap_cons]
      rw [delivered] at hrest
      cases hdata : deliveredFrom index r.output with
      | none =>
          simp only [failsFrom, hdata, Option.isNone_none, Bool.and_true]
          omega
      | some data =>
          have hfetches := fetchesFrom_of_deliveredFrom (hrounds r (by simp)) hdata
          simp only [failsFrom, hdata, hfetches, Option.isNone_some, Bool.and_false, if_true,
            List.length_cons]
          simp
          omega

/-- **The statistics add up.** A call of `download` that runs alone, whether it comes to its
end, is shut down or is still going on, leaves each server credited with what was fetched
from it: one try for each fetch, one failure for each that has delivered nothing, and the
bytes of what was sent to the caller of it. No connection is counted any more. -/
theorem download_credits (downloader : Downloader) (articles : List Article) (turns : List Turn)
    (index : Nat) (server : ServerState) (hserver : downloader.servers[index]? = some server)
    (hroom : server.connectionsActive ≠ 65535) (halone : ∀ turn ∈ turns, turn.Alone) :
    ∃ after,
      (settled downloader.servers (downloader.rounds articles turns))[index]? = some after ∧
        Credited server ((downloader.rounds articles turns).countP (fetchesFrom index))
          ((downloader.rounds articles turns).countP (failsFrom index))
          (((delivered index (downloader.rounds articles turns)).map List.length).sum) after ∧
        (downloader.rounds articles turns).countP (fetchesFrom index) =
          (downloader.rounds articles turns).countP (failsFrom index) +
            (delivered index (downloader.rounds articles turns)).length := by
  have hrounds : ∀ r ∈ downloader.rounds articles turns, r.Of Turn.serve := fun r hr =>
    (rounds_keep (J := fun _ => True) (fun _ _ _ _ => trivial) trivial r hr).2.1
  have hstart : CreditedAt index server 0 downloader.servers :=
    ⟨server, hserver, .refl server⟩
  have htotal : CreditedAt index server
      (0 + ((downloader.rounds articles turns).map (tally index)).sum)
      (settled downloader.servers (downloader.rounds articles turns)) :=
    rounds_total (tally index) (fun r n hinput hr h => h.round hr (halone _ hinput) hroom) hstart
  rw [zero_add, sum_tally] at htotal
  obtain ⟨after, hafter, hcredited⟩ := htotal
  exact ⟨after, hafter, hcredited, countP_fetchesFrom _ hrounds⟩

/-- The first server refuses its connections, and the second one delivers a byte. -/
theorem download_credits_second :
    ∃ after,
      (settled (new [{ id := "b", priority := 1 }, { id := "a" }]).servers
        ((new [{ id := "b", priority := 1 }, { id := "a" }]).rounds [{ messageId := "x@y" }]
          (List.replicate 3 refusedByFirst)))[1]? = some after ∧
      Credited (.new { id := "b", priority := 1 } 1) 1 0 1 after := by
  obtain ⟨after, hafter, hcredited, -⟩ := download_credits
    (new [{ id := "b", priority := 1 }, { id := "a" }]) [{ messageId := "x@y" }]
    (List.replicate 3 refusedByFirst) 1 (.new { id := "b", priority := 1 } 1) (by decide)
    (by decide) fun turn hturn => List.eq_of_mem_replicate hturn ▸ ⟨rfl, rfl, rfl⟩
  exact ⟨after, hafter, hcredited⟩

end Runs

end Downloader

end NzbNntp
