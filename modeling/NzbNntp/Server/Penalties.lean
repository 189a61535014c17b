import NzbNntp.Library.Deadline
import NzbNntp.Server.Reasons

/-!
One penalty after the other. `penalize` writes the end of the new penalty over that of
the old one, so a short penalty may end a long one: the failures of the attempts that
were under way when the server was penalised still come in, and each has its own length.
-/

namespace NzbNntp

open Deadline

/-- A call of `penalize` or of `penalize_for`, and its instant. -/
inductive PenaltyCall where
  | penalize (reason : String) (duration now : Nat)
  | penalizeFor (reason : String) (now : Nat)

namespace PenaltyCall

def run : PenaltyCall → ServerState → ServerState
  | .penalize reason duration now, server => server.penalize reason duration now
  | .penalizeFor reason now, server => server.penalizeFor reason now

def now : PenaltyCall → Nat
  | .penalize _ _ now | .penalizeFor _ now => now

def duration : PenaltyCall → Nat
  | .penalize _ duration _ => duration
  | .penalizeFor reason _ => penaltyFor reason

def timing : Timing PenaltyCall Nat where
  start := now
  stop call := call.now + call.duration
  ordered call := Nat.le_add_right call.now call.duration

theorem run_penaltyUntil (call : PenaltyCall) (server : ServerState) :
    (call.run server).penaltyUntil = some (timing.stop call) := by
  cases call with
  | penalize reason duration now => rfl
  | penalizeFor reason now =>
      show (server.penalizeFor reason now).penaltyUntil = _
      rw [penalizeFor_eq]
      rfl

theorem run_active (call : PenaltyCall) (server : ServerState) :
    (call.run server).active = server.active := by
  cases call <;> rfl

end PenaltyCall

namespace ServerState

def penalties (server : ServerState) (calls : List PenaltyCall) : ServerState :=
  calls.foldl (fun server call => call.run server) server

variable {server : ServerState} {calls : List PenaltyCall}

theorem penalties_concat (call : PenaltyCall) :
    server.penalties (calls ++ [call]) = call.run (server.penalties calls) := by
  rw [penalties, List.foldl_append]
  rfl

theorem penalties_active : (server.penalties calls).active = server.active := by
  induction calls using List.reverseRecOn with
  | nil => rfl
  | append_singleton calls call ih => rw [penalties_concat, call.run_active, ih]

/-- After a penalty the server is available once the last one has ended. -/
theorem isAvailable_penalties (hne : calls ≠ []) (t : Nat) :
    (server.penalties calls).isAvailable t = false ↔
      server.active = false ∨ PenaltyCall.timing.Shown calls t := by
  obtain ⟨before, last, rfl⟩ := (List.eq_nil_or_concat' calls).resolve_left hne
  have hshown : PenaltyCall.timing.Shown (before ++ [last]) t ↔
      t ≤ PenaltyCall.timing.stop last := by
    simp [Timing.Shown]
  rw [hshown, isAvailable, penalties_active, penalties_concat, last.run_penaltyUntil]
  cases server.active with
  | true => simp
  | false => simp

def Spared (server : ServerState) (calls : List PenaltyCall) : Prop :=
  ∀ before after t, PenaltyCall.timing.Moment calls before after t →
    PenaltyCall.timing.Running before t → (server.penalties before).isAvailable t = false

theorem spared_iff_faithful :
    server.Spared calls ↔ server.active = false ∨ PenaltyCall.timing.Faithful calls := by
  have hmade : ∀ {before : List PenaltyCall} {t}, PenaltyCall.timing.Running before t →
      before ≠ [] := by
    rintro before t ⟨call, hcall, -⟩
    exact List.ne_nil_of_mem hcall
  constructor
  · intro hspared
    cases hactive : server.active with
    | false => exact .inl rfl
    | true =>
        refine .inr fun before after t hmoment hrunning => ?_
        have hshown := (isAvailable_penalties (hmade hrunning) t).mp
          (hspared before after t hmoment hrunning)
        rcases hshown with hinactive | hshown
        · rw [hactive] at hinactive
          cases hinactive
        · exact hshown
  · intro h before after t hmoment hrunning
    rw [isAvailable_penalties (hmade hrunning)]
    exact h.imp_right fun hfaithful => hfaithful before after t hmoment hrunning

/-- Penalties of one length do not cut each other short. -/
theorem spared_of_equal_durations (horder : PenaltyCall.timing.InOrder calls) {duration : Nat}
    (h : ∀ call ∈ calls, call.duration = duration) : server.Spared calls := by
  refine spared_iff_faithful.mpr (.inr (Timing.relayed_of_pairwise ?_).faithful)
  refine horder.imp_of_mem fun {a b} ha hb hab => ?_
  show a.now + a.duration ≤ b.now + b.duration
  rw [h a ha, h b hb]
  exact Nat.add_le_add_right hab duration

/-- **A penalty may be cut short by a later one.** Over every sequence of calls of
`penalize` and `penalize_for`, in the order of their instants, a server is unavailable
whenever one of its penalties is running, exactly if it is inactive anyway or every
penalty either ends no earlier than all those imposed before it, or is followed by
another before it ends. -/
theorem spared_iff_relayed (server : ServerState) (calls : List PenaltyCall)
    (horder : PenaltyCall.timing.InOrder calls) :
    server.Spared calls ↔ server.active = false ∨ PenaltyCall.timing.Relayed calls := by
  rw [spared_iff_faithful, Timing.faithful_iff horder]

def loginRequired (now : Nat) : PenaltyCall :=
  .penalizeFor (NntpError.authRequired "480").display now

def connectionRefused (now : Nat) : PenaltyCall :=
  .penalizeFor (NntpError.connection "refused").display now

/-- The long penalty a minute after the short one. -/
theorem spared_iff_relayed_on_login :
    (ServerState.new {} 0).Spared [connectionRefused 0, loginRequired 60] := by
  have horder : PenaltyCall.timing.InOrder [connectionRefused 0, loginRequired 60] := by
    simp [Timing.InOrder, PenaltyCall.timing, PenaltyCall.now, connectionRefused, loginRequired]
  have hends : PenaltyCall.timing.stop (connectionRefused 0) ≤
      PenaltyCall.timing.stop (loginRequired 60) := by decide +kernel
  exact (spared_iff_relayed _ _ horder).mpr
    (.inr (Timing.relayed_of_pairwise (by simpa using hends)))

/-- The other way round: five minutes after the login was rejected the server is
available, and its penalty was for ten. -/
theorem penalty_cut_short :
    (loginRequired 0).duration = 600 ∧
      ((ServerState.new {} 0).penalties
        [loginRequired 0, connectionRefused 60]).isAvailable 300 = true ∧
      ¬ (ServerState.new {} 0).Spared [loginRequired 0, connectionRefused 60] := by
  have hlong : (loginRequired 0).duration = 600 := by decide +kernel
  have havailable : ((ServerState.new {} 0).penalties
      [loginRequired 0, connectionRefused 60]).isAvailable 300 = true := by decide +kernel
  refine ⟨hlong, havailable, fun hspared => ?_⟩
  have hmoment : PenaltyCall.timing.Moment [loginRequired 0, connectionRefused 60]
      [loginRequired 0, connectionRefused 60] [] 300 :=
    ⟨by simp, by simp [PenaltyCall.timing, PenaltyCall.now, loginRequired, connectionRefused],
      by simp⟩
  have hrunning : 300 ≤ PenaltyCall.timing.stop (loginRequired 0) := by
    show 300 ≤ 0 + (loginRequired 0).duration
    omega
  have hunavailable := hspared _ _ _ hmoment ⟨_, List.mem_cons_self, hrunning⟩
  rw [havailable] at hunavailable
  cases hunavailable

end ServerState

end NzbNntp
