import NzbNntp.Connection.Errors
import NzbNntp.Downloader.Reports
import NzbNntp.Pipeline.Refusals

/-!
Servers that are left alone. The attempts after which a server is penalised, and the
picks for as long as the penalty runs.

`process_all` gives up on a connection after the errors of its own list, and
`download` penalises the server after those of another. The lists differ in one
error, the rejected login of `481` and `482`: after it the server is asked again for
the next article.
-/

namespace NzbNntp

open Interruptible RetryQueue

namespace Downloader

/-! ### Penalties -/

def PenaltyAt (index deadline : Nat) (servers : List ServerState) : Prop :=
  ∃ server, servers[index]? = some server ∧ server.penaltyUntil = some deadline

def PenalisedTo (index deadline : Nat) (servers : List ServerState) : Prop :=
  ∃ later, deadline ≤ later ∧ PenaltyAt index later servers

theorem PenaltyAt.unique {index deadline deadline' : Nat} {servers : List ServerState}
    (h : PenaltyAt index deadline servers) (h' : PenaltyAt index deadline' servers) :
    deadline = deadline' := by
  obtain ⟨server, hserver, hdeadline⟩ := h
  obtain ⟨server', hserver', hdeadline'⟩ := h'
  obtain rfl := Option.some.inj (hserver.symm.trans hserver')
  exact Option.some.inj (hdeadline.symm.trans hdeadline')

theorem penalizeFor_penaltyUntil (server : ServerState) (reason : String) (now : Nat) :
    ∃ duration, PENALTY_UNKNOWN ≤ duration ∧
      (server.penalizeFor reason now).penaltyUntil = some (now + duration) := by
  refine ⟨_, ?_, rfl⟩
  split
  · decide
  split
  · decide
  · exact le_rfl

/-- The lock scope of an outcome leaves the penalty, or imposes one that starts then. -/
theorem record_penaltyUntil (fetched : NntpResult NntpResponse) (now : Nat)
    (server : ServerState) :
    (record fetched now server).penaltyUntil = server.penaltyUntil ∨
      ∃ duration, (record fetched now server).penaltyUntil = some (now + duration) := by
  unfold record
  split
  · exact .inl rfl
  · exact .inl rfl
  · rename_i e _
    dsimp only
    split
    · obtain ⟨duration, -, hpenalty⟩ :=
        penalizeFor_penaltyUntil server.recordFailure e.display now
      exact .inr ⟨duration, hpenalty⟩
    · exact .inl rfl

/-- After an error of its list, `download` penalises the server. -/
theorem record_penalizes {e : NntpError} (h : isFatal e = true) (now : Nat)
    (server : ServerState) :
    ∃ duration, PENALTY_UNKNOWN ≤ duration ∧
      (record (.error e) now server).penaltyUntil = some (now + duration) := by
  have hrecord : record (.error e) now server =
      (server.recordFailure.penalizeFor e.display now).discardConnection := by
    cases e <;> first | rfl | cases h
  rw [hrecord]
  exact penalizeFor_penaltyUntil server.recordFailure _ _

/-- The list lacks one error of that of `process_all`. -/
theorem isFatal_of_process {e : NntpError}
    (h : NzbNntp.isFatal (.error e : NntpResult NntpResponse) = true) (hauth : NotAuth e) :
    isFatal e = true := by
  cases e with
  | auth text => exact absurd rfl (hauth text)
  | _ => exact h

/-! ### The rounds of a call -/

/-- One turn of a call: the servers and the request that it met, and what came of them. -/
abbrev Round := RetryQueue.Round Turn (List ServerState) DownloadRequest Seen

def rounds (downloader : Downloader) (articles : List Article) (turns : List Turn) : List Round :=
  RetryQueue.rounds Turn.serve turns downloader.servers (requests articles)

/-- What a call that comes to an end has put out, its rounds have, and the servers are
left as the last round leaves them. -/
theorem download_eq_rounds {downloader : Downloader} {articles : List Article}
    {turns : List Turn} {report : Report (List ServerState) Seen NntpError Nat}
    (h : downloader.download articles turns = some report) :
    report.log.map Prod.snd = (downloader.rounds articles turns).map (·.output) ∧
      report.state = ((downloader.rounds articles turns).getLast?.map (·.after)).getD
        downloader.servers :=
  run_eq_rounds h

/-- The attempt has shown that the server cannot be used: no connection was to be had,
or it ended in an error after which `process_all` gives up. -/
def Breaks (turn : Turn) (attempt : Attempt) : Prop :=
  (∃ e, turn.acquire attempt.pick.pool = .error e) ∨ NzbNntp.isFatal attempt.outcome = true

def Rejects (turn : Turn) (attempt : Attempt) : Prop :=
  turn.acquire attempt.pick.pool = .ok () ∧ ∃ text, attempt.outcome = .error (.auth text)

/-- A server that an attempt has shown to be unusable is penalised in the same turn, and
not picked for any article before the penalty has ended. -/
structure BacksOff (rounds : List Round) : Prop where
  penalised : ∀ r ∈ rounds, ∀ attempt, r.output.attempt = some attempt → Breaks r.input attempt →
    ∃ deadline, PenaltyAt attempt.pick.index deadline r.after ∧
      r.input.recordedAt + PENALTY_UNKNOWN ≤ deadline
  spared : rounds.Pairwise fun r r' => ∀ attempt attempt' deadline,
    r.output.attempt = some attempt → Breaks r.input attempt →
      PenaltyAt attempt.pick.index deadline r.after → r'.output.attempt = some attempt' →
        attempt'.pick.index = attempt.pick.index → deadline < r'.input.clock attempt'.pick.index

def Admitted (rounds : List Round) : Prop :=
  ∀ r ∈ rounds, ∀ attempt, r.output.attempt = some attempt → ¬ Rejects r.input attempt

/-- The clock does not go back within the turn. -/
def Turn.InOrder (turn : Turn) : Prop := ∀ index, turn.clock index ≤ turn.recordedAt

def Others.Lengthen (others : Others) : Prop :=
  ∀ index deadline servers, PenalisedTo index deadline servers →
    PenalisedTo index deadline (others.run servers)

structure Turn.Undisturbed (turn : Turn) : Prop where
  beforePick : turn.beforePick.Lengthen
  beforeCount : turn.beforeCount.Lengthen
  beforeRecord : turn.beforeRecord.Lengthen

def Turn.Alone (turn : Turn) : Prop :=
  turn.beforePick = .idle ∧ turn.beforeCount = .idle ∧ turn.beforeRecord = .idle

/-! ### One turn -/

section OneTurn

variable {turn : Turn} {servers : List ServerState} {index deadline : Nat} {pick : ServerPick}

theorem PenalisedTo.modify (h : PenalisedTo index deadline servers) (place : Nat)
    {f : ServerState → ServerState}
    (hf : place = index → ∀ server, (f server).penaltyUntil = server.penaltyUntil ∨
      ∃ later, deadline ≤ later ∧ (f server).penaltyUntil = some later) :
    PenalisedTo index deadline (servers.modify place f) := by
  obtain ⟨later, hlater, server, hserver, hpenalty⟩ := h
  by_cases hplace : place = index
  · have hget : (servers.modify place f)[index]? = some (f server) := by
      simp [hplace, hserver]
    rcases hf hplace server with hsame | ⟨later', hlater', hpenalty'⟩
    · exact ⟨later, hlater, f server, hget, hsame.trans hpenalty⟩
    · exact ⟨later', hlater', f server, hget, hpenalty'⟩
  · refine ⟨later, hlater, server, ?_, hpenalty⟩
    simp [hplace, hserver]

/-- A server is picked after its penalty. -/
theorem pickServer_after {clock : Nat → Nat} {tried : List String}
    (hpick : pickServer clock servers tried = some pick)
    (h : PenalisedTo pick.index deadline servers) : deadline < clock pick.index := by
  obtain ⟨server, hserver, -, -, -, havailable, -⟩ := pickFrom_names hpick
  obtain ⟨later, hlater, server', hserver', hpenalty⟩ := h
  rw [Nat.sub_zero] at hserver
  obtain rfl := Option.some.inj (hserver'.symm.trans hserver)
  rw [ServerState.isAvailable, hpenalty, Bool.and_eq_true] at havailable
  have hclock : later < clock pick.index := by simpa using havailable.2
  omega

/-- The lock scopes of an attempt on a server that is not penalised any more leave the
penalties that still run. -/
theorem Turn.attempt_lengthens (hturn : turn.Undisturbed) (messageId : String)
    (h : PenalisedTo index deadline servers)
    (hover : pick.index = index → deadline ≤ turn.recordedAt) :
    PenalisedTo index deadline (turn.attempt pick messageId servers).1 := by
  unfold Turn.attempt
  split
  · have hcounted := (hturn.beforeCount _ _ _ h).modify pick.index
      (f := ServerState.countAcquired) fun _ _ => .inl rfl
    refine (hturn.beforeRecord _ _ _ hcounted).modify pick.index fun hindex server => ?_
    rcases record_penaltyUntil (turn.fetchArticle pick.pool messageId) turn.recordedAt server with
      hsame | ⟨duration, hpenalty⟩
    · exact .inl hsame
    · exact .inr ⟨_, (hover hindex).trans (Nat.le_add_right _ _), hpenalty⟩
  · rename_i e _
    refine (hturn.beforeRecord _ _ _ h).modify pick.index fun hindex server => ?_
    obtain ⟨duration, -, hpenalty⟩ := penalizeFor_penaltyUntil server e.display turn.recordedAt
    exact .inr ⟨_, (hover hindex).trans (Nat.le_add_right _ _), hpenalty⟩

theorem exists_server_of_names (h : Names (roster servers) pick) :
    ∃ server, servers[pick.index]? = some server := by
  obtain ⟨config, hconfig, -⟩ := h
  rw [roster, List.getElem?_map] at hconfig
  obtain ⟨server, hserver, -⟩ := Option.map_eq_some_iff.mp hconfig
  exact ⟨server, hserver⟩

/-- The last lock scope of an attempt. -/
def Turn.settles (turn : Turn) (pick : ServerPick) (outcome : NntpResult NntpResponse)
    (server : ServerState) : ServerState :=
  match turn.acquire pick.pool with
  | .ok () => record outcome turn.recordedAt server
  | .error e => server.penalizeFor e.display turn.recordedAt

/-- An attempt ends with it, on the server that was picked. -/
theorem Turn.attempt_settles {messageId : String} {after : List ServerState}
    {outcome : NntpResult NntpResponse} (hnames : Names (roster servers) pick)
    (h : turn.attempt pick messageId servers = (after, outcome)) :
    ∃ server, after[pick.index]? = some (turn.settles pick outcome server) ∧
      (turn.Alone → ∃ server₀, servers[pick.index]? = some server₀ ∧
        server.penaltyUntil = server₀.penaltyUntil) := by
  rw [Turn.attempt] at h
  cases hacquire : turn.acquire pick.pool with
  | ok held =>
      rw [hacquire] at h
      obtain ⟨rfl, rfl⟩ := Prod.mk.inj h
      have hroster : roster (turn.beforeRecord.run
          ((turn.beforeCount.run servers).modify pick.index ServerState.countAcquired)) =
            roster servers := by
        rw [turn.beforeRecord.fixed, roster_modify _ _ ServerState.countAcquired_identity,
          turn.beforeCount.fixed]
      obtain ⟨server, hserver⟩ := exists_server_of_names (hroster ▸ hnames)
      refine ⟨server, ?_, fun halone => ?_⟩
      · rw [List.getElem?_modify_eq, hserver, Turn.settles, hacquire]
        rfl
      · obtain ⟨server₀, hserver₀⟩ := exists_server_of_names hnames
        obtain ⟨-, hcount, hrecord⟩ := halone
        rw [hcount, hrecord] at hserver
        obtain rfl : server₀.countAcquired = server := by
          simpa [Others.idle, hserver₀] using hserver
        exact ⟨server₀, hserver₀, rfl⟩
  | error e =>
      rw [hacquire] at h
      obtain ⟨rfl, rfl⟩ := Prod.mk.inj h
      obtain ⟨server, hserver⟩ :=
        exists_server_of_names ((turn.beforeRecord.fixed servers) ▸ hnames)
      refine ⟨server, ?_, fun halone => ⟨server, ?_, rfl⟩⟩
      · rw [List.getElem?_modify_eq, hserver, Turn.settles, hacquire]
        rfl
      · rw [halone.2.2] at hserver
        exact hserver

variable {r : Round}

/-- A round makes no attempt, or one on a server that could be picked. -/
theorem serve_cases (h : r.Of Turn.serve) :
    (r.output.attempt = none ∧ r.after = r.input.beforePick.run r.before) ∨
      ∃ attempt, r.output.attempt = some attempt ∧
        pickServer r.input.clock (r.input.beforePick.run r.before) r.job.triedServers =
          some attempt.pick ∧
        r.input.attempt attempt.pick attempt.messageId (r.input.beforePick.run r.before) =
          (r.after, attempt.outcome) := by
  obtain ⟨back, h⟩ := h
  simp only [Turn.serve] at h
  split at h
  · cases h
  split at h
  · simp only [Except.ok.injEq, Prod.mk.injEq] at h
    obtain ⟨hafter, hseen, -⟩ := h
    exact .inl ⟨by rw [← hseen], hafter.symm⟩
  · rename_i pick hpick
    right
    split at h
    · rename_i response houtcome
      simp only [Except.ok.injEq, Prod.mk.injEq] at h
      obtain ⟨hafter, hseen, -⟩ := h
      exact ⟨_, by rw [← hseen], hpick, Prod.ext hafter rfl⟩
    · rename_i e houtcome
      simp only [Except.ok.injEq, Prod.mk.injEq] at h
      obtain ⟨hafter, hseen, -⟩ := h
      exact ⟨_, by rw [← hseen], hpick, Prod.ext hafter rfl⟩

/-- A round keeps the penalties that run, and picks none of their servers. -/
theorem PenalisedTo.round (h : PenalisedTo index deadline r.before) (hr : r.Of Turn.serve)
    (hturn : r.input.Undisturbed) (horder : r.input.InOrder) :
    PenalisedTo index deadline r.after ∧ ∀ attempt, r.output.attempt = some attempt →
      attempt.pick.index = index → deadline < r.input.clock attempt.pick.index := by
  have hbefore := hturn.beforePick _ _ _ h
  rcases serve_cases hr with ⟨hnone, hafter⟩ | ⟨attempt, hattempt, hpick, hrun⟩
  · refine ⟨hafter ▸ hbefore, fun attempt hattempt => ?_⟩
    rw [hnone] at hattempt
    cases hattempt
  · have hclock : attempt.pick.index = index → deadline < r.input.clock attempt.pick.index := by
      rintro rfl
      exact pickServer_after hpick hbefore
    refine ⟨?_, fun attempt' hattempt' => ?_⟩
    · have hlengthens := Turn.attempt_lengthens hturn attempt.messageId hbefore
        fun hindex => (hclock hindex).le.trans (horder _)
      rwa [hrun] at hlengthens
    · obtain rfl := Option.some.inj (hattempt.symm.trans hattempt')
      exact hclock

/-- An attempt that breaks and is no rejected login imposes a penalty. -/
theorem penalised_of_breaks (hr : r.Of Turn.serve) {attempt : Attempt}
    (hattempt : r.output.attempt = some attempt) (hbreaks : Breaks r.input attempt)
    (hadmitted : ¬ Rejects r.input attempt) :
    ∃ deadline, PenaltyAt attempt.pick.index deadline r.after ∧
      r.input.recordedAt + PENALTY_UNKNOWN ≤ deadline := by
  rcases serve_cases hr with ⟨hnone, -⟩ | ⟨attempt', hattempt', hpick, hrun⟩
  · rw [hnone] at hattempt
    cases hattempt
  obtain rfl := Option.some.inj (hattempt.symm.trans hattempt')
  obtain ⟨server, hserver, -⟩ := Turn.attempt_settles (pickServer_names hpick).1 hrun
  suffices h : ∃ duration, PENALTY_UNKNOWN ≤ duration ∧
      (r.input.settles attempt.pick attempt.outcome server).penaltyUntil =
        some (r.input.recordedAt + duration) by
    obtain ⟨duration, hduration, hpenalty⟩ := h
    exact ⟨_, ⟨_, hserver, hpenalty⟩, Nat.add_le_add_left hduration _⟩
  unfold Turn.settles
  split
  · rename_i hacquire
    rcases hbreaks with ⟨e, herror⟩ | hfatal
    · rw [hacquire] at herror
      cases herror
    · cases houtcome : attempt.outcome with
      | ok response =>
          rw [houtcome] at hfatal
          cases hfatal
      | error e =>
          rw [houtcome] at hfatal
          refine record_penalizes (isFatal_of_process hfatal fun text hauth => ?_) _ _
          exact hadmitted ⟨hacquire, text, by rw [houtcome, hauth]⟩
  · exact penalizeFor_penaltyUntil server _ _

/-- A rejected login imposes none. -/
theorem not_penalised_of_rejects (hr : r.Of Turn.serve) {attempt : Attempt}
    (hattempt : r.output.attempt = some attempt) (hrejects : Rejects r.input attempt)
    (halone : r.input.Alone) (horder : r.input.InOrder)
    (h : PenaltyAt attempt.pick.index deadline r.after) : deadline ≤ r.input.recordedAt := by
  rcases serve_cases hr with ⟨hnone, -⟩ | ⟨attempt', hattempt', hpick, hrun⟩
  · rw [hnone] at hattempt
    cases hattempt
  obtain rfl := Option.some.inj (hattempt.symm.trans hattempt')
  obtain ⟨hacquire, text, hauth⟩ := hrejects
  obtain ⟨server, hserver, hbefore⟩ := Turn.attempt_settles (pickServer_names hpick).1 hrun
  obtain ⟨server₀, hserver₀, hsame⟩ := hbefore halone
  obtain ⟨server', hserver', hpenalty⟩ := h
  obtain rfl := Option.some.inj (hserver.symm.trans hserver')
  have hkept : server₀.penaltyUntil = some deadline := by
    rw [← hsame, ← hpenalty, Turn.settles, hacquire, hauth]
    rfl
  have hover := pickServer_after hpick ⟨deadline, le_rfl, server₀, hserver₀, hkept⟩
  exact hover.le.trans (horder _)

end OneTurn

/-! ### The whole run -/

theorem Turn.Alone.undisturbed {turn : Turn} (h : turn.Alone) : turn.Undisturbed := by
  obtain ⟨hpick, hcount, hrecord⟩ := h
  constructor
  · exact hpick ▸ fun _ _ _ h => h
  · exact hcount ▸ fun _ _ _ h => h
  · exact hrecord ▸ fun _ _ _ h => h

/-- **A server that fails is left alone, unless it rejects the login.** In every run of
`download`, over any articles and turns, beside calls that cut no penalty short: if no
login is rejected, each attempt that shows its server to be unusable has the server
penalised in the same turn, and it is picked for no article until the penalty has ended.
A call that runs alone has this only if no login is rejected. -/
theorem download_backs_off (downloader : Downloader) (articles : List Article)
    (turns : List Turn) (horder : ∀ turn ∈ turns, turn.InOrder)
    (hturns : ∀ turn ∈ turns, turn.Undisturbed) :
    (Admitted (downloader.rounds articles turns) →
        BacksOff (downloader.rounds articles turns)) ∧
      ((∀ turn ∈ turns, turn.Alone) → BacksOff (downloader.rounds articles turns) →
        Admitted (downloader.rounds articles turns)) := by
  have hrounds : ∀ r ∈ downloader.rounds articles turns,
      r.input ∈ turns ∧ r.Of Turn.serve ∧ True ∧ True :=
    rounds_keep (J := fun _ => True) (fun _ _ _ _ => trivial) trivial
  constructor
  · intro hadmitted
    constructor
    · intro r hr attempt hattempt hbreaks
      obtain ⟨-, hof, -⟩ := hrounds r hr
      exact penalised_of_breaks hof hattempt hbreaks (hadmitted r hr attempt hattempt)
    · refine (rounds_pairwise (Q := fun r servers => ∀ attempt deadline,
        r.output.attempt = some attempt → PenaltyAt attempt.pick.index deadline r.after →
          PenalisedTo attempt.pick.index deadline servers) ?_ ?_).imp ?_
      · exact fun r _ _ attempt deadline _ hpenalty => ⟨deadline, le_rfl, hpenalty⟩
      · intro r r' hinput hof hbefore attempt deadline hattempt hpenalty
        exact ((hbefore attempt deadline hattempt hpenalty).round hof (hturns _ hinput)
          (horder _ hinput)).1
      · rintro r r' ⟨hinput, hof, hbefore, -⟩ attempt attempt' deadline hattempt - hpenalty hattempt'
        exact ((hbefore attempt deadline hattempt hpenalty).round hof (hturns _ hinput)
          (horder _ hinput)).2 attempt' hattempt'
  · intro halone hbacks r hr attempt hattempt hrejects
    obtain ⟨hinput, hof, -⟩ := hrounds r hr
    have hbreaks : Breaks r.input attempt := by
      obtain ⟨-, text, hauth⟩ := hrejects
      exact .inr (by rw [hauth]; rfl)
    obtain ⟨deadline, hpenalty, hlong⟩ := hbacks.penalised r hr attempt hattempt hbreaks
    have hshort := not_penalised_of_rejects hof hattempt hrejects (halone _ hinput)
      (horder _ hinput) hpenalty
    simp only [PENALTY_UNKNOWN] at hlong
    omega

/-- What a turn gets from a connection on which `fetch_article` runs. -/
theorem rejects_iff_code {π : Type} [Peer π] {w : World π} {gz : GzDecoder} {turn : Turn}
    {attempt : Attempt} (hready : w.conn.state = .ready)
    (hfetch : (NzbNntp.fetchArticle gz attempt.messageId w).result = some attempt.outcome)
    (hacquire : turn.acquire attempt.pick.pool = .ok ()) :
    Rejects turn attempt ↔ ∃ status w₁,
      Queried s!"ARTICLE {normalizeMessageId attempt.messageId}" w status w₁ ∧
        (status.code = 481 ∨ status.code = 482) := by
  constructor
  · rintro ⟨-, text, hauth⟩
    rw [hauth] at hfetch
    cases hrun : NzbNntp.fetchArticle gz attempt.messageId w with
    | err e w' =>
        rw [hrun] at hfetch
        obtain rfl : e = .auth text := Except.error.inj (Option.some.inj hfetch)
        exact fetchArticle_auth hrun
    | ok response w' => rw [hrun] at hfetch; cases hfetch
    | dropped w' => rw [hrun] at hfetch; cases hfetch
  · rintro ⟨status, w₁, hqueried, hcode⟩
    have h220 : status.code ≠ 220 := by omega
    have hrefused : wp (NzbNntp.fetchArticle gz attempt.messageId) _ w :=
      fetchArticle_refusal hready hqueried h220
    obtain ⟨e, w', hrun, rfl, -⟩ := exists_err_of_wp hrefused
    rw [hrun] at hfetch
    refine ⟨hacquire, ?_⟩
    rw [← Option.some.inj hfetch]
    rcases hcode with hcode | hcode
    · exact ⟨_, by simp only [articleRefusal, hcode]; rfl⟩
    · exact ⟨_, by simp only [articleRefusal, hcode]; rfl⟩

/-- Two servers and two articles; the first server refuses connections. -/
theorem download_backs_off_on_refusal :
    let downloader := new [{ id := "b", priority := 1 }, { id := "a" }]
    let rounds := downloader.rounds [{ messageId := "x@y" }, { messageId := "z@y" }]
      (List.replicate 4 refusedByFirst)
    BacksOff rounds ∧ rounds.map (·.output.attempt.map (·.pick.index)) = [some 0, some 1, some 1] := by
  intro downloader rounds
  have hturns : ∀ turn ∈ List.replicate 4 refusedByFirst, turn = refusedByFirst :=
    fun turn hturn => List.eq_of_mem_replicate hturn
  have hbacks := download_backs_off downloader [{ messageId := "x@y" }, { messageId := "z@y" }]
    (List.replicate 4 refusedByFirst)
    (fun turn hturn => hturns turn hturn ▸ fun _ => le_rfl)
    (fun turn hturn => hturns turn hturn ▸ Turn.Alone.undisturbed ⟨rfl, rfl, rfl⟩)
  have houtcomes : rounds.all (fun r => r.output.attempt.all fun attempt =>
      attempt.outcome = .error (.connection "refused") ∨
        attempt.outcome = .ok { code := 220, message := "", data := some [1] }) = true := by
    decide +kernel
  refine ⟨hbacks.1 fun r hr attempt hattempt hrejects => ?_, by decide +kernel⟩
  obtain ⟨-, text, hauth⟩ := hrejects
  have hr := List.all_eq_true.mp houtcomes r hr
  rw [hattempt, Option.all_some, hauth] at hr
  simp at hr

def rejectingServer : ReplyServer where
  answer _ := .bare (Text.utf8 "481 account blocked\r") (by decide)

def rejectedLogin : Turn where
  clock _ := 0
  acquire _ := .ok ()
  fetchArticle _ messageId :=
    (NzbNntp.fetchArticle rawDecoder messageId (.readyTo rejectingServer)).result.getD
      (.error .shutdown)
  recordedAt := 0

/-- After a rejected login the server is not penalised, and the next article is asked
of it in the next turn. -/
theorem download_asks_again :
    let rounds := (new [{ id := "a" }]).rounds [{ messageId := "x@y" }, { messageId := "z@y" }]
      (List.replicate 4 rejectedLogin)
    rounds.map (·.output.attempt.map (·.pick.index)) = [some 0, some 0, none, none] ∧
      rounds.map (·.after.map (·.penaltyUntil)) = [[none], [none], [none], [none]] ∧
      ¬ BacksOff rounds := by
  intro rounds
  refine ⟨by decide +kernel, by decide +kernel, fun hbacks => ?_⟩
  have hsome : rounds.any (fun r => r.output.attempt.any fun attempt =>
      NzbNntp.isFatal attempt.outcome && r.after.all (·.penaltyUntil.isNone)) = true := by
    decide +kernel
  obtain ⟨r, hr, hfails⟩ := List.any_eq_true.mp hsome
  obtain ⟨attempt, hattempt, hfails⟩ := (Option.any_eq_true _ _).mp hfails
  obtain ⟨hfatal, hnone⟩ := Bool.and_eq_true_iff.mp hfails
  obtain ⟨deadline, ⟨server, hserver, hpenalty⟩, -⟩ :=
    hbacks.penalised r hr attempt hattempt (.inr hfatal)
  have hnone := List.all_eq_true.mp hnone server (List.mem_of_getElem? hserver)
  rw [hpenalty] at hnone
  cases hnone

end Downloader

end NzbNntp
